import SchemaForm.Binary64.Basic

set_option autoImplicit false
set_option relaxedAutoImplicit false

/-!
Reading decimal numerals: integers within bounds, and numbers with a point and an exponent, rounded
once to the nearest binary64 number.
-/

namespace SchemaForm

namespace Numeral

/-- The number written by a list of digits, on top of those read before. -/
def ofDigits (start : Nat) (cs : List Char) : Nat :=
  cs.foldl (fun n c => 10 * n + (c.toNat - '0'.toNat)) start

/-- A non-empty list of digits, as a number. -/
def natural? (cs : List Char) : Option Nat :=
  if cs ≠ [] ∧ cs.all Char.isDigit then some (ofDigits 0 cs) else none

/-- A natural number below `bound`, with an optional plus sign. -/
def below? (bound : Nat) (cs : List Char) : Option Nat :=
  let digits := match cs with
    | '+' :: rest => rest
    | _ => cs
  (natural? digits).filter (· < bound)

/-- An integer in the signed 64-bit range, with an optional sign. -/
def signed? (cs : List Char) : Option Int :=
  let value := match cs with
    | '+' :: rest => (natural? rest).map Int.ofNat
    | '-' :: rest => (natural? rest).map fun n => -(n : Int)
    | _ => (natural? cs).map Int.ofNat
  value.filter fun i => -(2 ^ 63) ≤ i ∧ i < 2 ^ 63

/-- Splits a sign off: whether there is a minus, and the rest. -/
def splitSign : List Char → Bool × List Char
  | '-' :: rest => (true, rest)
  | '+' :: rest => (false, rest)
  | cs => (false, cs)

/-- What may follow the digits of a number: nothing, or an exponent with at least one digit. -/
def exponent? : List Char → Option Int
  | [] => some 0
  | c :: rest =>
    if c = 'e' ∨ c = 'E' then
      let (negative, digits) := splitSign rest
      (natural? digits).map fun n => if negative then -(n : Int) else n
    else
      none

/-- A decimal number: an optional sign, digits with an optional point before, between or after
them, and an optional exponent. Numbers beyond the finite range are refused. -/
def real? (cs : List Char) : Option Binary64 :=
  let (negative, body) := splitSign cs
  let whole := body.takeWhile Char.isDigit
  let (fraction, tail) := match body.dropWhile Char.isDigit with
    | '.' :: rest => (rest.takeWhile Char.isDigit, rest.dropWhile Char.isDigit)
    | rest => ([], rest)
  if whole = [] ∧ fraction = [] then
    none
  else
    (exponent? tail).bind fun e =>
      Binary64.ofDecimal? negative (ofDigits 0 (whole ++ fraction)) (e - fraction.length)

end Numeral

end SchemaForm
