import SchemaForm.Binary64.Reading
import SchemaForm.Toml.Basic

set_option autoImplicit false
set_option relaxedAutoImplicit false

/-!
The scalars of TOML that stand without quotes: truth values, integers, real numbers, dates and
times.
-/

namespace SchemaForm

namespace Toml

def mayBeBare (c : Char) : Bool :=
  c.isAlphanum || c == '_' || c == '+' || c == '-' || c == '.' || c == ':'

/-- Digits with single underscores between them, without the underscores. -/
def digits? (isDigit : Char → Bool) : List Char → Option (List Char)
  | [] => none
  | [c] => if isDigit c then some [c] else none
  | c :: '_' :: rest =>
    if isDigit c then (digits? isDigit rest).map fun cs => c :: cs else none
  | c :: rest => if isDigit c then (digits? isDigit rest).map fun cs => c :: cs else none

/-- The value of a digit in a base up to sixteen. -/
def digitValue (c : Char) : Nat :=
  if c.isDigit then c.toNat - '0'.toNat
  else if 'a' ≤ c then c.toNat - 'a'.toNat + 10
  else c.toNat - 'A'.toNat + 10

def inBase (base : Nat) (cs : List Char) : Nat := cs.foldl (fun n c => base * n + digitValue c) 0

/-- Whether a character is a digit of a base up to sixteen. -/
def isDigitOf (base : Nat) (c : Char) : Bool :=
  (c.isDigit || ('a' ≤ c && c ≤ 'f') || ('A' ≤ c && c ≤ 'F')) && digitValue c < base

/-- An integer in the signed 64-bit range. -/
def inRange? (i : Int) : Option Toml :=
  if -(2 ^ 63) ≤ i ∧ i < 2 ^ 63 then some (.integer i) else none

/-- The digits of a decimal integer: no needless zero in front. -/
def wholeDigits? (cs : List Char) : Option (List Char) :=
  (digits? Char.isDigit cs).filter fun ds => ds.head? != some '0' || ds == ['0']

def integer? (cs : List Char) : Option Toml :=
  match cs with
  | '0' :: 'x' :: rest => (digits? (isDigitOf 16) rest).bind fun ds => inRange? (inBase 16 ds)
  | '0' :: 'o' :: rest => (digits? (isDigitOf 8) rest).bind fun ds => inRange? (inBase 8 ds)
  | '0' :: 'b' :: rest => (digits? (isDigitOf 2) rest).bind fun ds => inRange? (inBase 2 ds)
  | _ =>
    let (negative, body) := Numeral.splitSign cs
    (wholeDigits? body).bind fun ds =>
      let n : Int := inBase 10 ds
      inRange? (if negative then -n else n)

/-- Whether a list of characters is a letter of exponents with an exponent. -/
def isExponent : List Char → Bool
  | c :: rest => (c == 'e' || c == 'E') && (digits? Char.isDigit (Numeral.splitSign rest).2).isSome
  | [] => false

/-- Reads a real number. One above the finite range is refused. -/
def real? (cs : List Char) : Option Toml :=
  let (negative, body) := Numeral.splitSign cs
  if body = "inf".toList ∨ body = "nan".toList then
    some (.real (String.ofList cs))
  else
    let inNumber (c : Char) : Bool := c.isDigit || c == '_'
    let tail := body.dropWhile inNumber
    let written : Bool := match tail with
      | '.' :: rest =>
        (digits? Char.isDigit (rest.takeWhile inNumber)).isSome &&
          (rest.dropWhile inNumber == [] || isExponent (rest.dropWhile inNumber))
      | _ => isExponent tail
    let finite := (Numeral.real? (cs.filter fun c => c != '_')).isSome
    if (wholeDigits? (body.takeWhile inNumber)).isSome ∧ written ∧ (finite ∨ negative) then
      some (.real (String.ofList cs))
    else
      none

def two? (a b : Char) : Option Nat := Numeral.natural? [a, b]

def daysIn (year month : Nat) : Nat :=
  if month = 2 then
    if year % 4 = 0 ∧ (year % 100 ≠ 0 ∨ year % 400 = 0) then 29 else 28
  else if month = 4 ∨ month = 6 ∨ month = 9 ∨ month = 11 then 30
  else 31

/-- Reads a date at the beginning of a text: what follows it. -/
def afterDate? : List Char → Option (List Char)
  | a :: b :: c :: d :: '-' :: e :: f :: '-' :: g :: h :: rest => do
    let year ← Numeral.natural? [a, b, c, d]
    let month ← two? e f
    let day ← two? g h
    if 1 ≤ month ∧ month ≤ 12 ∧ 1 ≤ day ∧ day ≤ daysIn year month then some rest else none
  | _ => none

/-- Reads a time at the beginning of a text: what follows it. -/
def afterTime? : List Char → Option (List Char)
  | a :: b :: ':' :: c :: d :: ':' :: e :: f :: rest => do
    let hour ← two? a b
    let minute ← two? c d
    let second ← two? e f
    if hour ≤ 23 ∧ minute ≤ 59 ∧ second ≤ 60 then
      match rest with
      | '.' :: fraction =>
        if (fraction.takeWhile Char.isDigit).isEmpty then none
        else some (fraction.dropWhile Char.isDigit)
      | _ => some rest
    else
      none
  | _ => none

/-- Whether a text is an offset from universal time, or nothing. -/
def isOffset : List Char → Bool
  | [] | ['Z'] | ['z'] => true
  | [sign, a, b, ':', c, d] =>
    (sign == '+' || sign == '-') && (two? a b).any (fun h => h ≤ 23) &&
      (two? c d).any (fun m => m ≤ 59)
  | _ => false

/-- Whether a text is a time with an optional offset. -/
def isTimeOfDay (cs : List Char) : Bool := (afterTime? cs).any isOffset

/-- Whether a text is a date, a time, or both with a letter between them. -/
def isMoment (cs : List Char) : Bool :=
  match afterDate? cs with
  | some [] => true
  | some (t :: rest) => (t == 'T' || t == 't') && isTimeOfDay rest
  | none => (afterTime? cs) == some []

def bare? (cs : List Char) : Option Toml :=
  if cs = "true".toList then some (.bool true)
  else if cs = "false".toList then some (.bool false)
  else if isMoment cs then some (.moment (String.ofList cs))
  else (integer? cs).or (real? cs)

/-- Reads a scalar without quotes at the beginning of a text: the scalar, and what follows it. A
time may follow a date behind a blank. -/
def leadingBare? (cs : List Char) : Option (Toml × List Char) :=
  let word := cs.takeWhile mayBeBare
  let rest := cs.dropWhile mayBeBare
  match afterDate? word, rest with
  | some [], ' ' :: later =>
    let time := later.takeWhile mayBeBare
    if isTimeOfDay time then
      some (.moment (String.ofList (word ++ ' ' :: time)), later.dropWhile mayBeBare)
    else
      (bare? word).map fun v => (v, rest)
  | _, _ => (bare? word).map fun v => (v, rest)

end Toml

end SchemaForm
