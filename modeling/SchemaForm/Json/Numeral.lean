import SchemaForm.Binary64.Reading
import SchemaForm.Json.Basic

set_option autoImplicit false
set_option relaxedAutoImplicit false

/-!
The numbers of JSON texts. Digits are gathered into a significand of 64 bits. Digits of the whole
part that no longer fit only raise the power of ten, digits of the fraction that no longer fit are
dropped. The significand is rounded, then multiplied or divided by a rounded power of ten.
-/

namespace SchemaForm

/-- A number as written. A number without fraction digits has no point. -/
structure NumberText where
  negative : Bool
  whole : List Char
  fraction : List Char
  exponent : Option (Bool × List Char)

namespace NumberText

def mayContain (c : Char) : Bool :=
  c.isDigit || c == '-' || c == '+' || c == '.' || c == 'e' || c == 'E'

/-- The exponent part of a number: a letter, an optional sign and at least one digit. -/
def exponent? : List Char → Option (Option (Bool × List Char))
  | [] => some none
  | c :: rest =>
    if c = 'e' ∨ c = 'E' then
      let (negative, digits) := Numeral.splitSign rest
      if digits ≠ [] ∧ digits.all Char.isDigit then some (some (negative, digits)) else none
    else
      none

/-- Reads a number: no plus sign, no needless zero in front, a digit on either side of a point. -/
def ofChars? (cs : List Char) : Option NumberText :=
  let (negative, body) := match cs with
    | '-' :: rest => (true, rest)
    | _ => (false, cs)
  let whole := body.takeWhile Char.isDigit
  let tail := body.dropWhile Char.isDigit
  if whole = [] ∨ (whole.head? = some '0' ∧ whole ≠ ['0']) then
    none
  else
    match tail with
    | '.' :: rest =>
      let fraction := rest.takeWhile Char.isDigit
      if fraction = [] then
        none
      else
        (exponent? (rest.dropWhile Char.isDigit)).map fun e => ⟨negative, whole, fraction, e⟩
    | _ => (exponent? tail).map fun e => ⟨negative, whole, [], e⟩

/-- The bound of a significand. -/
def significandBound : Nat := 2 ^ 64

/-- Adds digits to a significand as long as it stays within 64 bits: the significand, the number of
digits added and the number of digits left over. -/
def gather (significand : Nat) : List Char → Nat × Nat × Nat
  | [] => (significand, 0, 0)
  | c :: rest =>
    let next := Numeral.ofDigits significand [c]
    if next < significandBound then
      let (n, taken, left) := gather next rest
      (n, taken + 1, left)
    else
      (significand, 0, rest.length + 1)

/-- A rounded power of ten. -/
def powerOfTen? (n : Nat) : Option Binary64 := Binary64.ofRatio? false (10 ^ n) 1

/-- Divides by powers of ten until the exponent is reached. Each round divides by the greatest one,
and a number that has become zero stays zero. -/
def divideDown : Nat → Binary64 → Nat → Option Binary64
  | 0, x, _ => some x
  | fuel + 1, x, n =>
    if n ≤ 308 then
      (powerOfTen? n).bind x.div?
    else if x.isZero then
      some x
    else
      ((powerOfTen? 308).bind x.div?).bind fun y => divideDown fuel y (n - 308)

/-- A significand times a power of ten, without sign. Three divisions by the greatest power of ten
make any significand zero. -/
def scaled? (significand : Nat) (exponent : Int) : Option Binary64 :=
  (Binary64.ofInt? significand).bind fun x =>
    if 0 ≤ exponent then
      if exponent ≤ 308 then
        (powerOfTen? exponent.toNat).bind x.mul?
      else
        if x.isZero then some x else none
    else
      divideDown 4 x (-exponent).toNat

/-- The number read as a binary64 number. An exponent that does not fit 32 bits makes the number
zero, unless it raises a significand that is not zero, which is refused. -/
def toBinary64? (t : NumberText) : Option Binary64 :=
  let (whole, _, skipped) := gather 0 t.whole
  let (significand, taken, _) := gather whole t.fraction
  let start := (skipped : Int) - taken
  let size := match t.exponent with
    | none => scaled? significand start
    | some (negative, digits) =>
      let e := Numeral.ofDigits 0 digits
      if e < 2 ^ 31 then
        scaled? significand (if negative then start - e else start + e)
      else if significand ≠ 0 ∧ negative = false then
        none
      else
        some (Binary64.zero false)
  size.map fun x => if t.negative then x.neg else x

/-- The number read. Without point and exponent it is an integer, if it fits 64 bits and is not
minus zero. -/
def toNumber? (t : NumberText) : Option Number :=
  let n := Numeral.ofDigits 0 t.whole
  if t.fraction = [] ∧ t.exponent = none ∧ !t.negative ∧ n < 2 ^ 64 then
    some (.int n)
  else if t.fraction = [] ∧ t.exponent = none ∧ t.negative ∧ 0 < n ∧ n ≤ 2 ^ 63 then
    some (.int (-n))
  else
    t.toBinary64?.map .real

end NumberText

end SchemaForm
