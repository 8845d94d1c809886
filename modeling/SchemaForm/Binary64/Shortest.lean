import SchemaForm.Binary64.Basic

set_option autoImplicit false
set_option relaxedAutoImplicit false

/-!
The shortest decimal of a binary64 number: the fewest digits that read back as the number, and of
those the nearest to it.
-/

namespace SchemaForm

/-- The decimal `digits * 10 ^ exponent`. -/
structure Decimal where
  digits : Nat
  exponent : Int
  deriving DecidableEq

namespace Decimal

/-- The digits in writing order. -/
def text (d : Decimal) : List Char := Nat.toDigits 10 d.digits

/-- The exponent of the first digit. -/
def leading (d : Decimal) : Int := d.exponent + (d.text.length - 1 : Nat)

/-- The same decimal without zeros at the end of its digits. The fuel is the number of digits. -/
def strip : Nat → Decimal → Decimal
  | 0, d => d
  | fuel + 1, d =>
    if d.digits ≠ 0 ∧ d.digits % 10 = 0 then strip fuel ⟨d.digits / 10, d.exponent + 1⟩ else d

end Decimal

namespace Binary64

/-- The exponent of the first decimal digit of a number that is not zero. -/
def leadingExponent (x : Binary64) : Int :=
  if unitsPerOne ≤ x.magnitude then
    ((Nat.toDigits 10 (x.magnitude / unitsPerOne)).length - 1 : Nat)
  else
    -((Nat.toDigits 10 ((unitsPerOne - 1) / x.magnitude)).length : Int)

/-- Whether a decimal reads back as the size of the number. -/
def readsBack (x : Binary64) (digits : Nat) (exponent : Int) : Bool :=
  match ofDecimal? false digits exponent with
  | some y => y.magnitude == x.magnitude
  | none => false

/-- The nearest decimal with the given exponent among those that read back. Only the two
neighbours of the number on that decimal grid have to be tried. -/
def nearestAt? (x : Binary64) (exponent : Int) : Option Decimal :=
  let n := x.magnitude * 10 ^ (-exponent).toNat
  let d := unitsPerOne * 10 ^ exponent.toNat
  let low := n / d
  let twice := 2 * (n % d)
  let lowFits := x.readsBack low exponent
  let highFits := x.readsBack (low + 1) exponent
  if lowFits ∧ (¬highFits ∨ twice < d ∨ (twice = d ∧ low % 2 = 0)) then
    some ⟨low, exponent⟩
  else if highFits then
    some ⟨low + 1, exponent⟩
  else
    none

/-- Tries ever finer grids. Seventeen digits always read back, so the fuel never ends the search
of `shortest`. -/
def shortestFrom (x : Binary64) : Nat → Int → Decimal
  | 0, exponent =>
    ⟨x.magnitude * 10 ^ (-exponent).toNat / (unitsPerOne * 10 ^ exponent.toNat), exponent⟩
  | fuel + 1, exponent =>
    match x.nearestAt? exponent with
    | some d => d
    | none => shortestFrom x fuel (exponent - 1)

/-- The shortest decimal of the size of a number that is not zero. -/
def shortest (x : Binary64) : Decimal := (x.shortestFrom 17 x.leadingExponent).strip 20

/-- All digits of a number without fractional part, a minus in front of a negative one and of
negative zero. -/
def integralText (x : Binary64) : String :=
  let digits := Nat.repr (x.magnitude / unitsPerOne)
  if x.negative then "-" ++ digits else digits

end Binary64

end SchemaForm
