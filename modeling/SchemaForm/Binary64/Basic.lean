set_option autoImplicit false
set_option relaxedAutoImplicit false

/-!
Finite binary64 numbers in exact arithmetic. A number is a whole count of units of `2 ^ -1074`, so
comparing two numbers compares two integers, and every rounding is one rounding of a quotient of
naturals to the nearest representable count, a tie going to the even significand.
-/

namespace SchemaForm

-- The bounds of numbers are powers by core's definition, whatever other powers are at hand.
attribute [default_instance 100000, instance (100000)] instPowNat

/-- A finite binary64 number: its magnitude is `significand * 2 ^ scale` units of `2 ^ -1074`. The
representation is unique, up to the sign of zero. -/
structure Binary64 where
  negative : Bool
  significand : Nat
  scale : Nat
  significand_lt : significand < 2 ^ 53
  scale_le : scale ≤ 2045
  canonical : scale = 0 ∨ 2 ^ 52 ≤ significand
  deriving DecidableEq

namespace Binary64

/-- How many units make one. -/
def unitsPerOne : Nat := 2 ^ 1074

/-- The size of the number in units. -/
def magnitude (x : Binary64) : Nat := x.significand * 2 ^ x.scale

/-- The number in units. Both zeros have none. -/
def units (x : Binary64) : Int := if x.negative then -(x.magnitude : Int) else x.magnitude

/-- Equality of values: the two zeros are equal. -/
def same (x y : Binary64) : Bool := x.units == y.units

def less (x y : Binary64) : Bool := x.units < y.units

def isZero (x : Binary64) : Bool := x.significand == 0

def isIntegral (x : Binary64) : Bool := x.magnitude % unitsPerOne == 0

def zero (negative : Bool) : Binary64 := ⟨negative, 0, 0, by decide, by decide, by decide⟩

def neg (x : Binary64) : Binary64 := { x with negative := !x.negative }

/-- The integer nearest to `n / d`, a tie going to the even one. -/
def roundHalfEven (n d : Nat) : Nat :=
  let q := n / d
  let twice := 2 * (n % d)
  if d < twice ∨ (twice = d ∧ q % 2 = 1) then q + 1 else q

/-- The number with these parts, if they are canonical and in range. -/
def ofParts? (negative : Bool) (significand scale : Nat) : Option Binary64 :=
  if h : significand < 2 ^ 53 ∧ scale ≤ 2045 ∧ (scale = 0 ∨ 2 ^ 52 ≤ significand) then
    some ⟨negative, significand, scale, h.1, h.2.1, h.2.2⟩
  else
    none

/-- The number nearest to `n / d` units, none when it lies beyond the finite range. -/
def ofUnits? (negative : Bool) (n d : Nat) : Option Binary64 :=
  let scale := Nat.log2 (n / d) - 52
  let significand := roundHalfEven n (d * 2 ^ scale)
  if significand < 2 ^ 53 then
    ofParts? negative significand scale
  else
    ofParts? negative (2 ^ 52) (scale + 1)

/-- The number nearest to `n / d`, none when it lies beyond the finite range. -/
def ofRatio? (negative : Bool) (n d : Nat) : Option Binary64 :=
  ofUnits? negative (n * unitsPerOne) d

def ofInt? (i : Int) : Option Binary64 := ofRatio? (i < 0) i.natAbs 1

def mul? (x y : Binary64) : Option Binary64 :=
  ofUnits? (x.negative != y.negative) (x.magnitude * y.magnitude) unitsPerOne

/-- The rounded quotient. The divisor is not zero wherever this is used. -/
def div? (x y : Binary64) : Option Binary64 :=
  ofRatio? (x.negative != y.negative) x.magnitude y.magnitude

/-- The number nearest to `digits * 10 ^ exponent`. Far outside the finite range the answer is
known without computing the power. -/
def ofDecimal? (negative : Bool) (digits : Nat) (exponent : Int) : Option Binary64 :=
  if digits = 0 then
    some (zero negative)
  else if 400 < exponent then
    none
  else if exponent + (Nat.toDigits 10 digits).length < -400 then
    some (zero negative)
  else
    ofRatio? negative (digits * 10 ^ exponent.toNat) (10 ^ (-exponent).toNat)

end Binary64

end SchemaForm
