import SchemaForm.Proofs.Validation.Agreement

set_option autoImplicit false
set_option relaxedAutoImplicit false

/-!
Whole numbers and whole bounds. The check of the bounds rounds the number to binary64 first.
Rounding keeps the order, so nothing within the bounds is refused, but a number just beyond a bound
may be rounded to it and pass.
-/

namespace SchemaForm

namespace Binary64

variable {v w : Int} {x y : Binary64}

/-! ### The number nearest to an integer -/

/-- The units of the number nearest to an integer. -/
def nearestIntUnits (v : Int) : Int :=
  if v < 0 then -(nearestUnits (v.natAbs * unitsPerOne) 1 : Int)
  else nearestUnits (v.natAbs * unitsPerOne) 1

private theorem units_ofInt? (h : ofInt? v = some x) : x.units = nearestIntUnits v := by
  rw [ofInt?, ofRatio?] at h
  obtain ⟨hsign, hmagnitude⟩ := parts_of_ofUnits? h
  simp [units, nearestIntUnits, hsign, hmagnitude]

private theorem roundingScale_mul_two_pow {n i : Nat} (h : n < 2 ^ i) (j : Nat) :
    roundingScale (n * 2 ^ j) 1 ≤ i + j - 53 := by
  refine roundingScale_le ?_
  calc n * 2 ^ j / 1 = n * 2 ^ j := Nat.div_one _
    _ < 2 ^ i * 2 ^ j := Nat.mul_lt_mul_of_pos_right h (Nat.two_pow_pos j)
    _ = 2 ^ (i + j) := (Nat.pow_add 2 i j).symm
    _ ≤ 2 ^ (i + j - 53 + 53) := Nat.pow_le_pow_right (by decide) (by omega)

private theorem exists_ofInt? (h : v.natAbs < 2 ^ 65) : ∃ x, ofInt? v = some x := by
  simp only [ofInt?, ofRatio?, unitsPerOne]
  exact exists_ofUnits? _ ((roundingScale_mul_two_pow h 1074).trans (by decide))

private theorem nearestUnits_mul_two_pow {n : Nat} (h : n < 2 ^ 53) (j : Nat) :
    nearestUnits (n * 2 ^ j) 1 = n * 2 ^ j := by
  have hscale : roundingScale (n * 2 ^ j) 1 ≤ j := by
    have := roundingScale_mul_two_pow h j
    omega
  obtain ⟨k, hk⟩ : 2 ^ roundingScale (n * 2 ^ j) 1 ∣ n * 2 ^ j :=
    (Nat.pow_dvd_pow 2 hscale).trans (Nat.dvd_mul_left _ _)
  have hpos := Nat.two_pow_pos (roundingScale (n * 2 ^ j) 1)
  have hround : roundedSignificand (n * 2 ^ j) 1 = k := by
    rw [roundedSignificand, Nat.one_mul]
    refine roundHalfEven_eq ?_ ?_ <;>
      · rw [Nat.mul_comm k, ← hk]
        omega
  rw [nearestUnits, hround, Nat.mul_comm k, ← hk]

private theorem nearestIntUnits_of_small (h : v.natAbs ≤ 2 ^ 53) :
    nearestIntUnits v = v * unitsPerOne := by
  have hnat (j : Nat) : nearestUnits (v.natAbs * 2 ^ j) 1 = v.natAbs * 2 ^ j := by
    rcases Nat.lt_or_eq_of_le h with hless | heq
    · exact nearestUnits_mul_two_pow hless j
    · have hpower : 2 ^ 53 * 2 ^ j = 2 ^ 52 * 2 ^ (j + 1) := by rw [Nat.pow_succ]; omega
      rw [heq, hpower]
      exact nearestUnits_mul_two_pow (by decide) (j + 1)
  rw [nearestIntUnits, unitsPerOne, hnat 1074, Nat.cast_mul]
  split
  · rw [← Int.neg_mul]
    congr 1
    omega
  · congr 1
    omega

private theorem nearestIntUnits_mono (h : v ≤ w) : nearestIntUnits v ≤ nearestIntUnits w := by
  have hmono {n m : Nat} (hle : n ≤ m) :
      nearestUnits (n * unitsPerOne) 1 ≤ nearestUnits (m * unitsPerOne) 1 :=
    nearestUnits_mono (Nat.mul_le_mul_right _ hle)
  unfold nearestIntUnits
  split <;> split
  · have := hmono (n := w.natAbs) (m := v.natAbs) (by omega)
    omega
  · omega
  · omega
  · have := hmono (n := v.natAbs) (m := w.natAbs) (by omega)
    omega

private theorem nearestIntUnits_of_units (h : x.units = v * unitsPerOne) :
    nearestIntUnits v = x.units := by
  have hmagnitude : v.natAbs * unitsPerOne = x.magnitude := by
    have := congrArg Int.natAbs h
    rw [Int.natAbs_mul, Int.natAbs_natCast] at this
    rw [← this, units]
    split <;> simp
  have hsign : v < 0 ↔ x.units < 0 := by
    rw [h]
    have hpos : (0 : Int) < unitsPerOne := Int.natCast_pos.mpr unitsPerOne_pos
    exact ⟨fun hv => mul_neg_of_neg_of_pos hv hpos, fun hv => neg_of_mul_neg_left hv hpos.le⟩
  rw [nearestIntUnits, hmagnitude, nearestUnits_magnitude]
  unfold units at hsign ⊢
  split at hsign <;> split <;> omega

end Binary64

/-- A bound without fractional part. -/
structure WholeBound where
  number : Binary64
  value : Int
  units_eq : number.units = value * Binary64.unitsPerOne

namespace Check

variable {v : Int} {value : Json}

/-! ### What the rounded comparison sees -/

/-- Whether an integer is rounded to a bound. -/
def roundsTo (v : Int) (b : WholeBound) : Bool :=
  (Binary64.ofInt? v).any fun x => x.same b.number

/-- The message about a number below a whole bound. -/
def lowMessage (label : String) (b : WholeBound) : String :=
  quoted label ++ " must be greater than or equal to " ++ (Number.real b.number).plainText ++ "."

/-- The message about a number above a whole bound. -/
def highMessage (label : String) (b : WholeBound) : String :=
  quoted label ++ " must be less than or equal to " ++ (Number.real b.number).plainText ++ "."

private theorem highMessage_ne_lowMessage (label : String) (lo hi : WholeBound) :
    highMessage label hi ≠ lowMessage label lo := by
  intro h
  have hlist := congrArg String.toList h
  simp [lowMessage, highMessage] at hlist

/-- The message about an integer beyond its bounds, the lower bound first. Some bounds are passed
over. -/
def violated? (passedOver : WholeBound → Bool) (label : String) (v : Int)
    (min max : Option WholeBound) : Option String :=
  ((min.filter fun b => decide (v < b.value) && !passedOver b).map (lowMessage label)).or
    ((max.filter fun b => decide (b.value < v) && !passedOver b).map (highMessage label))

def exactBounds? (label : String) (v : Int) (min max : Option WholeBound) : Option String :=
  violated? (fun _ => false) label v min max

private theorem exactBounds?_eq_none_iff (label : String) (v : Int) (min max : Option WholeBound) :
    exactBounds? label v min max = none ↔
      (∀ lo ∈ min, lo.value ≤ v) ∧ ∀ hi ∈ max, v ≤ hi.value := by
  simp [exactBounds?, violated?]

/-- An integer is rounded to a bound that it violates, and it is the bound to be reported. -/
def IsMissed (v : Int) (min max : Option WholeBound) : Prop :=
  (∃ lo ∈ min, v < lo.value ∧ roundsTo v lo = true) ∨
    (∀ lo ∈ min, lo.value ≤ v) ∧ ∃ hi ∈ max, hi.value < v ∧ roundsTo v hi = true

section Comparison

variable {x : Binary64} (hx : Binary64.ofInt? v = some x) (b : WholeBound)

include hx

private theorem roundsTo_iff : roundsTo v b = true ↔ x.units = b.number.units := by
  simp [roundsTo, hx, Binary64.same]

private theorem units_le (h : v ≤ b.value) : x.units ≤ b.number.units := by
  rw [Binary64.units_ofInt? hx, ← Binary64.nearestIntUnits_of_units b.units_eq]
  exact Binary64.nearestIntUnits_mono h

private theorem le_units (h : b.value ≤ v) : b.number.units ≤ x.units := by
  rw [Binary64.units_ofInt? hx, ← Binary64.nearestIntUnits_of_units b.units_eq]
  exact Binary64.nearestIntUnits_mono h

private theorem less_bound : x.less b.number = (decide (v < b.value) && !roundsTo v b) := by
  have hrounds := roundsTo_iff hx b
  have hbelow := units_le hx b
  have habove := le_units hx b
  rw [Bool.eq_iff_iff, Binary64.less, decide_eq_true_iff, Bool.and_eq_true, decide_eq_true_iff,
    Bool.not_eq_true', ← Bool.not_eq_true, hrounds]
  omega

private theorem bound_less : b.number.less x = (decide (b.value < v) && !roundsTo v b) := by
  have hrounds := roundsTo_iff hx b
  have hbelow := units_le hx b
  have habove := le_units hx b
  rw [Bool.eq_iff_iff, Binary64.less, decide_eq_true_iff, Bool.and_eq_true, decide_eq_true_iff,
    Bool.not_eq_true', ← Bool.not_eq_true, hrounds]
  omega

private theorem atLeast?_eq (label : String) (min : Option WholeBound) :
    atLeast? label (min.map WholeBound.number) x =
      (min.filter fun b => decide (v < b.value) && !roundsTo v b).map (lowMessage label) := by
  cases min with
  | none => rfl
  | some lo => simp [atLeast?, Option.filter_some, less_bound hx, lowMessage]

private theorem atMost?_eq (label : String) (max : Option WholeBound) :
    atMost? label (max.map WholeBound.number) x =
      (max.filter fun b => decide (b.value < v) && !roundsTo v b).map (highMessage label) := by
  cases max with
  | none => rfl
  | some hi => simp [atMost?, Option.filter_some, bound_less hx, highMessage]

end Comparison

private theorem bounds?_of_text (hvalue : Json.scalarText? value = some (toString v))
    (label : String) (min max : Option Binary64) :
    bounds? label (some value) min max =
      (Binary64.ofInt? v).bind fun x => (atLeast? label min x).or (atMost? label max x) := by
  rw [← (meansSame_scalarText hvalue).bounds? label min max, bounds?]
  exact congrArg (Option.bind · _) (number?_plainText (.int v))

variable {label : String} {min max : Option WholeBound}

/-- Passing over the bounds that the integer is rounded to changes the answer just if the bound to
be reported is one of them. -/
private theorem violated?_roundsTo_iff :
    violated? (roundsTo v) label v min max = exactBounds? label v min max ↔
      ¬ IsMissed v min max := by
  have hmax : (max.filter fun b => decide (b.value < v) && !roundsTo v b).map (highMessage label) =
      (max.filter fun b => decide (b.value < v) && !false).map (highMessage label) ↔
      ¬ ∃ hi ∈ max, hi.value < v ∧ roundsTo v hi = true := by
    cases max with
    | none => simp
    | some hi =>
      by_cases h : hi.value < v <;> cases hr : roundsTo v hi <;> simp [Option.filter_some, h, hr]
  unfold exactBounds? violated? IsMissed
  cases min with
  | none => simpa using hmax
  | some lo =>
    by_cases h : v < lo.value
    · cases hr : roundsTo v lo with
      | false => simp [Option.filter_some, h, hr]
      | true =>
        -- The message about the lower bound is not given, whatever is said of the upper one.
        refine iff_of_false ?_ (not_not_intro (.inl ⟨lo, rfl, h, hr⟩))
        cases max <;> simp [Option.filter_some, h, hr, highMessage_ne_lowMessage]
    · simpa [Option.filter_some, h, show lo.value ≤ v by omega] using hmax

private theorem not_isMissed_of_small (h : v.natAbs ≤ 2 ^ 53) : ¬ IsMissed v min max := by
  obtain ⟨x, hx⟩ := Binary64.exists_ofInt? (v := v) (by omega)
  have hexact (b : WholeBound) (hr : roundsTo v b = true) : v = b.value := by
    have hunits := (roundsTo_iff hx b).mp hr
    rw [Binary64.units_ofInt? hx, Binary64.nearestIntUnits_of_small h, b.units_eq] at hunits
    have hpos : (Binary64.unitsPerOne : Int) ≠ 0 :=
      Int.natCast_ne_zero.mpr Binary64.unitsPerOne_pos.ne'
    exact mul_right_cancel₀ hpos hunits
  rintro (⟨lo, -, hless, hr⟩ | ⟨-, hi, -, hless, hr⟩)
  · have := hexact lo hr
    omega
  · have := hexact hi hr
    omega

/-! ### Bounds of integers -/

/-- An integer of 64 bits, given as a number or as its text, is checked against whole bounds. The
exact answer has no message just if the integer keeps both bounds. The check takes a bound that the
integer is rounded to for kept, so its answer is exact unless the bound to be reported is such a
one. Up to `2 ^ 53` there is none. -/
theorem bounds?_of_integer (hlow : -(2 ^ 63) ≤ v) (hhigh : v < 2 ^ 64)
    (hvalue : Json.scalarText? value = some (toString v)) (label : String)
    (min max : Option WholeBound) :
    (exactBounds? label v min max = none ↔
        (∀ lo ∈ min, lo.value ≤ v) ∧ ∀ hi ∈ max, v ≤ hi.value) ∧
      bounds? label (some value) (min.map WholeBound.number) (max.map WholeBound.number) =
        violated? (roundsTo v) label v min max ∧
      (bounds? label (some value) (min.map WholeBound.number) (max.map WholeBound.number) =
        exactBounds? label v min max ↔ ¬ IsMissed v min max) ∧
      (v.natAbs ≤ 2 ^ 53 →
        bounds? label (some value) (min.map WholeBound.number) (max.map WholeBound.number) =
          exactBounds? label v min max) := by
  have hrounded : bounds? label (some value) (min.map WholeBound.number)
      (max.map WholeBound.number) = violated? (roundsTo v) label v min max := by
    obtain ⟨x, hx⟩ := Binary64.exists_ofInt? (v := v) (by omega)
    rw [bounds?_of_text hvalue, hx, Option.bind_some, atLeast?_eq hx, atMost?_eq hx, violated?]
  rw [hrounded]
  exact ⟨exactBounds?_eq_none_iff label v min max, rfl, violated?_roundsTo_iff, fun hsmall =>
    violated?_roundsTo_iff.mpr (not_isMissed_of_small hsmall)⟩

private def precise : WholeBound where
  number := ⟨false, 2 ^ 52, 1075, by decide, by decide, by decide⟩
  value := 9007199254740992
  units_eq := by decide +kernel

theorem bounds?_of_integer_above :
    bounds? "n" (some (.text "9007199254740994")) none (some precise.number) =
      some "'n' must be less than or equal to 9007199254740992." := by
  have hvalue : Json.scalarText? (.text "9007199254740994") =
      some (toString (9007199254740994 : Int)) := by decide +kernel
  have hkept : ¬ IsMissed 9007199254740994 none (some precise) := by
    have hr : roundsTo 9007199254740994 precise = false := by decide +kernel
    simp [IsMissed, hr]
  have hexact : exactBounds? "n" 9007199254740994 none (some precise) =
      some "'n' must be less than or equal to 9007199254740992." := by decide +kernel
  obtain ⟨-, -, hchecked, -⟩ :=
    bounds?_of_integer (by decide) (by decide) hvalue "n" none (some precise)
  exact (hchecked.mpr hkept).trans hexact

/-- One more than the bound is rounded to the bound and passes. -/
theorem bound_missed_by_rounding :
    bounds? "n" (some (.number (.int 9007199254740993))) none (some precise.number) = none ∧
      exactBounds? "n" 9007199254740993 none (some precise) =
        some "'n' must be less than or equal to 9007199254740992." := by
  decide +kernel

end Check

end SchemaForm
