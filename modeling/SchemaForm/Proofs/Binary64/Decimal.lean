import Mathlib.Algebra.Order.Field.Rat
import Mathlib.Tactic.FieldSimp
import Mathlib.Tactic.Positivity
import SchemaForm.Binary64.Shortest
import SchemaForm.Proofs.Binary64.Rounding

set_option autoImplicit false
set_option relaxedAutoImplicit false

/-!
Decimals and the numbers they are read as. Reading rounds the value of a decimal, however it is
written, and the shortest decimal of a number is read as that number: seventeen digits lie so close
together that one of them is nearer to the number than a part in `2 ^ 54`.
-/

namespace SchemaForm

namespace Decimal

def value (d : Decimal) : ℚ := d.digits * 10 ^ d.exponent

private theorem value_strip (fuel : Nat) (d : Decimal) : (d.strip fuel).value = d.value := by
  induction fuel generalizing d with
  | zero => rfl
  | succ fuel ih =>
    unfold strip
    split
    · rename_i hzeros
      have hdigits : ((d.digits / 10 : Nat) : ℚ) * 10 = d.digits := by
        exact_mod_cast Nat.div_mul_cancel (Nat.dvd_of_mod_eq_zero hzeros.2)
      rw [ih, value, value, ← hdigits, zpow_add_one₀ (by norm_num)]
      ring
    · rfl

end Decimal

namespace Binary64

theorem unitsPerOne_pos : 0 < unitsPerOne := by
  unfold unitsPerOne
  exact Nat.two_pow_pos 1074

/-! ### Reading a decimal -/

section OfDecimal

variable {negative : Bool} {n d n' d' : Nat}

private theorem ofRatio?_congr (negative : Bool) (hd : 0 < d) (hd' : 0 < d')
    (h : (n : ℚ) / d = n' / d') : ofRatio? negative n d = ofRatio? negative n' d' := by
  have hcross : n * d' = n' * d := by
    rw [div_eq_div_iff (by positivity) (by positivity)] at h
    exact_mod_cast h
  refine ofUnits?_congr negative hd hd' ?_
  rw [Nat.mul_right_comm, hcross, Nat.mul_right_comm]

private theorem ofUnits?_eq_none {s : Nat} (hs : 2046 ≤ s) (h : 2 ^ (s + 52) ≤ n / d) :
    ofUnits? negative n d = none := by
  have hscale : 2046 ≤ roundingScale n d := by
    by_contra hless
    have hupper := quotient_lt n d
    have hpow : 2 ^ (roundingScale n d + 53) ≤ 2 ^ (s + 52) :=
      Nat.pow_le_pow_right (by decide) (by omega)
    omega
  have hparts (significand : Nat) {scale : Nat} (hlarge : 2046 ≤ scale) :
      ofParts? negative significand scale = none := dif_neg fun hfits => by omega
  rw [ofUnits?_eq, hparts _ hscale, hparts _ (by omega), ite_self]

private theorem ofUnits?_eq_zero (h : 2 * n < d) :
    ofUnits? negative n d = some (zero negative) := by
  have hquotient : n / d = 0 := Nat.div_eq_of_lt (by omega)
  have hscale : roundingScale n d = 0 := by simp [roundingScale, hquotient]
  have hround : roundedSignificand n d = 0 := by
    rw [roundedSignificand, hscale]
    exact roundHalfEven_eq (by omega) (by omega)
  rw [ofUnits?_eq, hround, hscale]
  rfl

private theorem lt_ten_pow_length (n : Nat) : n < 10 ^ (Nat.toDigits 10 n).length := by
  rw [← Nat.length_toDigits_le_iff (by decide) Nat.length_toDigits_pos]

private theorem ten_pow_le_of_length {n e : Nat} (hn : 0 < n)
    (h : (Nat.toDigits 10 n).length = e + 1) : 10 ^ e ≤ n := by
  rcases Nat.eq_zero_or_pos e with rfl | hpos
  · exact hn
  · by_contra hless
    have := (Nat.length_toDigits_le_iff (by decide) hpos).mpr (Nat.lt_of_not_le hless)
    omega

private theorem two_pow_le_ten_pow {j k : Nat} (h : j ≤ 3 * k) : 2 ^ j ≤ 10 ^ k := by
  calc 2 ^ j ≤ 2 ^ (3 * k) := Nat.pow_le_pow_right (by decide) h
    _ = (2 ^ 3) ^ k := Nat.pow_mul 2 3 k
    _ ≤ 10 ^ k := Nat.pow_le_pow_left (by decide) k

/-- What has more than four hundred zeros lies beyond the finite range. -/
private theorem ofRatio?_eq_none {digits k : Nat} (hdigits : digits ≠ 0) (hk : 400 < k) :
    ofRatio? negative (digits * 10 ^ k) 1 = none := by
  refine ofUnits?_eq_none (s := 3 * k + 1022) (by omega) ?_
  calc 2 ^ (3 * k + 1022 + 52) = 2 ^ (3 * k) * unitsPerOne := by
        unfold unitsPerOne
        exact Nat.pow_add 2 (3 * k) 1074
    _ ≤ digits * 10 ^ k * unitsPerOne :=
      Nat.mul_le_mul_right _ ((two_pow_le_ten_pow le_rfl).trans
        (Nat.le_mul_of_pos_left _ (Nat.pos_of_ne_zero hdigits)))
    _ = digits * 10 ^ k * unitsPerOne / 1 := (Nat.div_one _).symm

private theorem ofRatio?_eq_zero {digits length k : Nat} (hdigits : digits < 10 ^ length)
    (hk : 400 + length < k) : ofRatio? negative digits (10 ^ k) = some (zero negative) := by
  have hten (e : Nat) : 0 < 10 ^ e := Nat.pow_pos (by decide)
  obtain ⟨j, hj, hunits⟩ : ∃ j < 400, unitsPerOne ≤ 10 ^ j := by
    unfold unitsPerOne
    exact ⟨399, by decide, two_pow_le_ten_pow (j := 1074) (k := 399) (by decide)⟩
  refine ofUnits?_eq_zero ?_
  calc 2 * (digits * unitsPerOne) ≤ 2 * (10 ^ length * unitsPerOne) :=
        Nat.mul_le_mul_left 2 (Nat.mul_le_mul_right _ hdigits.le)
    _ ≤ 2 * (10 ^ length * 10 ^ j) := Nat.mul_le_mul_left 2 (Nat.mul_le_mul_left _ hunits)
    _ < 10 * (10 ^ length * 10 ^ j) :=
        Nat.mul_lt_mul_of_pos_right (by decide) (Nat.mul_pos (hten _) (hten _))
    _ = 10 ^ (length + j + 1) := by rw [← Nat.pow_add, Nat.mul_comm, ← Nat.pow_succ]
    _ ≤ 10 ^ k := Nat.pow_le_pow_right (by decide) (by omega)

/-- Reading a decimal rounds the quotient that it is. Where the answer is known beforehand it is the
same. -/
theorem ofDecimal?_eq_ofRatio? (negative : Bool) (digits : Nat) (exponent : Int) :
    ofDecimal? negative digits exponent =
      ofRatio? negative (digits * 10 ^ exponent.toNat) (10 ^ (-exponent).toNat) := by
  unfold ofDecimal?
  split
  · rename_i hzero
    rw [hzero, Nat.zero_mul, ofRatio?, Nat.zero_mul]
    exact (ofUnits?_zero negative (Nat.pow_pos (by decide))).symm
  rename_i hdigits
  split
  · rename_i hlarge
    rw [show (-exponent).toNat = 0 by omega, Nat.pow_zero]
    exact (ofRatio?_eq_none hdigits (by omega)).symm
  split
  · rename_i hsmall
    rw [show exponent.toNat = 0 by omega, Nat.pow_zero, Nat.mul_one]
    exact (ofRatio?_eq_zero (lt_ten_pow_length digits) (by omega)).symm
  · rfl

theorem ofDecimal?_congr (negative : Bool) {p q : Decimal} (h : p.value = q.value) :
    ofDecimal? negative p.digits p.exponent = ofDecimal? negative q.digits q.exponent := by
  have hquotient (d : Decimal) :
      ((d.digits * 10 ^ d.exponent.toNat : Nat) : ℚ) / (10 ^ (-d.exponent).toNat : Nat) =
        d.value := by
    have hexponent : d.exponent = d.exponent.toNat - (-d.exponent).toNat := by omega
    rw [Decimal.value, hexponent, zpow_sub₀ (by norm_num)]
    push_cast
    rw [← hexponent, zpow_natCast, zpow_natCast, mul_div_assoc]
  rw [ofDecimal?_eq_ofRatio?, ofDecimal?_eq_ofRatio?]
  refine ofRatio?_congr negative (Nat.pow_pos (by decide)) (Nat.pow_pos (by decide)) ?_
  rw [hquotient, hquotient, h]

private theorem ofUnits?_sign (negative : Bool) (n d : Nat) :
    ofUnits? negative n d = (ofUnits? false n d).map (·.withSign negative) := by
  have hparts (significand scale : Nat) : ofParts? negative significand scale =
      (ofParts? false significand scale).map (·.withSign negative) := by
    unfold ofParts?
    split <;> rfl
  rw [ofUnits?_eq, ofUnits?_eq]
  split <;> exact hparts _ _

end OfDecimal

/-! ### The shortest decimal -/

section Shortest

variable {x : Binary64}

private theorem readsBack_iff {digits : Nat} {exponent : Int} : x.readsBack digits exponent = true ↔
    ofDecimal? false digits exponent = some (x.withSign false) := by
  unfold readsBack
  constructor
  · intro h
    split at h
    · rename_i y hy
      rw [ofDecimal?_eq_ofRatio?] at hy ⊢
      rw [hy]
      have hmagnitude : y.magnitude = x.magnitude := by simpa using h
      exact congrArg some (eq_of_magnitude_eq (parts_of_ofUnits? hy).1 hmagnitude)
    · cases h
  · intro h
    rw [h]
    simp

/-- On a grid of seventeen digits a decimal next to the number reads back. -/
private theorem readsBack_of_fine {digits : Nat} {exponent : Int}
    (hfine : 10 ^ 16 * (unitsPerOne * 10 ^ exponent.toNat) ≤ x.magnitude * 10 ^ (-exponent).toNat)
    (hlow : 2 * (x.magnitude * 10 ^ (-exponent).toNat) ≤
      2 * (digits * (unitsPerOne * 10 ^ exponent.toNat)) + unitsPerOne * 10 ^ exponent.toNat)
    (hhigh : 2 * (digits * (unitsPerOne * 10 ^ exponent.toNat)) ≤
      2 * (x.magnitude * 10 ^ (-exponent).toNat) + unitsPerOne * 10 ^ exponent.toNat) :
    x.readsBack digits exponent = true := by
  have hpos : 0 < unitsPerOne * 10 ^ exponent.toNat :=
    Nat.mul_pos unitsPerOne_pos (Nat.pow_pos (by decide))
  have hunits : digits * 10 ^ exponent.toNat * unitsPerOne =
      digits * (unitsPerOne * 10 ^ exponent.toNat) := by ring
  rw [readsBack_iff, ofDecimal?_eq_ofRatio?, ofRatio?, hunits]
  generalize digits * (unitsPerOne * 10 ^ exponent.toNat) = near at hlow hhigh ⊢
  generalize unitsPerOne * 10 ^ exponent.toNat = step at hfine hlow hhigh hpos
  exact ofUnits?_of_near x false (by omega) (by omega)

private theorem nearestAt?_isSome {exponent : Int}
    (hfine : 10 ^ 16 * (unitsPerOne * 10 ^ exponent.toNat) ≤
      x.magnitude * 10 ^ (-exponent).toNat) :
    (x.nearestAt? exponent).isSome = true := by
  obtain ⟨n, hn⟩ : ∃ n, x.magnitude * 10 ^ (-exponent).toNat = n := ⟨_, rfl⟩
  obtain ⟨d, hd⟩ : ∃ d, unitsPerOne * 10 ^ exponent.toNat = d := ⟨_, rfl⟩
  have hpos : 0 < d := hd ▸ Nat.mul_pos unitsPerOne_pos (Nat.pow_pos (by decide))
  have hsplit : d * (n / d) + n % d = n := Nat.div_add_mod n d
  have hmod : n % d < d := Nat.mod_lt n hpos
  have hmul : n / d * d = d * (n / d) := Nat.mul_comm _ _
  have hnext : (n / d + 1) * d = d * (n / d) + d := by rw [Nat.add_one_mul, hmul]
  have hfits : x.readsBack (n / d) exponent = true ∨ x.readsBack (n / d + 1) exponent = true := by
    rcases Nat.le_total (2 * (n % d)) d with hhalf | hhalf
    · exact .inl (readsBack_of_fine hfine (by rw [hn, hd]; omega) (by rw [hn, hd]; omega))
    · exact .inr (readsBack_of_fine hfine (by rw [hn, hd]; omega) (by rw [hn, hd]; omega))
  simp only [nearestAt?, hn, hd]
  split
  · rfl
  · rename_i hlow
    split
    · rfl
    · rename_i hhigh
      rcases hfits with hfits | hfits
      · exact absurd ⟨hfits, .inl hhigh⟩ hlow
      · exact absurd hfits hhigh

private theorem readsBack_of_nearestAt? {exponent : Int} {d : Decimal}
    (h : x.nearestAt? exponent = some d) : x.readsBack d.digits d.exponent = true := by
  unfold nearestAt? at h
  dsimp only at h
  split at h
  · rename_i hlow
    cases h
    exact hlow.1
  · split at h
    · rename_i hhigh
      cases h
      exact hhigh
    · cases h

private theorem readsBack_shortestFrom (fuel : Nat) (exponent : Int)
    (h : (x.nearestAt? (exponent - fuel)).isSome = true) :
    x.readsBack (x.shortestFrom (fuel + 1) exponent).digits
      (x.shortestFrom (fuel + 1) exponent).exponent = true := by
  induction fuel generalizing exponent with
  | zero =>
    rw [Int.natCast_zero, Int.sub_zero] at h
    obtain ⟨d, hd⟩ := Option.isSome_iff_exists.mp h
    rw [shortestFrom, hd]
    exact readsBack_of_nearestAt? hd
  | succ fuel ih =>
    rw [shortestFrom]
    split
    · rename_i d hd
      exact readsBack_of_nearestAt? hd
    · refine ih (exponent - 1) ?_
      rwa [show exponent - 1 - (fuel : Int) = exponent - (fuel + 1 : Nat) by omega]

private theorem fine_leadingExponent (hx : 0 < x.magnitude) :
    10 ^ 16 * (unitsPerOne * 10 ^ (x.leadingExponent - 16).toNat) ≤
      x.magnitude * 10 ^ (-(x.leadingExponent - 16)).toNat := by
  have hten (k : Nat) : 0 < 10 ^ k := Nat.pow_pos (by decide)
  unfold leadingExponent
  split
  · rename_i hlarge
    obtain ⟨e, he⟩ : ∃ e, (Nat.toDigits 10 (x.magnitude / unitsPerOne)).length = e + 1 :=
      Nat.exists_eq_add_one.mpr Nat.length_toDigits_pos
    have hdigit : 10 ^ e * unitsPerOne ≤ x.magnitude :=
      (Nat.le_div_iff_mul_le unitsPerOne_pos).mp
        (ten_pow_le_of_length (Nat.div_pos hlarge unitsPerOne_pos) he)
    rw [he, Nat.add_sub_cancel]
    rcases Nat.le_total 16 e with hmany | hfew
    · obtain ⟨k, rfl⟩ := Nat.exists_eq_add_of_le hmany
      rw [show ((16 + k : Nat) - 16 : Int).toNat = k by omega,
        show (-((16 + k : Nat) - 16 : Int)).toNat = 0 by omega, Nat.pow_zero, Nat.mul_one]
      calc 10 ^ 16 * (unitsPerOne * 10 ^ k) = 10 ^ (16 + k) * unitsPerOne := by
            rw [Nat.pow_add]; ring
        _ ≤ x.magnitude := hdigit
    · obtain ⟨k, hk⟩ := Nat.exists_eq_add_of_le hfew
      rw [show ((e : Nat) - 16 : Int).toNat = 0 by omega,
        show (-((e : Nat) - 16 : Int)).toNat = k by omega, Nat.pow_zero, Nat.mul_one, hk,
        Nat.pow_add]
      calc 10 ^ e * 10 ^ k * unitsPerOne = 10 ^ e * unitsPerOne * 10 ^ k := by ring
        _ ≤ x.magnitude * 10 ^ k := Nat.mul_le_mul_right _ hdigit
  · rename_i hsmall
    obtain ⟨e, he⟩ : ∃ e, (Nat.toDigits 10 ((unitsPerOne - 1) / x.magnitude)).length = e :=
      ⟨_, rfl⟩
    have hbelow : (unitsPerOne - 1) / x.magnitude < 10 ^ e := he ▸ lt_ten_pow_length _
    have hdigit : unitsPerOne ≤ x.magnitude * 10 ^ e := by
      rw [Nat.div_lt_iff_lt_mul hx, Nat.mul_comm] at hbelow
      omega
    rw [he, show (-(e : Int) - 16).toNat = 0 by omega,
      show (-(-(e : Int) - 16)).toNat = e + 16 by omega, Nat.pow_zero, Nat.mul_one, Nat.pow_add]
    calc 10 ^ 16 * unitsPerOne ≤ 10 ^ 16 * (x.magnitude * 10 ^ e) :=
          Nat.mul_le_mul_left _ hdigit
      _ = x.magnitude * (10 ^ e * 10 ^ 16) := by ring

/-- The shortest decimal of a number reads back as the number. -/
theorem ofDecimal?_shortest (hx : 0 < x.magnitude) (negative : Bool) :
    ofDecimal? negative x.shortest.digits x.shortest.exponent = some (x.withSign negative) := by
  have hfound := readsBack_shortestFrom 16 x.leadingExponent
    (nearestAt?_isSome (fine_leadingExponent hx))
  have hplain := readsBack_iff.mp hfound
  rw [← ofDecimal?_congr false (Decimal.value_strip 20 _)] at hplain
  rw [ofDecimal?_eq_ofRatio?] at hplain ⊢
  rw [ofRatio?, ofUnits?_sign]
  rw [ofRatio?] at hplain
  rw [shortest, hplain]
  rfl

end Shortest

end Binary64

end SchemaForm
