import Mathlib.Tactic.Linarith
import Mathlib.Tactic.Ring
import SchemaForm.Binary64.Basic

set_option autoImplicit false
set_option relaxedAutoImplicit false

/-!
Rounding to the nearest binary64 number. It depends on the quotient only, keeps the order, and
leaves a number as it is; moreover it takes all that is nearer to a number than a part in `2 ^ 54`
to that number. Numbers of one magnitude are the same number up to the sign.
-/

namespace SchemaForm

namespace Binary64

/-! ### Rounding to an integer -/

section RoundHalfEven

variable {n m d q : Nat}

theorem roundHalfEven_eq (hlow : 2 * (q * d) < 2 * n + d) (hhigh : 2 * n < 2 * (q * d) + d) :
    roundHalfEven n d = q := by
  have hn : d * (n / d) + n % d = n := Nat.div_add_mod n d
  have hmod : n % d < d := Nat.mod_lt n (by omega)
  unfold roundHalfEven
  dsimp only
  generalize n / d = k at hn ⊢
  generalize n % d = r at hn hmod ⊢
  have hle : 2 * k < 2 * q + 1 :=
    Nat.lt_of_mul_lt_mul_left (a := d) (by linarith [Nat.zero_le r])
  have hge : 2 * q < 2 * k + 3 := Nat.lt_of_mul_lt_mul_left (a := d) (by linarith)
  rcases Nat.eq_or_lt_of_le (show k ≤ q by omega) with rfl | hk
  · have hsmall : 2 * r < d := by linarith
    exact if_neg (by omega)
  · obtain rfl : q = k + 1 := by omega
    have hlarge : d < 2 * r := by linarith
    exact if_pos (.inl hlarge)

private theorem roundHalfEven_le (n d : Nat) : roundHalfEven n d ≤ n / d + 1 := by
  unfold roundHalfEven
  dsimp only
  split <;> omega

private theorem le_roundHalfEven (n d : Nat) : n / d ≤ roundHalfEven n d := by
  unfold roundHalfEven
  dsimp only
  split <;> omega

private theorem roundHalfEven_mono (h : n ≤ m) : roundHalfEven n d ≤ roundHalfEven m d := by
  have hdiv : n / d ≤ m / d := Nat.div_le_div_right h
  rcases Nat.eq_or_lt_of_le hdiv with hdiv | hdiv
  · have hn : d * (n / d) + n % d = n := Nat.div_add_mod n d
    have hm : d * (m / d) + m % d = m := Nat.div_add_mod m d
    rw [← hdiv] at hm
    have hmod : n % d ≤ m % d := by omega
    unfold roundHalfEven
    dsimp only
    rw [← hdiv]
    split
    · rename_i hup
      exact (if_pos (by omega)).ge
    · split <;> omega
  · calc roundHalfEven n d ≤ n / d + 1 := roundHalfEven_le n d
      _ ≤ m / d := hdiv
      _ ≤ roundHalfEven m d := le_roundHalfEven m d

private theorem roundHalfEven_mul_right (n d : Nat) {c : Nat} (hc : 0 < c) :
    roundHalfEven (n * c) (d * c) = roundHalfEven n d := by
  have hlt : d * c < 2 * (n % d * c) ↔ d < 2 * (n % d) := by
    rw [← Nat.mul_assoc, Nat.mul_lt_mul_right hc]
  have heq : 2 * (n % d * c) = d * c ↔ 2 * (n % d) = d := by
    rw [← Nat.mul_assoc, Nat.mul_left_inj (Nat.pos_iff_ne_zero.mp hc)]
  simp only [roundHalfEven, Nat.mul_div_mul_right n d hc, Nat.mul_mod_mul_right, hlt, heq]

end RoundHalfEven

/-! ### Rounding to a number -/

/-- The power of two that a quotient is rounded to a multiple of. -/
def roundingScale (n d : Nat) : Nat := Nat.log2 (n / d) - 52

/-- The significand that a quotient is rounded to. It may exceed the greatest one by one. -/
def roundedSignificand (n d : Nat) : Nat := roundHalfEven n (d * 2 ^ roundingScale n d)

/-- The units of the number that a quotient is rounded to. -/
def nearestUnits (n d : Nat) : Nat := roundedSignificand n d * 2 ^ roundingScale n d

section Quotient

variable {n m d : Nat} {negative : Bool} {x y : Binary64}

private theorem quotient_lt_iff (hd : 0 < d) (s k : Nat) :
    n / d < 2 ^ (s + k) ↔ n < 2 ^ k * (d * 2 ^ s) := by
  have hpow : 2 ^ (s + k) * d = 2 ^ k * (d * 2 ^ s) := by ring
  rw [Nat.div_lt_iff_lt_mul hd, hpow]

private theorem le_quotient_iff (hd : 0 < d) (s k : Nat) :
    2 ^ (s + k) ≤ n / d ↔ 2 ^ k * (d * 2 ^ s) ≤ n := by
  rw [← Nat.not_lt, quotient_lt_iff hd, Nat.not_lt]

theorem quotient_lt (n d : Nat) : n / d < 2 ^ (roundingScale n d + 53) := by
  have hlog : n / d < 2 ^ (Nat.log2 (n / d) + 1) := Nat.lt_log2_self
  exact hlog.trans_le (Nat.pow_le_pow_right (by decide) (by unfold roundingScale; omega))

private theorem le_quotient (h : roundingScale n d ≠ 0) : 2 ^ (roundingScale n d + 52) ≤ n / d := by
  have hlog : roundingScale n d + 52 = Nat.log2 (n / d) := by unfold roundingScale at h ⊢; omega
  have hne : n / d ≠ 0 := by
    intro hzero
    rw [roundingScale, hzero] at h
    exact h rfl
  rw [hlog]
  exact Nat.log2_self_le hne

theorem roundingScale_le {s : Nat} (h : n / d < 2 ^ (s + 53)) : roundingScale n d ≤ s := by
  unfold roundingScale
  by_cases hzero : n / d = 0
  · simp [hzero]
  · have hlog := (Nat.log2_lt hzero).mpr h
    omega

private theorem roundingScale_eq {s : Nat} (hlt : n / d < 2 ^ (s + 53))
    (hle : s = 0 ∨ 2 ^ (s + 52) ≤ n / d) : roundingScale n d = s := by
  have hupper := roundingScale_le hlt
  rcases hle with rfl | hle
  · omega
  · have hne : n / d ≠ 0 := by
      have := Nat.two_pow_pos (s + 52)
      omega
    have hlog := (Nat.le_log2 hne).mpr hle
    unfold roundingScale at hupper ⊢
    omega

private theorem roundedSignificand_le (n d : Nat) : roundedSignificand n d ≤ 2 ^ 53 := by
  have hquotient : n / (d * 2 ^ roundingScale n d) < 2 ^ 53 := by
    rw [← Nat.div_div_eq_div_mul, Nat.div_lt_iff_lt_mul (Nat.two_pow_pos _), ← Nat.pow_add,
      Nat.add_comm 53]
    exact quotient_lt n d
  exact (roundHalfEven_le _ _).trans hquotient

private theorem le_roundedSignificand (h : roundingScale n d ≠ 0) :
    2 ^ 52 ≤ roundedSignificand n d := by
  have hquotient : 2 ^ 52 ≤ n / (d * 2 ^ roundingScale n d) := by
    rw [← Nat.div_div_eq_div_mul, Nat.le_div_iff_mul_le (Nat.two_pow_pos _), ← Nat.pow_add,
      Nat.add_comm 52]
    exact le_quotient h
  exact hquotient.trans (le_roundHalfEven _ _)

theorem ofUnits?_eq (negative : Bool) (n d : Nat) : ofUnits? negative n d =
    if roundedSignificand n d < 2 ^ 53 then
      ofParts? negative (roundedSignificand n d) (roundingScale n d)
    else
      ofParts? negative (2 ^ 52) (roundingScale n d + 1) := rfl

private theorem ofParts?_eq_some {significand scale : Nat} :
    ofParts? negative significand scale = some x ↔
      x.negative = negative ∧ x.significand = significand ∧ x.scale = scale := by
  unfold ofParts?
  split
  · rename_i hparts
    rw [Option.some.injEq]
    constructor
    · rintro rfl
      exact ⟨rfl, rfl, rfl⟩
    · obtain ⟨_, _, _, _, _, _⟩ := x
      rintro ⟨rfl, rfl, rfl⟩
      rfl
  · rename_i hparts
    constructor
    · intro h
      cases h
    · rintro ⟨-, rfl, rfl⟩
      exact absurd ⟨x.significand_lt, x.scale_le, x.canonical⟩ hparts

theorem parts_of_ofUnits? (h : ofUnits? negative n d = some x) :
    x.negative = negative ∧ x.magnitude = nearestUnits n d := by
  rw [ofUnits?_eq] at h
  split at h
  · obtain ⟨hsign, hsignificand, hscale⟩ := ofParts?_eq_some.mp h
    exact ⟨hsign, by rw [magnitude, hsignificand, hscale, nearestUnits]⟩
  · rename_i hfull
    obtain ⟨hsign, hsignificand, hscale⟩ := ofParts?_eq_some.mp h
    have hmax : roundedSignificand n d = 2 ^ 53 :=
      Nat.le_antisymm (roundedSignificand_le n d) (Nat.le_of_not_lt hfull)
    refine ⟨hsign, ?_⟩
    rw [magnitude, hsignificand, hscale, nearestUnits, hmax, Nat.pow_succ]
    omega

theorem exists_ofUnits? (negative : Bool) (hscale : roundingScale n d ≤ 2044) :
    ∃ x, ofUnits? negative n d = some x := by
  rw [ofUnits?_eq]
  split
  · rename_i hsmall
    have hcanonical : roundingScale n d = 0 ∨ 2 ^ 52 ≤ roundedSignificand n d :=
      or_iff_not_imp_left.mpr le_roundedSignificand
    exact ⟨_, dif_pos ⟨hsmall, by omega, hcanonical⟩⟩
  · exact ⟨_, dif_pos ⟨by decide, by omega, .inr le_rfl⟩⟩

private theorem ofUnits?_mul_right (negative : Bool) (n d : Nat) {c : Nat} (hc : 0 < c) :
    ofUnits? negative (n * c) (d * c) = ofUnits? negative n d := by
  have hscale : roundingScale (n * c) (d * c) = roundingScale n d := by
    rw [roundingScale, Nat.mul_div_mul_right n d hc, roundingScale]
  have hsignificand : roundedSignificand (n * c) (d * c) = roundedSignificand n d := by
    rw [roundedSignificand, hscale, Nat.mul_right_comm, roundHalfEven_mul_right _ _ hc,
      roundedSignificand]
  rw [ofUnits?_eq, ofUnits?_eq, hscale, hsignificand]

theorem ofUnits?_congr {n' d' : Nat} (negative : Bool) (hd : 0 < d) (hd' : 0 < d')
    (h : n * d' = n' * d) : ofUnits? negative n d = ofUnits? negative n' d' := by
  rw [← ofUnits?_mul_right negative n d hd', ← ofUnits?_mul_right negative n' d' hd, h,
    Nat.mul_comm d d']

theorem nearestUnits_mono (h : n ≤ m) : nearestUnits n d ≤ nearestUnits m d := by
  have hdiv : n / d ≤ m / d := Nat.div_le_div_right h
  have hscale : roundingScale n d ≤ roundingScale m d := by
    by_contra hless
    have hn := le_quotient (n := n) (d := d) (by omega)
    have hm := quotient_lt m d
    have hpow : 2 ^ (roundingScale m d + 53) ≤ 2 ^ (roundingScale n d + 52) :=
      Nat.pow_le_pow_right (by decide) (by omega)
    omega
  rcases Nat.eq_or_lt_of_le hscale with hscale | hscale
  · unfold nearestUnits roundedSignificand
    rw [hscale]
    exact Nat.mul_le_mul_right _ (roundHalfEven_mono h)
  · -- A power of two lies between the two.
    calc nearestUnits n d ≤ 2 ^ 53 * 2 ^ roundingScale n d :=
          Nat.mul_le_mul_right _ (roundedSignificand_le n d)
      _ = 2 ^ (53 + roundingScale n d) := (Nat.pow_add 2 53 _).symm
      _ ≤ 2 ^ (52 + roundingScale m d) := Nat.pow_le_pow_right (by decide) (by omega)
      _ = 2 ^ 52 * 2 ^ roundingScale m d := Nat.pow_add 2 52 _
      _ ≤ nearestUnits m d := Nat.mul_le_mul_right _ (le_roundedSignificand (by omega))

end Quotient

/-! ### Numbers stay as they are -/

/-- The number with another sign. -/
def withSign (x : Binary64) (negative : Bool) : Binary64 := { x with negative := negative }

@[simp] theorem magnitude_withSign (x : Binary64) (negative : Bool) :
    (x.withSign negative).magnitude = x.magnitude := rfl

theorem withSign_self (x : Binary64) : x.withSign x.negative = x := rfl

/-- Whatever differs from a number by less than a part in `2 ^ 54` of it is rounded to the number.
At a power of two the numbers below lie twice as close as those above, hence the two cases. -/
theorem ofUnits?_of_near {n d : Nat} (x : Binary64) (negative : Bool)
    (hlow : 2 ^ 54 * (x.magnitude * d) < 2 ^ 54 * n + x.magnitude * d)
    (hhigh : 2 ^ 54 * n < 2 ^ 54 * (x.magnitude * d) + x.magnitude * d) :
    ofUnits? negative n d = some (x.withSign negative) := by
  have hd : 0 < d := by
    by_contra hzero
    obtain rfl : d = 0 := by omega
    omega
  have hsignificand := x.significand_lt
  obtain ⟨g, hg⟩ : ∃ g, d * 2 ^ x.scale = g := ⟨_, rfl⟩
  have hgpos : 0 < g := hg ▸ Nat.mul_pos hd (Nat.two_pow_pos _)
  have hunits : x.magnitude * d = x.significand * g := by rw [magnitude, ← hg]; ring
  rw [hunits] at hlow hhigh
  have hgap : x.significand * g < 2 ^ 53 * g := Nat.mul_lt_mul_of_pos_right hsignificand hgpos
  have hupper : n / d < 2 ^ (x.scale + 53) := by
    have htop : (x.significand + 1) * g ≤ 2 ^ 53 * g := Nat.mul_le_mul_right g hsignificand
    rw [quotient_lt_iff hd, hg]
    rw [Nat.add_one_mul] at htop
    omega
  rw [ofUnits?_eq]
  by_cases hlower : x.scale = 0 ∨ 2 ^ (x.scale + 52) ≤ n / d
  · have hscale : roundingScale n d = x.scale := roundingScale_eq hupper hlower
    have hround : roundedSignificand n d = x.significand := by
      rw [roundedSignificand, hscale, hg]
      exact roundHalfEven_eq (by omega) (by omega)
    rw [hround, hscale, if_pos hsignificand]
    exact ofParts?_eq_some.mpr ⟨rfl, rfl, rfl⟩
  · rw [not_or, Nat.not_le] at hlower
    obtain ⟨hne, hless⟩ := hlower
    obtain ⟨e, he⟩ := Nat.exists_eq_succ_of_ne_zero hne
    have hcanonical : 2 ^ 52 ≤ x.significand := x.canonical.resolve_left hne
    obtain ⟨h, hh⟩ : ∃ h, d * 2 ^ e = h := ⟨_, rfl⟩
    have htwice : g = 2 * h := by rw [← hg, ← hh, he, Nat.pow_succ]; ring
    have hbelow : n < 2 ^ 52 * g := by rwa [quotient_lt_iff hd, hg] at hless
    have hpower : x.significand = 2 ^ 52 := by
      have hle : x.significand * g < (2 ^ 52 + 1) * g := by omega
      have := Nat.lt_of_mul_lt_mul_right hle
      omega
    rw [hpower] at hlow hhigh
    have hscale : roundingScale n d = e := by
      refine roundingScale_eq ?_ (.inr ?_)
      · rw [quotient_lt_iff hd, hh]
        omega
      · rw [le_quotient_iff hd, hh]
        omega
    have hround : roundedSignificand n d = 2 ^ 53 := by
      rw [roundedSignificand, hscale, hh]
      exact roundHalfEven_eq (by omega) (by omega)
    rw [hround, hscale, if_neg (by omega)]
    exact ofParts?_eq_some.mpr ⟨rfl, hpower, he⟩

theorem magnitude_eq_zero_iff {x : Binary64} : x.magnitude = 0 ↔ x.significand = 0 := by
  rw [magnitude, Nat.mul_eq_zero, or_iff_left (Nat.pos_iff_ne_zero.mp (Nat.two_pow_pos x.scale))]

theorem eq_zero_of_magnitude {x : Binary64} (h : x.magnitude = 0) : x = zero x.negative := by
  have hsignificand : x.significand = 0 := magnitude_eq_zero_iff.mp h
  have hscale : x.scale = 0 := x.canonical.resolve_right (by omega)
  obtain ⟨_, _, _, _, _, _⟩ := x
  subst hsignificand hscale
  rfl

theorem ofUnits?_zero (negative : Bool) {d : Nat} (hd : 0 < d) :
    ofUnits? negative 0 d = some (zero negative) := by
  have hscale : roundingScale 0 d = 0 := by simp [roundingScale]
  have hround : roundedSignificand 0 d = 0 := by
    rw [roundedSignificand, hscale]
    exact roundHalfEven_eq (by omega) (by omega)
  rw [ofUnits?_eq, hround, hscale]
  rfl

theorem ofUnits?_magnitude (x : Binary64) (negative : Bool) {c : Nat} (hc : 0 < c) :
    ofUnits? negative (x.magnitude * c) c = some (x.withSign negative) := by
  rcases Nat.eq_zero_or_pos x.magnitude with hzero | hpos
  · rw [hzero, Nat.zero_mul, ofUnits?_zero negative hc, eq_zero_of_magnitude hzero]
    rfl
  · have hunits : 0 < x.magnitude * c := Nat.mul_pos hpos hc
    exact ofUnits?_of_near x negative (by omega) (by omega)

theorem nearestUnits_magnitude (x : Binary64) : nearestUnits x.magnitude 1 = x.magnitude := by
  have hself := ofUnits?_magnitude x x.negative Nat.one_pos
  rw [Nat.mul_one] at hself
  exact (parts_of_ofUnits? hself).2.symm

theorem eq_of_magnitude_eq {x y : Binary64} (hsign : x.negative = y.negative)
    (h : x.magnitude = y.magnitude) : x = y := by
  have hrounded : some (x.withSign y.negative) = some (y.withSign y.negative) := by
    rw [← ofUnits?_magnitude x _ Nat.one_pos, h, ofUnits?_magnitude y _ Nat.one_pos]
  calc x = x.withSign y.negative := by rw [← hsign, withSign_self]
    _ = y.withSign y.negative := Option.some.inj hrounded
    _ = y := y.withSign_self

/-- Numbers of one value are one number, but for the two zeros. -/
theorem eq_of_units_eq {x y : Binary64} (h : x.units = y.units) (hzero : x.magnitude ≠ 0) :
    x = y := by
  unfold units at h
  have hsign : x.negative = y.negative := by
    cases hx : x.negative <;> cases hy : y.negative <;> simp only [hx, hy, if_true,
      Bool.false_eq_true, if_false] at h <;> first | rfl | omega
  rw [hsign] at h
  refine eq_of_magnitude_eq hsign ?_
  split at h <;> omega

end Binary64

end SchemaForm
