import Mathlib.Data.List.TakeWhile
import SchemaForm.Proofs.Json.Alike
import SchemaForm.Proofs.Json.NumberText
import SchemaForm.Validation

set_option autoImplicit false
set_option relaxedAutoImplicit false

/-!
Validation of scalars that are tolerantly equal. A scalar is read as its text is, so what counts as
not given, as a number and as out of bounds is the same for both. Only the check for an integer
reads less from texts than from numbers: a text must lie in the signed 64-bit range.
-/

namespace SchemaForm

namespace Check

open Json (scalarText? OppositeZeros)
open Numeral (InSigned64 signed? real?)

variable {v w : Option Json} {a b : Json} {s : String}

/-! ### What validation reads -/

/-- Two values mean the same: both or neither is empty, and the numbers meant are of one value. -/
structure MeansSame (v w : Option Json) : Prop where
  empty : isEmpty v = isEmpty w
  units : (number? v).map Binary64.units = (number? w).map Binary64.units

private theorem MeansSame.symm (h : MeansSame v w) : MeansSame w v := ⟨h.empty.symm, h.units.symm⟩

private theorem MeansSame.trans {u : Option Json} (huv : MeansSame u v) (hvw : MeansSame v w) :
    MeansSame u w := ⟨huv.empty.trans hvw.empty, huv.units.trans hvw.units⟩

theorem number?_plainText (n : Number) : number? (some (.text n.plainText)) = n.toBinary64? := by
  rw [number?.eq_def]
  exact (congrArg real? (Text.trimChars_plainText n)).trans n.real?_plainText

/-- A scalar means what its text means. -/
theorem meansSame_scalarText (h : scalarText? a = some s) :
    MeansSame (some (.text s)) (some a) := by
  cases a with
  | null | array _ | object _ => cases h
  | text t => exact Option.some.inj h ▸ ⟨rfl, rfl⟩
  | bool flag => cases flag <;> cases h <;> exact ⟨by decide, by decide⟩
  | number n =>
    obtain rfl : n.plainText = s := Option.some.inj h
    refine ⟨Text.isBlankText_plainText n, ?_⟩
    rw [number?_plainText, number?]

private theorem meansSame_of_oppositeZeros (h : OppositeZeros a b) :
    MeansSame (some a) (some b) := by
  obtain ⟨negative, rfl, rfl⟩ := h
  cases negative <;> exact ⟨rfl, rfl⟩

private theorem meansSame_of_alike (ha : (scalarText? a).isSome = true)
    (hb : (scalarText? b).isSome = true) (h : a.alike b = true) : MeansSame (some a) (some b) := by
  have hnull : b ≠ .null := by
    rintro rfl
    cases hb
  rcases (Json.alike_iff_of_scalar ha hnull).mp h with htext | hzeros
  · obtain ⟨s, hs⟩ := Option.isSome_iff_exists.mp ha
    exact (meansSame_scalarText hs).symm.trans (meansSame_scalarText (htext ▸ hs))
  · exact meansSame_of_oppositeZeros hzeros

private theorem MeansSame.given? (h : MeansSame v w) (label : String) :
    given? label v = given? label w := by
  rw [Check.given?, h.empty, Check.given?]

private theorem MeansSame.numeric? (h : MeansSame v w) (label : String) :
    numeric? label v = numeric? label w := by
  have hsome : (number? v).isSome = (number? w).isSome := by
    simpa using congrArg Option.isSome h.units
  rw [Check.numeric?, h.empty, hsome, Check.numeric?]

theorem MeansSame.bounds? (h : MeansSame v w) (label : String) (min max : Option Binary64) :
    bounds? label v min max = bounds? label w min max := by
  have hunits := h.units
  unfold Check.bounds?
  cases hv : number? v <;> cases hw : number? w <;> rw [hv, hw] at hunits
  case some.some x y =>
    -- The comparisons with the bounds see the values only.
    have hvalue : x.units = y.units := Option.some.inj hunits
    simp only [Option.bind_some, atLeast?, atMost?, Binary64.less, hvalue]
  all_goals first | rfl | cases hunits

/-! ### Integers -/

private theorem isWhole_eq (n : Number) : isWhole n = n.whole?.isSome := by
  cases n with
  | int i => rfl
  | real x =>
    cases hx : x.isIntegral with
    | true => rw [isWhole, hx, Number.whole?, if_pos hx, Option.isSome_some]
    | false => rw [isWhole, hx, Number.whole?, if_neg (by simp [hx]), Option.isSome_none]

/-- A number without fractional part that lies outside the signed 64-bit range. -/
def IsBeyond (v : Json) : Prop := ∃ n i, v = .number n ∧ n.whole? = some i ∧ ¬ InSigned64 i

private theorem IsBeyond.isInteger (h : IsBeyond a) : isInteger (some a) = true := by
  obtain ⟨n, i, rfl, hwhole, -⟩ := h
  rw [Check.isInteger, isWhole_eq, hwhole, Option.isSome_some]

private theorem IsBeyond.ne_bool {flag : Bool} (h : IsBeyond a)
    (htext : scalarText? a = scalarText? b) : b ≠ .bool flag := by
  rintro rfl
  obtain ⟨n, i, rfl, hwhole, -⟩ := h
  have hletters := n.isSome_whole?_iff.mp (by rw [hwhole, Option.isSome_some])
  rw [Option.some.inj htext] at hletters
  cases flag <;> exact (hletters 'e' (by decide)).2 rfl

private theorem isInteger_scalarText (h : scalarText? a = some s) :
    isInteger (some (.text s)) = true ↔ isInteger (some a) = true ∧ ¬ IsBeyond a := by
  have hother (hnumber : ∀ n, a ≠ .number n) : ¬ IsBeyond a := fun ⟨n, _, hn, _⟩ => hnumber n hn
  cases a with
  | null | array _ | object _ => cases h
  | text t => exact Option.some.inj h ▸ (and_iff_left (hother nofun)).symm
  | bool flag => cases flag <;> cases h <;> exact iff_of_false (by decide) (by simp [isInteger])
  | number n =>
    obtain rfl : n.plainText = s := Option.some.inj h
    have hread : isInteger (some (.text n.plainText)) =
        (n.whole?.filter fun i => decide (InSigned64 i)).isSome := by
      rw [← n.signed?_plainText]
      exact congrArg (Option.isSome ∘ signed?) (Text.trimChars_plainText n)
    rw [hread, isInteger, isWhole_eq, IsBeyond]
    cases hwhole : n.whole? <;> simp [hwhole, Option.filter]

private theorem isInteger_of_isEmpty (h : isEmpty v = true) : isInteger v = false := by
  match v with
  | none | some .null | some (.array _) => rfl
  | some (.text s) =>
    have htrim : Text.trimChars s.toList = [] := by
      have hblank : s.toList.dropWhile Text.isBlank = [] := by
        simpa [List.dropWhile_eq_nil_iff, isEmpty, Text.isBlankText] using h
      rw [Text.trimChars, hblank]
      rfl
    rw [isInteger, htrim]
    rfl

private theorem integer?_eq_iff (hempty : isEmpty v = isEmpty w) (label : String) :
    integer? label v = integer? label w ↔ isInteger v = isInteger w := by
  cases hv : isEmpty v with
  | true =>
    rw [integer?, hv, integer?, ← hempty, hv, isInteger_of_isEmpty hv,
      isInteger_of_isEmpty (hempty ▸ hv)]
    simp
  | false =>
    rw [integer?, hv, integer?, ← hempty, hv]
    cases isInteger v <;> cases isInteger w <;> simp

/-- A number without fractional part, outside the signed 64-bit range, and a text. -/
def BeyondAndText (a b : Json) : Prop := IsBeyond a ∧ ∃ s, b = .text s

/-- Of two scalars of one text the first is an integer and the second is none just if the first is a
number beyond the signed 64-bit range and the second is a text. -/
private theorem isInteger_differs_iff (ha : (scalarText? a).isSome = true)
    (htext : scalarText? a = scalarText? b) :
    isInteger (some a) = true ∧ isInteger (some b) = false ↔ BeyondAndText a b := by
  obtain ⟨s, hs⟩ := Option.isSome_iff_exists.mp ha
  have hleft := isInteger_scalarText hs
  have hright := isInteger_scalarText (htext ▸ hs)
  constructor
  · rintro ⟨hinteger, hnone⟩
    have hbeyond : IsBeyond a := by
      by_contra hwithin
      have := (hright.mp (hleft.mpr ⟨hinteger, hwithin⟩)).1
      rw [hnone] at this
      cases this
    refine ⟨hbeyond, ?_⟩
    cases b with
    | null | array _ | object _ => rw [hs] at htext; cases htext
    | bool flag => exact absurd rfl (hbeyond.ne_bool htext)
    | text t => exact ⟨t, rfl⟩
    | number m =>
      -- Two numbers of one text are both written without point and exponent, or neither is.
      obtain ⟨n, i, rfl, hwhole, -⟩ := hbeyond
      have hplain : n.plainText = m.plainText := Option.some.inj htext
      have hsome : m.whole?.isSome = true := by
        rw [m.isSome_whole?_iff, ← hplain, ← n.isSome_whole?_iff, hwhole, Option.isSome_some]
      rw [isInteger, isWhole_eq, hsome] at hnone
      cases hnone
  · rintro ⟨hbeyond, t, rfl⟩
    refine ⟨hbeyond.isInteger, ?_⟩
    obtain rfl : t = s := Option.some.inj (htext.symm.trans hs)
    rw [← Bool.not_eq_true, hleft]
    exact fun h => h.2 hbeyond

private theorem isInteger_eq_iff (ha : (scalarText? a).isSome = true)
    (htext : scalarText? a = scalarText? b) :
    isInteger (some a) = isInteger (some b) ↔ ¬ (BeyondAndText a b ∨ BeyondAndText b a) := by
  rw [← isInteger_differs_iff ha htext, ← isInteger_differs_iff (htext ▸ ha) htext.symm]
  cases isInteger (some a) <;> cases isInteger (some b) <;> simp

/-! ### All checks -/

/-- Tolerantly equal scalars pass the same checks with the same messages, except that a whole number
outside the signed 64-bit range is an integer and its text is none. -/
theorem checks_agree_iff (ha : (scalarText? a).isSome = true) (hb : (scalarText? b).isSome = true)
    (h : a.alike b = true) (label : String) (min max : Option Binary64) :
    given? label (some a) = given? label (some b) ∧
      numeric? label (some a) = numeric? label (some b) ∧
      bounds? label (some a) min max = bounds? label (some b) min max ∧
      (integer? label (some a) = integer? label (some b) ↔
        ¬ (BeyondAndText a b ∨ BeyondAndText b a)) := by
  have hmeans := meansSame_of_alike ha hb h
  refine ⟨hmeans.given? label, hmeans.numeric? label, hmeans.bounds? label min max, ?_⟩
  rw [integer?_eq_iff hmeans.empty label]
  have hnull : b ≠ .null := by
    rintro rfl
    cases hb
  rcases (Json.alike_iff_of_scalar ha hnull).mp h with htext | hzeros
  · exact isInteger_eq_iff ha htext
  · -- Both zeros are integers, and neither is a text.
    obtain ⟨negative, rfl, rfl⟩ := hzeros
    refine iff_of_true (by cases negative <;> decide +kernel) ?_
    rintro (⟨-, s, hs⟩ | ⟨-, s, hs⟩) <;> cases hs

theorem checks_agree_iff_greatest :
    integer? "n" (some (.number (.int 9223372036854775807))) =
      integer? "n" (some (.text "9223372036854775807")) := by
  refine (checks_agree_iff rfl rfl (by decide +kernel) "n" none none).2.2.2.mpr ?_
  rintro (⟨⟨_, i, hn, hwhole, hbeyond⟩, -⟩ | ⟨⟨_, _, hn, -⟩, -⟩)
  · cases hn
    cases hwhole
    exact hbeyond (by decide)
  · cases hn

/-- One more is an integer as a number only, although the two are tolerantly equal. -/
theorem integer_check_disagrees :
    Json.alike (.number (.int 9223372036854775808)) (.text "9223372036854775808") = true ∧
      integer? "n" (some (.number (.int 9223372036854775808))) = none ∧
      integer? "n" (some (.text "9223372036854775808")) = some "'n' must be an integer." := by
  decide +kernel

end Check

end SchemaForm
