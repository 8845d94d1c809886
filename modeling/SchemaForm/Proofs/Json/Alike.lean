import SchemaForm.Proofs.Binary64.Rounding
import SchemaForm.Proofs.Equality

set_option autoImplicit false
set_option relaxedAutoImplicit false

/-!
Tolerant equality as a relation. It is reflexive and symmetric, for objects too. Away from null it
joins strict equality to equality of texts, and strictly equal values have one text, but for zero
and negative zero. There, and nowhere else, it is not transitive.
-/

namespace SchemaForm

namespace Json

/-! ### Reflexivity and symmetry -/

private theorem alike_refl (v : Json) : v.alike v = true := by
  simp [alike, same_refl v]

private theorem same_comm (a b : Json) : a.same b = b.same a := by
  rw [Bool.eq_iff_iff]
  exact ⟨same_symm, same_symm⟩

private theorem sameScalarText_comm (a b : Json) : sameScalarText a b = sameScalarText b a := by
  unfold sameScalarText
  cases scalarText? a <;> cases scalarText? b <;> simp [Bool.beq_comm]

private theorem alike_comm (a b : Json) : a.alike b = b.alike a := by
  rw [alike, alike, same_comm a b, sameScalarText_comm a b, Bool.or_right_comm (same b a)]

private theorem alike?_comm (a b : Option Json) : alike? a b = alike? b a := alike_comm _ _

private theorem alikeObjects_refl (v : Json) :
    v.alikeObjects v = true := alikeObjects_of_same (same_refl v)

private theorem alikeObjects_comm (a b : Json) : a.alikeObjects b = b.alikeObjects a := by
  cases a with
  | object u =>
    cases b with
    | object v =>
      simp only [alikeObjects, List.all_append, fun key =>
        alike?_comm (Dictionary.get? u key) (Dictionary.get? v key)]
      exact Bool.and_comm _ _
    | _ => exact alike_comm _ _
  | _ => cases b <;> exact alike_comm _ _

/-! ### Transitivity -/

/-- Zero as a number with point or exponent, of either sign. -/
def IsRealZero (v : Json) : Prop := ∃ negative, v = .number (.real (.zero negative))

/-- Zero and negative zero. -/
def OppositeZeros (a b : Json) : Prop :=
  ∃ negative, a = .number (.real (.zero negative)) ∧ b = .number (.real (.zero !negative))

variable {a b c : Json}

private theorem OppositeZeros.symm (h : OppositeZeros a b) : OppositeZeros b a := by
  obtain ⟨negative, rfl, rfl⟩ := h
  exact ⟨!negative, rfl, by rw [Bool.not_not]⟩

private theorem OppositeZeros.isRealZero (h : OppositeZeros a b) : IsRealZero a ∧ IsRealZero b := by
  obtain ⟨negative, rfl, rfl⟩ := h
  exact ⟨⟨_, rfl⟩, ⟨_, rfl⟩⟩

private theorem OppositeZeros.scalarText?_ne (h : OppositeZeros a b) :
    scalarText? a ≠ scalarText? b := by
  obtain ⟨negative, rfl, rfl⟩ := h
  cases negative <;> decide +kernel

private theorem OppositeZeros.same (h : OppositeZeros a b) : a.same b = true := by
  obtain ⟨negative, rfl, rfl⟩ := h
  cases negative <;> rfl

private theorem scalarText?_eq_of_same (h : a.same b = true) :
    scalarText? a = scalarText? b ∨ OppositeZeros a b := by
  cases a <;> cases b <;> first
    | exact .inl rfl
    | cases h
    | skip
  case bool.bool p q => exact .inl (by rw [show p = q by simpa [Json.same] using h])
  case text.text s t => exact .inl (by rw [show s = t by simpa [Json.same] using h])
  case number.number m n =>
    cases m <;> cases n <;> first
      | cases h
      | skip
    case int.int i j =>
      exact .inl (by rw [show i = j by simpa [Json.same, Number.same] using h])
    case real.real x y =>
      have hunits : x.units = y.units := by
        simpa [Json.same, Number.same, Binary64.same] using h
      rcases Nat.eq_zero_or_pos x.magnitude with hx | hx
      · have hy : y.magnitude = 0 := by
          unfold Binary64.units at hunits
          split at hunits <;> split at hunits <;> omega
        rw [Binary64.eq_zero_of_magnitude hx, Binary64.eq_zero_of_magnitude hy]
        by_cases hsign : x.negative = y.negative
        · exact .inl (by rw [hsign])
        · refine .inr ⟨x.negative, rfl, ?_⟩
          rw [Bool.eq_not_of_ne (Ne.symm hsign)]
      · exact .inl (by rw [Binary64.eq_of_units_eq hunits hx.ne'])

private theorem sameScalarText_iff :
    sameScalarText a b = true ↔ scalarText? a = scalarText? b ∧ (scalarText? a).isSome = true := by
  unfold sameScalarText
  cases scalarText? a <;> cases scalarText? b <;> simp

private theorem alike_iff (ha : a ≠ .null) (hb : b ≠ .null) :
    a.alike b = true ↔ a.same b = true ∨ sameScalarText a b = true := by
  have hleft : nullMatchesBlank a b = false := by cases a <;> simp_all [nullMatchesBlank]
  have hright : nullMatchesBlank b a = false := by cases b <;> simp_all [nullMatchesBlank]
  simp [alike, hleft, hright]

theorem alike_iff_of_scalar (ha : (scalarText? a).isSome = true) (hb : b ≠ .null) :
    a.alike b = true ↔ scalarText? a = scalarText? b ∨ OppositeZeros a b := by
  have hnull : a ≠ .null := by
    rintro rfl
    cases ha
  rw [alike_iff hnull hb, sameScalarText_iff]
  constructor
  · rintro (hsame | htext)
    · exact scalarText?_eq_of_same hsame
    · exact .inl htext.1
  · rintro (htext | hzeros)
    · exact .inr ⟨htext, ha⟩
    · exact .inl hzeros.same

private theorem alike_of_containers (ha : scalarText? a = none) (hnull : a ≠ .null)
    (hb : b ≠ .null) :
    a.alike b = true ↔ a.same b = true := by
  rw [alike_iff hnull hb, sameScalarText_iff, ha]
  simp

private theorem isSome_scalarText?_of_alike (ha : a ≠ .null) (hb : b ≠ .null)
    (h : a.alike b = true) :
    (scalarText? a).isSome = (scalarText? b).isSome := by
  rw [alike_iff ha hb, sameScalarText_iff] at h
  rcases h with hsame | htext
  · rcases scalarText?_eq_of_same hsame with htext | ⟨negative, rfl, rfl⟩
    · rw [htext]
    · rfl
  · rw [htext.1]

/-- Two links of which the first joins zero to negative zero make a chain just if the second leads
to one of them again. -/
private theorem alike_of_oppositeZeros (hab : OppositeZeros a b) (hc : c ≠ .null)
    (hbc : b.alike c = true) :
    a.alike c = true ↔ IsRealZero c := by
  obtain ⟨negative, rfl, rfl⟩ := hab
  constructor
  · intro hac
    rw [alike_iff_of_scalar rfl hc] at hac hbc
    rcases hac with htext | hzeros
    · rcases hbc with htext' | hzeros
      · exact absurd (htext.trans htext'.symm)
          (OppositeZeros.scalarText?_ne ⟨negative, rfl, rfl⟩)
      · exact hzeros.isRealZero.2
    · exact hzeros.isRealZero.2
  · rintro ⟨negative', rfl⟩
    have hsame : Json.same (.number (.real (.zero negative))) (.number (.real (.zero negative'))) =
        true := by cases negative <;> cases negative' <;> rfl
    simp [alike, hsame]

/-- Tolerant equality is reflexive and symmetric, and away from null it is transitive with one
exception: zero and negative zero are strictly equal and have different texts, so what has the text
of the one is not tolerantly equal to the other. -/
theorem alike_equivalence_iff (a b c : Json) :
    a.alike a = true ∧ (a.alike b = true → b.alike a = true) ∧
    a.alikeObjects a = true ∧ (a.alikeObjects b = true → b.alikeObjects a = true) ∧
    (a ≠ .null → b ≠ .null → c ≠ .null → a.alike b = true → b.alike c = true →
      (a.alike c = true ↔
        ¬ (OppositeZeros a b ∧ ¬ IsRealZero c) ∧ ¬ (OppositeZeros b c ∧ ¬ IsRealZero a))) := by
  refine ⟨alike_refl a, fun h => alike_comm b a ▸ h, alikeObjects_refl a,
    fun h => alikeObjects_comm b a ▸ h, fun ha hb hc hab hbc => ?_⟩
  have hkind := isSome_scalarText?_of_alike ha hb hab
  by_cases hfirst : OppositeZeros a b
  · have hzero := hfirst.isRealZero.1
    simp [alike_of_oppositeZeros hfirst hc hbc, hfirst, hzero]
  by_cases hsecond : OppositeZeros b c
  · have hzero := hsecond.isRealZero.2
    rw [alike_comm] at hab ⊢
    simp [alike_of_oppositeZeros hsecond.symm ha hab, hsecond, hzero]
  refine iff_of_true ?_ ⟨fun h => hfirst h.1, fun h => hsecond h.1⟩
  -- Neither link joins the two zeros, so both are equalities of texts, or both are strict.
  cases htext : (scalarText? a).isSome with
  | true =>
    rw [alike_iff_of_scalar htext hb] at hab
    rw [alike_iff_of_scalar (hkind ▸ htext) hc] at hbc
    rw [alike_iff_of_scalar htext hc]
    exact .inl ((hab.resolve_right hfirst).trans (hbc.resolve_right hsecond))
  | false =>
    have hnone : scalarText? a = none := by simpa using htext
    have hnone' : scalarText? b = none := by simpa [htext] using hkind.symm
    rw [alike_of_containers hnone ha hb] at hab
    rw [alike_of_containers hnone' hb hc] at hbc
    rw [alike_of_containers hnone ha hc]
    exact same_trans hab hbc

private def five : Binary64 := ⟨false, 5 * 2 ^ 50, 1024, by decide, by decide, by decide⟩

/-- Five as a text, as a number with a point and as an integer. -/
theorem alike_equivalence_iff_five :
    alike (.text "5") (.number (.real five)) = true ∧
      alike (.number (.real five)) (.number (.int 5)) = true ∧
      alike (.text "5") (.number (.int 5)) = true := by
  have hleft : alike (.text "5") (.number (.real five)) = true := by decide +kernel
  have hright : alike (.number (.real five)) (.number (.int 5)) = true := by decide +kernel
  refine ⟨hleft, hright, ?_⟩
  obtain ⟨-, -, -, -, htransitive⟩ :=
    alike_equivalence_iff (.text "5") (.number (.real five)) (.number (.int 5))
  refine (htransitive nofun nofun nofun hleft hright).mpr ⟨?_, ?_⟩
  · rintro ⟨⟨_, hzero, -⟩, -⟩
    cases hzero
  · rintro ⟨⟨_, -, hzero⟩, -⟩
    cases hzero

/-- The integer zero is tolerantly equal to zero with a point, which is tolerantly equal to negative
zero. Yet the integer zero is not tolerantly equal to negative zero. -/
theorem alike_not_transitive_at_zero :
    alike (.number (.int 0)) (.number (.real (.zero false))) = true ∧
      alike (.number (.real (.zero false))) (.number (.real (.zero true))) = true ∧
      alike (.number (.int 0)) (.number (.real (.zero true))) = false := by
  decide +kernel

end Json

end SchemaForm
