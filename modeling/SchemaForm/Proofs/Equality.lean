import Mathlib.Data.List.Forall2
import SchemaForm.Json.Equality
import SchemaForm.Proofs.Dictionary

set_option autoImplicit false
set_option relaxedAutoImplicit false

/-!
Strict and tolerant equality. Strict equality is an equivalence, and strictly equal values have
strictly equal members and items. Values that are tolerantly equal are strictly equal unless
neither of them is an array or an object, so they never differ in the rows they hold.
-/

namespace SchemaForm

namespace Number

private theorem same_refl (n : Number) : n.same n = true := by
  cases n <;> simp [same, Binary64.same]

private theorem same_symm {m n : Number} (h : m.same n = true) : n.same m = true := by
  cases m <;> cases n <;> simp_all [same, Binary64.same]

private theorem isZero_eq_of_same {m n : Number} (h : m.same n = true) : m.isZero = n.isZero := by
  have hunits (x : Binary64) : x.isZero = (x.units == 0) := by
    have hpos : 0 < 2 ^ x.scale := Nat.two_pow_pos x.scale
    have hmagnitude : x.magnitude = 0 ↔ x.significand = 0 := by
      rw [Binary64.magnitude, Nat.mul_eq_zero, or_iff_left (Nat.pos_iff_ne_zero.mp hpos)]
    unfold Binary64.isZero Binary64.units
    split <;> simp [hmagnitude]
  cases m with
  | int i =>
    cases n with
    | int j =>
      have hij : i = j := by simpa [same] using h
      rw [hij]
    | real y => cases h
  | real x =>
    cases n with
    | int j => cases h
    | real y =>
      have hxy : x.units = y.units := by simpa [same, Binary64.same] using h
      simp only [isZero, hunits, hxy]

private theorem same_trans {l m n : Number} (hlm : l.same m = true) (hmn : m.same n = true) :
    l.same n = true := by
  cases l <;> cases m <;> cases n <;> simp_all [same, Binary64.same]

end Number

namespace Json

mutual

/-- Every value strictly equals itself: there is no number that differs from itself. -/
theorem same_refl : (v : Json) → v.same v = true
  | .null => rfl
  | .bool b => by simp [same]
  | .number n => by simpa [same] using n.same_refl
  | .text s => by simp [same]
  | .array items => by simpa [same] using sameItems_refl items
  | .object members => by simpa [same] using sameMembers_refl members

private theorem sameItems_refl : (items : List Json) → sameItems items items = true
  | [] => rfl
  | v :: rest => by simp [sameItems, same_refl v, sameItems_refl rest]

private theorem sameMembers_refl :
    (members : List (String × Json)) → sameMembers members members = true
  | [] => rfl
  | (_, v) :: rest => by simp [sameMembers, same_refl v, sameMembers_refl rest]

end

mutual

theorem same_symm : {a b : Json} → a.same b = true → b.same a = true
  | .null, .null, _ => rfl
  | .bool _, .bool _, h => by
    simp only [same, beq_iff_eq] at h ⊢
    exact h.symm
  | .number _, .number _, h => by simpa [same] using Number.same_symm (by simpa [same] using h)
  | .text _, .text _, h => by
    simp only [same, beq_iff_eq] at h ⊢
    exact h.symm
  | .array _, .array _, h => by simpa [same] using sameItems_symm (by simpa [same] using h)
  | .object _, .object _, h => by simpa [same] using sameMembers_symm (by simpa [same] using h)

private theorem sameItems_symm : {a b : List Json} → sameItems a b = true → sameItems b a = true
  | [], [], _ => rfl
  | u :: a, v :: b, h => by
    rw [sameItems, Bool.and_eq_true] at h ⊢
    exact ⟨same_symm h.1, sameItems_symm h.2⟩

private theorem sameMembers_symm : {a b : List (String × Json)} → sameMembers a b = true →
    sameMembers b a = true
  | [], [], _ => rfl
  | (k, u) :: a, (l, v) :: b, h => by
    rw [sameMembers, Bool.and_eq_true, Bool.and_eq_true, beq_iff_eq] at h ⊢
    exact ⟨⟨h.1.1.symm, same_symm h.1.2⟩, sameMembers_symm h.2⟩

end

mutual

theorem same_trans : {a b c : Json} → a.same b = true → b.same c = true → a.same c = true
  | .null, .null, .null, _, _ => rfl
  | .bool _, .bool _, .bool _, h, h' => by simp_all [same]
  | .number _, .number _, .number _, h, h' => by
    simpa [same] using Number.same_trans (by simpa [same] using h) (by simpa [same] using h')
  | .text _, .text _, .text _, h, h' => by simp_all [same]
  | .array _, .array _, .array _, h, h' => by
    simpa [same] using sameItems_trans (by simpa [same] using h) (by simpa [same] using h')
  | .object _, .object _, .object _, h, h' => by
    simpa [same] using sameMembers_trans (by simpa [same] using h) (by simpa [same] using h')

private theorem sameItems_trans : {a b c : List Json} → sameItems a b = true →
    sameItems b c = true → sameItems a c = true
  | [], [], [], _, _ => rfl
  | u :: a, v :: b, w :: c, h, h' => by
    rw [sameItems, Bool.and_eq_true] at h h' ⊢
    exact ⟨same_trans h.1 h'.1, sameItems_trans h.2 h'.2⟩

private theorem sameMembers_trans : {a b c : List (String × Json)} → sameMembers a b = true →
    sameMembers b c = true → sameMembers a c = true
  | [], [], [], _, _ => rfl
  | (k, u) :: a, (l, v) :: b, (m, w) :: c, h, h' => by
    rw [sameMembers, Bool.and_eq_true, Bool.and_eq_true, beq_iff_eq] at h h' ⊢
    exact ⟨⟨h.1.1.trans h'.1.1, same_trans h.1.2 h'.1.2⟩, sameMembers_trans h.2 h'.2⟩

end

theorem sameItems_iff {a b : List Json} :
    sameItems a b = true ↔ List.Forall₂ (fun u v => u.same v = true) a b := by
  induction a generalizing b with
  | nil => cases b <;> simp [sameItems]
  | cons u a ih => cases b <;> simp [sameItems, ih]

private theorem get?_sameMembers {a b : List (String × Json)} (h : sameMembers a b = true)
    (key : String) : same? (Dictionary.get? a key) (Dictionary.get? b key) = true := by
  induction a generalizing b with
  | nil =>
    cases b with
    | nil => rfl
    | cons pair b => simp [sameMembers] at h
  | cons pair a ih =>
    obtain ⟨k, u⟩ := pair
    cases b with
    | nil => simp [sameMembers] at h
    | cons pair b =>
      obtain ⟨l, v⟩ := pair
      simp only [sameMembers, Bool.and_eq_true, beq_iff_eq] at h
      obtain ⟨⟨rfl, huv⟩, hrest⟩ := h
      rw [Dictionary.get?_cons, Dictionary.get?_cons]
      split
      · exact huv
      · exact ih hrest

theorem same?_get? {a b : Json} (h : a.same b = true) (key : String) :
    same? (a.get? key) (b.get? key) = true := by
  cases a <;> cases b <;> first
    | rfl
    | exact get?_sameMembers (by simpa [same] using h) key
    | simp [same] at h

private theorem text?_eq_of_same? {a b : Option Json} (h : same? a b = true) :
    a.bind text? = b.bind text? := by
  cases a with
  | none => cases b <;> simp_all [same?]
  | some u =>
    cases b with
    | none => simp [same?] at h
    | some v => cases u <;> cases v <;> simp_all [same?, same, text?]

theorem text?_get?_eq_of_same {a b : Json} (h : a.same b = true) (key : String) :
    (a.get? key).bind text? = (b.get? key).bind text? :=
  text?_eq_of_same? (same?_get? h key)

theorem rows_same {a b : Json} {id : String} (h : same? (a.get? id) (b.get? id) = true) :
    List.Forall₂ (fun u v => u.same v = true) (a.rows id) (b.rows id) := by
  unfold rows
  cases hu : a.get? id with
  | none =>
    cases hv : b.get? id with
    | none => exact .nil
    | some v => simp [hu, hv, same?] at h
  | some u =>
    cases hv : b.get? id with
    | none => simp [hu, hv, same?] at h
    | some v =>
      rw [hu, hv] at h
      cases u <;> cases v <;> simp_all [same?, same, items?]
      exact sameItems_iff.mp h

/-! ### What counts as true -/

private theorem truthy_eq_of_same {a b : Json} (h : a.same b = true) : a.truthy = b.truthy := by
  cases a <;> cases b <;> first
    | rfl
    | cases h
    | skip
  case bool.bool a b =>
    have hab : a = b := by simpa [same] using h
    rw [hab]
  case number.number m n =>
    have hzero := Number.isZero_eq_of_same (show m.same n = true by simpa [same] using h)
    simp only [truthy, hzero]
  case text.text s t =>
    have hst : s = t := by simpa [same] using h
    rw [hst]

theorem same_getD_null {a b : Option Json} (h : same? a b = true) :
    (a.getD .null).same (b.getD .null) = true := by
  cases a <;> cases b <;> first
    | rfl
    | cases h
    | exact h

private theorem flagOr_eq_of_same {a b : Json} (h : a.same b = true) (name : String)
    (absent : Bool) :
    a.flagOr name absent = b.flagOr name absent := by
  have hmember := same?_get? h name
  unfold flagOr
  generalize a.get? name = u at hmember ⊢
  generalize b.get? name = v at hmember ⊢
  cases u <;> cases v <;> first
    | rfl
    | cases hmember
    | exact truthy_eq_of_same hmember

theorem flag_eq_of_same {a b : Json} (h : a.same b = true) (name : String) :
    a.flag name = b.flag name :=
  flagOr_eq_of_same h name false

/-! ### Tolerant equality -/

private theorem same_or_scalars_of_alike {a b : Json} (h : a.alike b = true) :
    a.same b = true ∨
      (a.items? = none ∧ b.items? = none ∧ a.members? = none ∧ b.members? = none) := by
  cases a <;> cases b <;> simp_all [alike, nullMatchesBlank, sameScalarText, scalarText?, items?,
    members?]

theorem alike?_of_same? {a b : Option Json} (h : same? a b = true) : alike? a b = true := by
  cases a <;> cases b <;> simp_all [same?, alike?, alike, same]

theorem same?_or_no_items_of_alike? {a b : Option Json} (h : alike? a b = true) :
    same? a b = true ∨ (a.bind items? = none ∧ b.bind items? = none) := by
  cases a with
  | none =>
    cases b with
    | none => exact .inl rfl
    | some v =>
      rcases same_or_scalars_of_alike h with hsame | hscalar
      · cases v <;> simp_all [same, items?]
      · exact .inr ⟨rfl, hscalar.2.1⟩
  | some u =>
    cases b with
    | none =>
      rcases same_or_scalars_of_alike h with hsame | hscalar
      · cases u <;> simp_all [same, items?]
      · exact .inr ⟨hscalar.1, rfl⟩
    | some v =>
      rcases same_or_scalars_of_alike h with hsame | hscalar
      · exact .inl hsame
      · exact .inr ⟨hscalar.1, hscalar.2.1⟩

theorem alike?_get? {a b : Json} (h : a.alikeObjects b = true) (key : String) :
    alike? (a.get? key) (b.get? key) = true := by
  have hnulls : alike? none none = true := rfl
  have hothers (hab : a.alike b = true) : alike? (a.get? key) (b.get? key) = true := by
    rcases same_or_scalars_of_alike hab with hsame | ⟨-, -, ha, hb⟩
    · exact alike?_of_same? (same?_get? hsame key)
    · cases a <;> cases b <;> simp_all [members?, get?]
  cases a with
  | object u =>
    cases b with
    | object v =>
      simp only [alikeObjects, List.all_eq_true] at h
      by_cases hkey : key ∈ Dictionary.keys u ++ Dictionary.keys v
      · exact h key hkey
      · rw [List.mem_append, not_or, ← Dictionary.get?_eq_none_iff,
          ← Dictionary.get?_eq_none_iff] at hkey
        simpa [get?, hkey.1, hkey.2] using hnulls
    | _ => exact hothers h
  | _ => exact hothers h

theorem alikeObjects_of_same {a b : Json} (h : a.same b = true) : a.alikeObjects b = true := by
  have hothers : a.alike b = true := by simp [alike, h]
  cases a with
  | object u =>
    cases b with
    | object v =>
      simp only [alikeObjects, List.all_eq_true]
      intro key _
      exact alike?_of_same? (same?_get? h key)
    | _ => exact hothers
  | _ => exact hothers

end Json

end SchemaForm
