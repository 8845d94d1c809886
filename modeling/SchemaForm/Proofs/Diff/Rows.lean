import Mathlib.Data.List.Nodup
import SchemaForm.Diff.Rows
import SchemaForm.Proofs.Equality

set_option autoImplicit false
set_option relaxedAutoImplicit false

/-!
Rows that all have identities of their own. Among such rows the comparison of two arrays is one of
identities: which are new, which are gone, and which rows are two versions of one.
-/

namespace SchemaForm

namespace RowDiff

/-- Every row has an identity, and no two have the same. -/
structure Identified (rows : List Json) : Prop where
  named : ∀ row ∈ rows, (RowId.of? row).isSome = true
  distinct : (rows.map RowId.of?).Nodup

instance (rows : List Json) : Decidable (Identified rows) :=
  decidable_of_iff ((∀ row ∈ rows, (RowId.of? row).isSome = true) ∧ (rows.map RowId.of?).Nodup)
    ⟨fun h => ⟨h.1, h.2⟩, fun h => ⟨h.named, h.distinct⟩⟩

/-- The rows of the second array whose identities do not occur in the first. -/
def unmatched (others rows : List Json) : List Json :=
  rows.filter fun row => RowId.of? row ∉ others.map RowId.of?

/-- The version of a row in another array. -/
def version? (rows : List Json) (row : Json) : Option Json :=
  rows.find? fun other => RowId.of? other == RowId.of? row

theorem counterpart?_of_named {rows : List Json} {row : Json}
    (hnamed : (RowId.of? row).isSome = true) : counterpart? rows row = version? rows row := by
  obtain ⟨id, hid⟩ := Option.isSome_iff_exists.mp hnamed
  simp only [counterpart?, version?, hid]

private theorem version?_isNone_iff {rows : List Json} {row : Json} :
    (version? rows row).isNone = true ↔ RowId.of? row ∉ rows.map RowId.of? := by
  rw [Option.isNone_iff_eq_none, version?, List.find?_eq_none, List.mem_map]
  constructor
  · rintro hnoneSame ⟨other, hmember, hsame⟩
    exact hnoneSame other hmember (by simp [hsame])
  · intro habsent other hmember hsame
    exact habsent ⟨other, hmember, by simpa using hsame⟩

theorem filter_counterpart? {rows : List Json}
    (hnamed : ∀ row ∈ rows, (RowId.of? row).isSome = true)
    (others : List Json) :
    (rows.filter fun row => (counterpart? others row).isNone) = unmatched others rows := by
  refine List.filter_congr fun row hmember => ?_
  rw [counterpart?_of_named (hnamed row hmember), Bool.eq_iff_iff, version?_isNone_iff,
    decide_eq_true_iff]

/-- What is made of the changed rows can be made of all rows with a counterpart, if nothing is made
of two versions that are tolerantly equal. -/
theorem filterMap_changed {α : Type} (before after : List Json) {make : Json → Json → Option α}
    (halike : ∀ old row, old.alikeObjects row = true → make old row = none) :
    ((RowDiff.of before after).updated.filterMap fun row =>
      (counterpart? before row).bind fun old => make old row) =
    after.filterMap fun row => (counterpart? before row).bind fun old => make old row := by
  rw [RowDiff.of, List.filterMap_filter]
  refine List.filterMap_congr fun row _ => ?_
  rw [isUpdated]
  cases counterpart? before row with
  | none => rfl
  | some old =>
    cases hequal : old.alikeObjects row with
    | false => simp [hequal]
    | true => simp [hequal, halike old row hequal]

theorem filterMap_updated {α : Type} {before after : List Json} (hidentified : Identified after)
    {make : Json → Json → Option α}
    (halike : ∀ old row, old.alikeObjects row = true → make old row = none) :
    ((RowDiff.of before after).updated.filterMap fun row =>
      (counterpart? before row).bind fun old => make old row) =
    after.filterMap fun row => (version? before row).bind fun old => make old row := by
  rw [filterMap_changed before after halike]
  refine List.filterMap_congr fun row hmember => ?_
  rw [counterpart?_of_named (hidentified.named row hmember)]

/-! ### Arrays that are strictly equal -/

theorem of?_eq_of_same {a b : Json} (hsame : a.same b = true) : RowId.of? a = RowId.of? b :=
  Json.text?_get?_eq_of_same hsame RowId.key

section Same

variable {before after : List Json}
  (hsame : List.Forall₂ (fun u v => u.same v = true) before after)

include hsame

theorem map_of?_eq_of_same : before.map RowId.of? = after.map RowId.of? := by
  induction hsame with
  | nil => rfl
  | cons hhead _ ih =>
    rw [List.map_cons, List.map_cons, of?_eq_of_same hhead, ih]

theorem unmatched_of_same : unmatched before after = [] ∧ unmatched after before = [] := by
  have hids := map_of?_eq_of_same hsame
  refine ⟨List.filter_eq_nil_iff.mpr fun row hmember => ?_,
    List.filter_eq_nil_iff.mpr fun row hmember => ?_⟩
  · rw [hids]
    simpa using ⟨row, hmember, rfl⟩
  · rw [← hids]
    simpa using ⟨row, hmember, rfl⟩

private theorem same_of_of?_eq (hdistinct : (before.map RowId.of?).Nodup) {old row : Json}
    (ho : old ∈ before) (hr : row ∈ after) (hversion : RowId.of? old = RowId.of? row) :
    old.same row = true := by
  -- Versions that do not stand side by side would make one identity occur twice.
  induction hsame with
  | nil => cases ho
  | @cons b a bs as hhead htail ih =>
    have hfirst : RowId.of? b = RowId.of? a := of?_eq_of_same hhead
    rw [List.map_cons, List.nodup_cons] at hdistinct
    rcases List.mem_cons.mp ho with rfl | ho <;> rcases List.mem_cons.mp hr with rfl | hr
    · exact hhead
    · have htwice : RowId.of? old ∈ bs.map RowId.of? := by
        rw [map_of?_eq_of_same htail, hversion]
        exact List.mem_map_of_mem hr
      exact absurd htwice hdistinct.1
    · have htwice : RowId.of? b ∈ bs.map RowId.of? := by
        rw [hfirst, ← hversion]
        exact List.mem_map_of_mem ho
      exact absurd htwice hdistinct.1
    · exact ih hdistinct.2 ho hr

theorem filterMap_version?_of_same {α : Type} (hdistinct : (before.map RowId.of?).Nodup)
    {make : Json → Json → Option α}
    (hequal : ∀ old row, old.same row = true → make old row = none) :
    (after.filterMap fun row => (version? before row).bind fun old => make old row) = [] := by
  rw [List.filterMap_eq_nil_iff]
  intro row hmember
  cases hfound : version? before row with
  | none => rfl
  | some old =>
    have hpresent := List.mem_of_find?_eq_some hfound
    have hversion : RowId.of? old = RowId.of? row := by
      simpa using List.find?_some hfound
    exact hequal old row (same_of_of?_eq hsame hdistinct hpresent hmember hversion)

end Same

end RowDiff

end SchemaForm
