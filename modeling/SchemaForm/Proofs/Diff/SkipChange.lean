import SchemaForm.Proofs.Diff.Collection

set_option autoImplicit false
set_option relaxedAutoImplicit false

/-!
Which fields a change set reports, as opposed to what it reports of them. This depends on the mode
alone and on whether the fields that do not count as changes are included; and to include these
takes no other field away, though it may change what is reported of a collection, and add
collections of which otherwise nothing would be reported.
-/

namespace SchemaForm

namespace Diff

/-- Change sets of one mode, the second of which includes the fields that the first one does. -/
structure Widens (options options' : DiffOptions) : Prop where
  mode : options'.mode = options.mode
  includes : options.includeSkipChange = true → options'.includeSkipChange = true

theorem widens_skipChange (options : DiffOptions) :
    Widens { options with includeSkipChange := false } { options with includeSkipChange := true } :=
  ⟨rfl, fun _ => rfl⟩

section Widens

variable {options options' : DiffOptions}

private theorem Widens.isTracked (hwider : Widens options options') {t : FieldTraits}
    (htracked : t.isTracked options.mode options.includeSkipChange = true) :
    t.isTracked options'.mode options'.includeSkipChange = true := by
  simp only [FieldTraits.isTracked, Bool.and_eq_true, Bool.or_eq_true, hwider.mode] at htracked ⊢
  exact ⟨⟨htracked.1.1, htracked.1.2.imp_right hwider.includes⟩, htracked.2⟩

private theorem keys_report (options : DiffOptions) (atTop : Bool) (id : String) (v : Json) :
    Dictionary.keys (report options atTop id v) = [id] := rfl

private theorem keys_partitions (options : DiffOptions) (atTop : Bool) (id : String)
    (diff : RowDiff) (changed : List Json) :
    Dictionary.keys (partitions options atTop id diff changed) =
      if diff.added = [] ∧ diff.removed = [] ∧ changed = [] then [] else [id] := by
  have hpartitionEqNil (name : String) (rows : List Json) :
      partition options name rows = [] ↔ rows = [] := by
    cases rows <;> simp [partition]
  have hpartsEqNil : Dictionary.overlay [] (partition options "added" diff.added ++
      partition options "deleted" diff.removed ++ partition options "changed" changed) = [] ↔
      diff.added = [] ∧ diff.removed = [] ∧ changed = [] := by
    refine Dictionary.ofPairs_eq_nil_iff.trans ?_
    rw [List.append_eq_nil_iff, List.append_eq_nil_iff, hpartitionEqNil, hpartitionEqNil,
      hpartitionEqNil, and_assoc]
  simp only [partitions, List.isEmpty_iff, hpartsEqNil]
  split
  · rfl
  · exact keys_report options atTop id _

private theorem keys_partitions_subset {atTop : Bool} {id : String} {diff : RowDiff}
    {changed changed' : List Json} (hmore : changed' = [] → changed = []) :
    Dictionary.keys (partitions options atTop id diff changed) ⊆
      Dictionary.keys (partitions options' atTop id diff changed') := by
  rw [keys_partitions, keys_partitions]
  split
  · exact List.nil_subset _
  · rename_i hreported
    rw [if_neg fun hnone => hreported ⟨hnone.1, hnone.2.1, hmore hnone.2.2⟩]
    exact List.Subset.refl _

mutual

private theorem keys_fieldReports_subset (hwider : Widens options options') (schema : SchemaTraits)
    (atTop : Bool) (original current : Json) : (f : Field) →
    Dictionary.keys (fieldReports options schema atTop original current f) ⊆
      Dictionary.keys (fieldReports options' schema atTop original current f)
  | .nested _ _ fields child => by
    rw [fieldReports, fieldReports]
    exact keys_levelReports_subset hwider child atTop original current fields
  | .input t kind => by
    simp only [fieldReports, hwider.mode]
    split
    · exact List.Subset.refl _
    · split_ifs <;> exact List.Subset.refl _
  | .group t inline => by
    simp only [fieldReports, hwider.mode]
    split
    · exact List.Subset.refl _
    · split_ifs <;> exact List.Subset.refl _
  | .collection t fields child rows => by
    simp only [fieldReports, hwider.mode]
    split
    · exact List.Subset.refl _
    · rename_i id hnamed
      split_ifs
      · exact List.Subset.refl _
      · -- A row that has an entry also has one in the wider change set.
        refine keys_partitions_subset fun hnoneChanged => ?_
        rw [List.filterMap_eq_nil_iff] at hnoneChanged ⊢
        intro row hupdated
        have hsilent := hnoneChanged row hupdated
        rw [Option.bind_eq_none_iff] at hsilent ⊢
        intro old hbefore
        have hbelow := keys_levelReports_subset hwider child false old row fields
        have hnothing := hsilent old hbefore
        simp only [ite_eq_left_iff, reduceCtorEq, imp_false, not_not, List.isEmpty_iff]
          at hnothing ⊢
        rw [hnothing] at hbelow
        exact List.map_eq_nil_iff.mp (List.subset_nil.mp hbelow)
      · rw [keys_report, keys_report]
        exact List.Subset.refl _
      · exact List.Subset.refl _

private theorem keys_levelReports_subset (hwider : Widens options options') (schema : SchemaTraits)
    (atTop : Bool) (original current : Json) : (fields : List Field) →
    Dictionary.keys (levelReports options schema atTop original current fields) ⊆
      Dictionary.keys (levelReports options' schema atTop original current fields)
  | [] => List.Subset.refl _
  | f :: rest => by
    have hlater := keys_levelReports_subset hwider schema atTop original current rest
    rw [levelReports, levelReports, Dictionary.keys, Dictionary.keys, List.map_append,
      List.map_append]
    refine List.append_subset.mpr ⟨?_, fun key hmember => List.mem_append_right _ (hlater hmember)⟩
    split
    · rename_i htracked
      rw [if_pos (hwider.isTracked htracked)]
      exact fun key hmember => List.mem_append_left _
        (keys_fieldReports_subset hwider schema atTop original current f hmember)
    · exact List.nil_subset _

end

end Widens

end Diff

/-- A wider change set reports every field that a narrower one does. What else is asked of the two
change sets makes no difference to that. -/
theorem Schema.keys_diff_subset (s : Schema) {options options' : DiffOptions}
    (hwider : Diff.Widens options options') (original current : Json) :
    Dictionary.keys (s.diff options original current) ⊆
      Dictionary.keys (s.diff options' original current) := by
  intro key hmember
  rw [Schema.diff, Dictionary.mem_keys_ofPairs] at hmember ⊢
  exact Diff.keys_levelReports_subset hwider s.traits true original current s.fields hmember

end SchemaForm
