import SchemaForm.Proofs.Diff.Exact

set_option autoImplicit false
set_option relaxedAutoImplicit false

/-!
Collections that are reported as a whole. Rows that were not added, removed or changed may stand
for those of the current document, but for their order; whether a change of the order counts is up
to the attribute that allows it.
-/

namespace SchemaForm

namespace RowDiff

variable {before after : List Json}

private theorem perm_of_isEmpty (hbefore : Identified before) (hafter : Identified after)
    (hempty : (RowDiff.of before after).isEmpty = true) :
    (before.map RowId.of?).Perm (after.map RowId.of?) := by
  simp only [isEmpty, RowDiff.of, Bool.and_eq_true, List.isEmpty_iff,
    filter_counterpart? hbefore.named, filter_counterpart? hafter.named] at hempty
  obtain ⟨⟨hadded, hremoved⟩, -⟩ := hempty
  refine (List.perm_ext_iff_of_nodup hbefore.distinct hafter.distinct).mpr fun id => ⟨?_, ?_⟩
  · intro hid
    obtain ⟨row, hrow, rfl⟩ := List.mem_map.mp hid
    simpa using List.filter_eq_nil_iff.mp hremoved row hrow
  · intro hid
    obtain ⟨row, hrow, rfl⟩ := List.mem_map.mp hid
    simpa using List.filter_eq_nil_iff.mp hadded row hrow

private theorem alikeObjects_of_isEmpty (hbefore : Identified before) (hafter : Identified after)
    (hempty : (RowDiff.of before after).isEmpty = true) {old row : Json} (hold : old ∈ before)
    (hrow : row ∈ after) (hid : RowId.of? old = RowId.of? row) : old.alikeObjects row = true := by
  simp only [isEmpty, RowDiff.of, Bool.and_eq_true, List.isEmpty_iff] at hempty
  have hsame := List.filter_eq_nil_iff.mp hempty.2 row hrow
  rw [isUpdated, counterpart?_of_named (hafter.named row hrow)] at hsame
  have hversion : version? before row = some old := by
    cases hfound : version? before row with
    | none =>
      have hnone := List.find?_eq_none.mp hfound old hold
      simp [hid] at hnone
    | some other =>
      have hother : RowId.of? other = RowId.of? old := by
        rw [hid]
        simpa using List.find?_some hfound
      rw [List.inj_on_of_nodup_map hbefore.distinct (List.mem_of_find?_eq_some hfound) hold hother]
  simpa [hversion] using hsame

/-- The rows that are handed over for a collection: the current ones if something changed, where the
order counts only if it may be changed, and otherwise the rows from before. -/
def handedOver (reorders : Bool) (before after : List Json) : List Json :=
  if !(RowDiff.of before after).isEmpty ||
      (reorders && before.map RowId.of? != after.map RowId.of?) then after
  else before

variable {reorders : Bool}

private theorem handedOver_cases (reorders : Bool) (before after : List Json) :
    (handedOver reorders before after = after ∧
      ((RowDiff.of before after).isEmpty = false ∨ reorders = true)) ∨
    (handedOver reorders before after = before ∧ (RowDiff.of before after).isEmpty = true ∧
      (reorders = true → before.map RowId.of? = after.map RowId.of?)) := by
  unfold handedOver
  split
  · rename_i hchanged
    rw [Bool.or_eq_true, Bool.not_eq_true', Bool.and_eq_true] at hchanged
    exact .inl ⟨rfl, hchanged.imp id And.left⟩
  · rename_i hkept
    simp only [Bool.or_eq_true, Bool.not_eq_true', Bool.and_eq_true, bne_iff_ne, ne_eq, not_or,
      not_and, not_not, Bool.not_eq_false] at hkept
    exact .inr ⟨rfl, hkept⟩

/-- The rows handed over are those of the current document, each up to tolerant equality. -/
theorem handedOver_faithful (hbefore : Identified before) (hafter : Identified after) :
    ((handedOver reorders before after).map RowId.of?).Perm (after.map RowId.of?) ∧
      ∀ row ∈ handedOver reorders before after, ∀ current ∈ after,
        RowId.of? row = RowId.of? current → row.alikeObjects current = true := by
  rcases handedOver_cases reorders before after with
    ⟨hsent, -⟩ | ⟨hsent, hempty, -⟩
  · rw [hsent]
    refine ⟨.refl _, fun row hrow current hcurrent hid => ?_⟩
    rw [List.inj_on_of_nodup_map hafter.distinct hrow hcurrent hid]
    exact Json.alikeObjects_of_same (Json.same_refl current)
  · rw [hsent]
    exact ⟨perm_of_isEmpty hbefore hafter hempty, fun row hrow current hcurrent hid =>
      alikeObjects_of_isEmpty hbefore hafter hempty hrow hcurrent hid⟩

/-- They are in the order of the current document unless nothing but the order was changed, and that
may not be. -/
theorem handedOver_order_iff :
    (handedOver reorders before after).map RowId.of? = after.map RowId.of? ↔
      before.map RowId.of? = after.map RowId.of? ∨
        (RowDiff.of before after).isEmpty = false ∨ reorders = true := by
  rcases handedOver_cases reorders before after with
    ⟨hsent, hchanged⟩ | ⟨hsent, hempty, hreorders⟩
  · rw [hsent]
    exact ⟨fun _ => .inr hchanged, fun _ => rfl⟩
  · rw [hsent]
    refine ⟨.inl, fun h => ?_⟩
    rcases h with hsame | hchanged | hallowed
    · exact hsame
    · rw [hempty] at hchanged
      cases hchanged
    · exact hreorders hallowed

end RowDiff

namespace Diff

variable {options : DiffOptions}

private theorem drop_true (v : Json) : RowId.drop true v = v := by
  cases v <;> rfl

private theorem items?_reported (hplain : options.stringify = false) (atTop : Bool) (v : Json) :
    (reported options atTop v).items? = v.items? := by
  rw [reported_of_plain hplain]
  cases v <;> cases atTop <;> rfl

private theorem get?_changes_whole (hwhole : options.mode ≠ .edit)
    (hkeep : options.keepRowIds = true) {l : Level}
    (hunique : (l.schema.declared.filterMap fun d => d.field.id?).Nodup) {d : Declared}
    (hd : d ∈ l.schema.declared) {t : FieldTraits} {fields : List Field} {child : SchemaTraits}
    {rows : CollectionTraits} (hfield : d.field = .collection t fields child rows) {id : String}
    (hid : t.id = some id) :
    Dictionary.get? (l.changes options) id =
      if d.isTracked options = true ∧
          collectionChanged options.mode d.schema.traits t rows id l.before l.after = true then
        some (reported options l.atTop ((l.after.get? id).getD (.array [])))
      else none := by
  have hid' : d.field.id? = some id := by rw [hfield]; exact hid
  rw [get?_changes_of_declared hunique hd hid', Declared.reports]
  cases d.isTracked options with
  | false => rfl
  | true =>
    simp only [if_true, hfield, fieldReports, hid, if_neg hwhole, hkeep, drop_true]
    cases collectionChanged options.mode d.schema.traits t rows id l.before l.after with
    | false => rfl
    | true => simp [report, Dictionary.get?_cons]

theorem rows_laid_over (hwhole : options.mode ≠ .edit) (hkeep : options.keepRowIds = true)
    (hplain : options.stringify = false) {l : Level}
    (hunique : (l.schema.declared.filterMap fun d => d.field.id?).Nodup) {d : Declared}
    (hd : d ∈ l.schema.declared) (htracked : d.isTracked options = true) {t : FieldTraits}
    {fields : List Field} {child : SchemaTraits} {rows : CollectionTraits}
    (hfield : d.field = .collection t fields child rows) {id : String} (hid : t.id = some id)
    (hfree : rows.fixedRows = none) :
    (((Dictionary.get? (l.changes options) id).or (l.before.get? id)).bind Json.items?).getD [] =
      RowDiff.handedOver
        (t.attrOr "canReorder" ⟨d.schema.traits.idAttribute, l.after, .ofMode options.mode⟩ false)
        (l.before.rows id) (l.after.rows id) := by
  have hafter : ((l.after.get? id).getD (.array [])).items?.getD [] = l.after.rows id := by
    rw [Json.rows]
    cases l.after.get? id <;> rfl
  rw [get?_changes_whole hwhole hkeep hunique hd hfield hid, RowDiff.handedOver,
    collectionChanged]
  simp only [htracked, true_and, hfree, Option.isSome_none, Bool.false_eq_true, if_false]
  split
  · rw [Option.some_or, Option.bind_some, items?_reported hplain, hafter]
  · rfl

end Diff

end SchemaForm
