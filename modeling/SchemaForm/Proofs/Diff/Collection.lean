import SchemaForm.Proofs.Diff.Level
import SchemaForm.Proofs.Diff.Rows

set_option autoImplicit false
set_option relaxedAutoImplicit false

/-!
The report of a collection when a document is edited. Three comparisons decide about a row: arrays
are compared strictly, two versions of a row tolerantly, and then field by field. None of them drops
a row that the next one would report, at any depth.
-/

namespace SchemaForm

namespace Diff

/-- What is to be reported of a collection: the partitions that are not empty, or nothing if all
are. -/
def editReport (keepRowIds : Bool) (added deleted changed : List Json) : Option Json :=
  let parts := [("added", added), ("deleted", deleted), ("changed", changed)].filter fun part =>
    !part.2.isEmpty
  if parts.isEmpty then none
  else some (.ofPairs (parts.map fun part => (part.1, RowId.drop keepRowIds (.array part.2))))

/-- What is to be reported of two versions of a row: nothing if no field has changes, else these
over the id attribute, or over the whole row. -/
def rowReport? (options : DiffOptions) (child : Schema) (old row : Json) : Option Json :=
  let changes := Level.changes options ⟨child, false, old, row⟩
  if changes.isEmpty then none else some (changedRow child.traits row changes)

def changedRows (options : DiffOptions) (child : Schema) (before after : List Json) : List Json :=
  after.filterMap fun row =>
    (RowDiff.version? before row).bind fun old => rowReport? options child old row

theorem get?_changedRow (schema : SchemaTraits) (row : Json) (pairs : List (String × Json))
    (key : String) : (changedRow schema row (Dictionary.ofPairs pairs)).get? key =
      (Dictionary.get? (Dictionary.ofPairs pairs) key).or
        (if (row.get? schema.idAttribute).isSome ∧ key ≠ schema.idAttribute then none
        else row.get? key) := by
  rw [changedRow, Json.get?, Dictionary.get?_overlay_ofPairs]
  congr 1
  cases hfound : row.get? schema.idAttribute with
  | none => cases row <;> simp [Json.members?, Json.get?]
  | some id =>
    by_cases hsame : key = schema.idAttribute
    · simp [hsame, hfound, Dictionary.get?_cons]
    · simp [hsame, Ne.symm hsame, Dictionary.get?_cons]

section Edit

variable {options : DiffOptions} {atTop : Bool} {original current : Json}

private theorem partition_eq (name : String) (rows : List Json) : partition options name rows =
    ([(name, rows)].filter fun part => !part.2.isEmpty).map fun part =>
      (part.1, RowId.drop options.keepRowIds (.array part.2)) := by
  cases rows <;> rfl

theorem get?_partitions (hplain : options.stringify = false) (id : String) (diff : RowDiff)
    (changed : List Json) : Dictionary.get? (partitions options atTop id diff changed) id =
      editReport options.keepRowIds diff.added diff.removed changed := by
  have hparts : partition options "added" diff.added ++ partition options "deleted" diff.removed ++
      partition options "changed" changed =
      ([("added", diff.added), ("deleted", diff.removed), ("changed", changed)].filter fun part =>
        !part.2.isEmpty).map fun part =>
          (part.1, RowId.drop options.keepRowIds (.array part.2)) := by
    rw [partition_eq, partition_eq, partition_eq, ← List.map_append, ← List.map_append,
      ← List.filter_append, ← List.filter_append]
    rfl
  simp only [partitions, editReport, hparts]
  generalize [("added", diff.added), ("deleted", diff.removed), ("changed", changed)].filter
    (fun part => !part.2.isEmpty) = nonempty
  have hemptyIff : (Dictionary.overlay [] (nonempty.map fun part =>
      (part.1, RowId.drop options.keepRowIds (.array part.2)))).isEmpty = nonempty.isEmpty := by
    rw [Bool.eq_iff_iff, List.isEmpty_iff, List.isEmpty_iff]
    exact Dictionary.ofPairs_eq_nil_iff.trans List.map_eq_nil_iff
  rw [hemptyIff]
  split
  · rfl
  · simp [report, reported, hplain, Dictionary.get?_cons, Json.ofPairs, Dictionary.ofPairs]

private theorem fieldReports_of_alike (hedit : options.mode = .edit) {schema : SchemaTraits}
    (halike : original.alikeObjects current = true) {f : Field} (hdata : IsData f) :
    fieldReports options schema atTop original current f = [] := by
  cases hnamed : f.id? with
  | none => exact fieldReports_unnamed hdata hnamed
  | some id =>
    have hvalues : Json.alike? (original.get? id) (current.get? id) = true :=
      Json.alike?_get? halike id
    cases f with
    | nested t style fields child => exact absurd rfl (hdata t style fields child)
    | input t kind => rw [fieldReports_scalar hdata rfl hnamed, if_pos hvalues]
    | group t inline => rw [fieldReports_scalar hdata rfl hnamed, if_pos hvalues]
    | collection t fields child rows =>
      have hown : t.id = some id := hnamed
      simp only [fieldReports, hown, hedit, if_true]
      rcases Json.same?_or_no_items_of_alike? hvalues with hsame | ⟨hnone, hnone'⟩
      · simp [hsame]
      · have hbefore : original.rows id = [] := by rw [Json.rows, hnone, Option.getD_none]
        have hafter : current.rows id = [] := by rw [Json.rows, hnone', Option.getD_none]
        simp only [hbefore, hafter]
        split
        · rfl
        · rfl

theorem levelReports_of_alike (hedit : options.mode = .edit) (schema : SchemaTraits)
    (halike : original.alikeObjects current = true) (fields : List Field) :
    levelReports options schema atTop original current fields = [] := by
  rw [levelReports_eq hedit schema, List.flatMap_eq_nil_iff]
  intro f hmember
  exact fieldReports_of_alike hedit halike (isData_of_mem_included fields hmember)

private theorem changes_of_alike (hedit : options.mode = .edit) {l : Level}
    (halike : l.before.alikeObjects l.after = true) : l.changes options = [] := by
  rw [Level.changes, levelReports_of_alike hedit l.schema.traits halike]
  rfl

theorem rowReport?_of_alike (hedit : options.mode = .edit) (child : Schema) {old row : Json}
    (halike : old.alikeObjects row = true) : rowReport? options child old row = none := by
  have hnoneChanged : Level.changes options ⟨child, false, old, row⟩ = [] :=
    changes_of_alike hedit halike
  rw [rowReport?, hnoneChanged]
  rfl

theorem rowReport?_eq (child : Schema) (old row : Json) : rowReport? options child old row =
    let changes := levelReports options child.traits false old row child.fields
    if changes.isEmpty then none else some (changedRow child.traits row changes) := by
  have hemptyIff : (Level.changes options ⟨child, false, old, row⟩).isEmpty =
      (levelReports options child.traits false old row child.fields).isEmpty := by
    rw [Bool.eq_iff_iff, List.isEmpty_iff, List.isEmpty_iff]
    exact Dictionary.ofPairs_eq_nil_iff
  rw [rowReport?, hemptyIff, Level.changes, changedRow, Dictionary.overlay_ofPairs]
  rfl

private theorem get?_fieldReports_collection (hedit : options.mode = .edit)
    (hplain : options.stringify = false) {schema : SchemaTraits} {t : FieldTraits} {child : Schema}
    {traits : CollectionTraits} {id : String} (hnamed : t.id = some id)
    (hbefore : RowDiff.Identified (original.rows id))
    (hafter : RowDiff.Identified (current.rows id)) :
    Dictionary.get? (fieldReports options schema atTop original current
      (.collection t child.fields child.traits traits)) id =
    editReport options.keepRowIds (RowDiff.unmatched (original.rows id) (current.rows id))
      (RowDiff.unmatched (current.rows id) (original.rows id))
      (changedRows options child (original.rows id) (current.rows id)) := by
  simp only [fieldReports, hnamed, hedit, if_true]
  -- Arrays that are strictly equal are passed over, and indeed nothing is to be reported of them.
  split
  · rename_i hsame
    have hequal := Json.rows_same hsame
    have hunmatched := RowDiff.unmatched_of_same hequal
    have hunchanged : changedRows options child (original.rows id) (current.rows id) = [] :=
      RowDiff.filterMap_version?_of_same hequal hbefore.distinct fun old row hversions =>
        rowReport?_of_alike hedit child (Json.alikeObjects_of_same hversions)
    rw [hunmatched.1, hunmatched.2, hunchanged]
    rfl
  · have hchanged : ((RowDiff.of (original.rows id) (current.rows id)).updated.filterMap fun row =>
        (RowDiff.counterpart? (original.rows id) row).bind fun old =>
          rowReport? options child old row) =
        changedRows options child (original.rows id) (current.rows id) :=
      RowDiff.filterMap_updated hafter fun old row halike => rowReport?_of_alike hedit child halike
    simp only [rowReport?_eq] at hchanged
    have hadded : (RowDiff.of (original.rows id) (current.rows id)).added =
        RowDiff.unmatched (original.rows id) (current.rows id) :=
      RowDiff.filter_counterpart? hafter.named _
    have hremoved : (RowDiff.of (original.rows id) (current.rows id)).removed =
        RowDiff.unmatched (current.rows id) (original.rows id) :=
      RowDiff.filter_counterpart? hbefore.named _
    rw [get?_partitions hplain, hadded, hremoved]
    exact congrArg _ hchanged

end Edit

/-! ### Levels at any depth -/

/-- The rows of every included collection are identified, and so are those of the levels below. -/
inductive RowsIdentified (options : DiffOptions) : List Field → Json → Prop where
  | intro {fields : List Field} {doc : Json}
      (hlevel : ∀ id child, (id, child) ∈ collections options fields →
        RowDiff.Identified (doc.rows id))
      (hbelow : ∀ id child, (id, child) ∈ collections options fields → ∀ row ∈ doc.rows id,
        RowsIdentified options child.fields row) :
      RowsIdentified options fields doc

private theorem RowsIdentified.rows {options : DiffOptions} {fields : List Field} {doc : Json}
    (h : RowsIdentified options fields doc) {id : String} {child : Schema}
    (hheld : (id, child) ∈ collections options fields) : RowDiff.Identified (doc.rows id) := by
  cases h with
  | intro hlevel _ => exact hlevel id child hheld

private theorem RowsIdentified.child {options : DiffOptions} {fields : List Field} {doc : Json}
    (h : RowsIdentified options fields doc) {id : String} {child : Schema}
    (hheld : (id, child) ∈ collections options fields) {row : Json} (hmember : row ∈ doc.rows id) :
    RowsIdentified options child.fields row := by
  cases h with
  | intro _ hbelow => exact hbelow id child hheld row hmember

/-- A level is reached from the top level through two versions of a row at a time. -/
inductive Reached (options : DiffOptions) (top : Level) : Level → Prop where
  | top : Reached options top top
  | row {level : Level} {id : String} {child : Schema} {old row : Json}
      (hreached : Reached options top level)
      (hheld : (id, child) ∈ collections options level.schema.fields)
      (hbefore : old ∈ level.before.rows id) (hafter : row ∈ level.after.rows id)
      (hversion : RowId.of? old = RowId.of? row) :
      Reached options top ⟨child, false, old, row⟩

/-- A level in which ids are distinct and rows identified, at every depth. -/
structure Level.WellFormed (options : DiffOptions) (l : Level) : Prop where
  distinct : DistinctIds options l.schema.fields
  before : RowsIdentified options l.schema.fields l.before
  after : RowsIdentified options l.schema.fields l.after

private theorem Reached.wellFormed {options : DiffOptions} {top level : Level}
    (hreached : Reached options top level) (h : top.WellFormed options) :
    level.WellFormed options := by
  induction hreached with
  | top => exact h
  | row _ hheld hbefore hafter _ ih =>
    exact ⟨ih.distinct.child hheld, ih.before.child hheld hbefore, ih.after.child hheld hafter⟩

private theorem Level.WellFormed.get?_changes {options : DiffOptions} (hedit : options.mode = .edit)
    (hplain : options.stringify = false) {l : Level} (h : l.WellFormed options) {id : String}
    {child : Schema} (hheld : (id, child) ∈ collections options l.schema.fields) :
    Dictionary.get? (l.changes options) id =
      editReport options.keepRowIds (RowDiff.unmatched (l.before.rows id) (l.after.rows id))
        (RowDiff.unmatched (l.after.rows id) (l.before.rows id))
        (changedRows options child (l.before.rows id) (l.after.rows id)) := by
  have hbefore := h.before.rows hheld
  have hafter := h.after.rows hheld
  obtain ⟨t, rows, hnamed, hmember⟩ := mem_collections hheld
  rw [Diff.get?_changes hedit h.distinct hmember hnamed,
    get?_fieldReports_collection hedit hplain hnamed hbefore hafter]

/-- When a document is edited, no row change is lost: at every depth, a collection is reported with
exactly the rows whose identities are new, those whose identities are gone, and an entry for each
row of which a field has changes. The entry has the changes of the row over its id attribute, or
over the whole row if it has none. -/
theorem edit_reports_every_row (s : Schema) (keepRowIds includeSkipChange : Bool)
    (original current : Json) :
    let options : DiffOptions := ⟨.edit, keepRowIds, false, includeSkipChange⟩
    let top : Level := ⟨s, true, original, current⟩
    DistinctIds options s.fields → RowsIdentified options s.fields original →
    RowsIdentified options s.fields current →
    s.diff options original current = top.changes options ∧
    ∀ level, Reached options top level →
    ∀ id child, (id, child) ∈ collections options level.schema.fields →
      let before := level.before.rows id
      let after := level.after.rows id
      let rowChanges (old row : Json) := Level.changes options ⟨child, false, old, row⟩
      Dictionary.get? (level.changes options) id =
        editReport keepRowIds
          (after.filter fun row => RowId.of? row ∉ before.map RowId.of?)
          (before.filter fun row => RowId.of? row ∉ after.map RowId.of?)
          (after.filterMap fun row =>
            (before.find? fun old => RowId.of? old == RowId.of? row).bind fun old =>
              if (rowChanges old row).isEmpty then none
              else some (changedRow child.traits row (rowChanges old row))) ∧
      ∀ old row key,
        (changedRow child.traits row (rowChanges old row)).get? key =
          (Dictionary.get? (rowChanges old row) key).or
            (if (row.get? child.traits.idAttribute).isSome ∧ key ≠ child.traits.idAttribute
            then none else row.get? key) := by
  intro options top hdistinct hbefore hafter
  have hwellFormed : top.WellFormed options := ⟨hdistinct, hbefore, hafter⟩
  refine ⟨rfl, fun level hreached id child hheld => ⟨?_, fun old row key => ?_⟩⟩
  · exact (hreached.wellFormed hwellFormed).get?_changes rfl rfl hheld
  · exact get?_changedRow child.traits row _ key

private def itemSchema : Schema :=
  ⟨[.input { FieldTraits.plain with id := some "note" } .text,
    .collection { FieldTraits.plain with id := some "parts" }
      [.input { FieldTraits.plain with id := some "size" } .text] .plain ⟨[], none, none⟩], .plain⟩

private def orderSchema : Schema :=
  ⟨[.nested .plain .tab
      [.collection { FieldTraits.plain with id := some "items" } itemSchema.fields itemSchema.traits
        ⟨[], none, none⟩] .plain], .plain⟩

private def orderOptions : DiffOptions := ⟨.edit, false, false, false⟩

private theorem orderSchema_distinct : DistinctIds orderOptions orderSchema.fields := by
  have houter : collections orderOptions orderSchema.fields = [("items", itemSchema)] := rfl
  have hinner : collections orderOptions itemSchema.fields =
    [("parts", ⟨[.input { FieldTraits.plain with id := some "size" } .text], .plain⟩)] := rfl
  refine .intro (by decide) fun id child hheld => ?_
  rw [houter, List.mem_singleton] at hheld
  cases hheld
  refine .intro (by decide) fun id child hheld => ?_
  rw [hinner, List.mem_singleton] at hheld
  cases hheld
  exact .intro (by decide) fun id child hheld => by cases hheld

private theorem orderSchema_identified {doc : Json} (hitems : RowDiff.Identified (doc.rows "items"))
    (hparts : ∀ row ∈ doc.rows "items", RowDiff.Identified (row.rows "parts")) :
    RowsIdentified orderOptions orderSchema.fields doc := by
  have houter : collections orderOptions orderSchema.fields = [("items", itemSchema)] := rfl
  have hinner : collections orderOptions itemSchema.fields =
    [("parts", ⟨[.input { FieldTraits.plain with id := some "size" } .text], .plain⟩)] := rfl
  refine .intro (fun id child hheld => ?_) fun id child hheld row hmember => ?_
  · rw [houter, List.mem_singleton] at hheld
    cases hheld
    exact hitems
  · rw [houter, List.mem_singleton] at hheld
    cases hheld
    refine .intro (fun id child hheld => ?_) fun id child hheld part _ => ?_
    · rw [hinner, List.mem_singleton] at hheld
      cases hheld
      exact hparts row hmember
    · rw [hinner, List.mem_singleton] at hheld
      cases hheld
      exact .intro (fun id child hheld => by cases hheld) fun id child hheld => by cases hheld

private def part (cid size : String) : Json := .ofPairs [("cid", .text cid), ("size", .text size)]

private def item (cid note : String) (parts : List Json) : Json :=
  .ofPairs [("cid", .text cid), ("note", .text note), ("parts", .array parts)]

private def order (items : List Json) : Json := .ofPairs [("items", .array items)]

/-- One item is new, one is gone, and of the third a part is gone and another one has changed. -/
theorem edit_reports_every_row_order :
    let original := order [item "a" "x" [part "p" "1", part "q" "2"], item "b" "y" []]
    let current := order [item "c" "z" [], item "a" "x" [part "q" "3"]]
    DistinctIds orderOptions orderSchema.fields ∧
      RowsIdentified orderOptions orderSchema.fields original ∧
      RowsIdentified orderOptions orderSchema.fields current ∧
      Dictionary.get? (orderSchema.diff orderOptions original current) "items" =
        some (.ofPairs [
          ("added", .array [.ofPairs [("note", .text "z"), ("parts", .array [])]]),
          ("deleted", .array [.ofPairs [("note", .text "y"), ("parts", .array [])]]),
          ("changed", .array [.ofPairs [("note", .text "x"), ("parts", .ofPairs [
            ("deleted", .array [.ofPairs [("size", .text "1")]]),
            ("changed", .array [.ofPairs [("size", .text "3")]])])]])]) := by
  intro original current
  have hbefore : RowsIdentified orderOptions orderSchema.fields original :=
    orderSchema_identified (by decide +kernel) (by decide +kernel)
  have hafter : RowsIdentified orderOptions orderSchema.fields current :=
    orderSchema_identified (by decide +kernel) (by decide +kernel)
  obtain ⟨hsame, hreported⟩ :=
    edit_reports_every_row orderSchema false false original current orderSchema_distinct hbefore
      hafter
  obtain ⟨hreport, -⟩ := hreported _ .top "items" itemSchema (List.mem_singleton.mpr rfl)
  refine ⟨orderSchema_distinct, hbefore, hafter, ?_⟩
  refine (congrArg (Dictionary.get? · "items") hsame).trans (hreport.trans ?_)
  decide +kernel

end Diff

end SchemaForm
