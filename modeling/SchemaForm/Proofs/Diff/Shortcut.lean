import SchemaForm.Proofs.Diff.Collection

set_option autoImplicit false
set_option relaxedAutoImplicit false

/-!
The shortcut of the row comparison. When a document is edited, only rows that are not tolerantly
equal to their older version are gone through field by field. The tolerant comparison looks no
deeper than the members of a row, yet nothing below them can be lost by it: what it lets pass as
equal is strictly equal or holds no rows at all. So the report of a collection is the one that going
through every row with a counterpart would give.
-/

namespace SchemaForm

namespace RowDiff

private theorem alikeObjects_of_not_mem_updated {before after : List Json} {old row : Json}
    (hmember : row ∈ after) (hfound : counterpart? before row = some old)
    (hkept : row ∉ (RowDiff.of before after).updated) : old.alikeObjects row = true := by
  have hunchanged : isUpdated before row ≠ true := fun hupdated =>
    hkept (List.mem_filter.mpr ⟨hmember, hupdated⟩)
  simpa [isUpdated, hfound] using hunchanged

end RowDiff

namespace Diff

/-- What a collection reports of its rows if every row with a counterpart is gone through. -/
def fullPartitions (options : DiffOptions) (atTop : Bool) (id : String) (child : Schema)
    (before after : List Json) : List (String × Json) :=
  partitions options atTop id (RowDiff.of before after) (after.filterMap fun row =>
    (RowDiff.counterpart? before row).bind fun old =>
      let changes := levelReports options child.traits false old row child.fields
      if changes.isEmpty then none else some (changedRow child.traits row changes))

private theorem fieldReports_collection_eq {options : DiffOptions} (hedit : options.mode = .edit)
    {t : FieldTraits} {id : String} (hnamed : t.id = some id) (atTop : Bool) (child : Schema)
    (schema : SchemaTraits) (rows : CollectionTraits) (original current : Json) :
    fieldReports options schema atTop original current
        (.collection t child.fields child.traits rows) =
      if Json.same? (original.get? id) (current.get? id) then []
      else fullPartitions options atTop id child (original.rows id) (current.rows id) := by
  have hunreported (old row : Json) (halike : old.alikeObjects row = true) :
      rowReport? options child old row = none := rowReport?_of_alike hedit child halike
  have hchanged := RowDiff.filterMap_changed (original.rows id) (current.rows id) hunreported
  simp only [rowReport?_eq] at hchanged
  simp only [fieldReports, hnamed, hedit, if_true, fullPartitions, hchanged]

/-- The row shortcut agrees with the full comparison of rows, for every schema and all options: the
report of two values that are tolerantly equal is empty, at the top or below it; so no field of a
row has changes if the row has a counterpart and does not count as updated; and a collection reports
what it would report if every row with a counterpart were gone through. -/
theorem row_shortcut_agrees (keepRowIds stringify includeSkipChange : Bool) (child : Schema) :
    let options : DiffOptions := ⟨.edit, keepRowIds, stringify, includeSkipChange⟩
    (∀ (atTop : Bool) (old row : Json), old.alikeObjects row = true →
      levelReports options child.traits atTop old row child.fields = []) ∧
    (∀ (before after : List Json) (old row : Json), row ∈ after →
      RowDiff.counterpart? before row = some old → row ∉ (RowDiff.of before after).updated →
      levelReports options child.traits false old row child.fields = []) ∧
    ∀ (t : FieldTraits) (id : String) (atTop : Bool) (schema : SchemaTraits)
      (rows : CollectionTraits) (original current : Json), t.id = some id →
      fieldReports options schema atTop original current
          (.collection t child.fields child.traits rows) =
        if Json.same? (original.get? id) (current.get? id) then []
        else fullPartitions options atTop id child (original.rows id) (current.rows id) := by
  intro options
  have hunreported (atTop : Bool) (old row : Json) (halike : old.alikeObjects row = true) :
      levelReports options child.traits atTop old row child.fields = [] :=
    levelReports_of_alike rfl child.traits halike child.fields
  refine ⟨hunreported, fun before after old row hmember hfound hkept => ?_,
    fun t id atTop schema rows original current hnamed => ?_⟩
  · exact hunreported false old row (RowDiff.alikeObjects_of_not_mem_updated hmember hfound hkept)
  · exact fieldReports_collection_eq rfl hnamed atTop child schema rows original current

private def parcelSchema : Schema :=
  let contents (id : String) : Field := .collection { FieldTraits.plain with id := some id }
    [.input { FieldTraits.plain with id := some "size" } .text] .plain ⟨[], none, none⟩
  ⟨[.input { FieldTraits.plain with id := some "quantity" } .text,
    .nested .plain .tab [.input { FieldTraits.plain with id := some "remark" } .text] .plain,
    contents "boxes", contents "letters"], .plain⟩

private def parcel (cid : String) (members : List (String × Json)) : Json :=
  .ofPairs (("cid", .text cid) :: members)

private def consignment (parcels : List Json) : Json := .ofPairs [("parcels", .array parcels)]

/-- A parcel gets a quantity as text, loses its remark, which was null, and has null in place of a
blank for its boxes: nothing of it is reported. Of another parcel the remark is. -/
theorem row_shortcut_agrees_parcel :
    let options : DiffOptions := ⟨.edit, false, false, false⟩
    let letters : String × Json := ("letters", .array [parcel "l" [("size", .ofNat 1)]])
    let old := parcel "p" [letters, ("quantity", .ofNat 5), ("remark", .null), ("boxes", .text "")]
    let row := parcel "p" [letters, ("quantity", .text "5"), ("boxes", .null)]
    let before := [old, parcel "q" [("remark", .text "x")]]
    let after := [row, parcel "q" [("remark", .text "y")]]
    let diff := RowDiff.of before after
    let parcels : Field := .collection { FieldTraits.plain with id := some "parcels" }
      parcelSchema.fields parcelSchema.traits ⟨[], none, none⟩
    (old.same row = false ∧ old.alikeObjects row = true ∧
      levelReports options parcelSchema.traits true old row parcelSchema.fields = []) ∧
    (row ∈ after ∧ RowDiff.counterpart? before row = some old ∧ row ∉ diff.updated ∧
      levelReports options parcelSchema.traits false old row parcelSchema.fields = []) ∧
    fieldReports options .plain true (consignment before) (consignment after) parcels =
      [("parcels", .ofPairs [("changed", .array [.ofPairs [("remark", .text "y")]])])] := by
  intro options letters old row before after diff parcels
  obtain ⟨halikeLevel, hkeptRow, hcollection⟩ := row_shortcut_agrees false false false parcelSchema
  have halike : old.alikeObjects row = true := by decide +kernel
  have hmember : row ∈ after := List.mem_cons_self
  have hfound : RowDiff.counterpart? before row = some old := by decide +kernel
  have hkept : row ∉ diff.updated := by decide +kernel
  refine ⟨⟨by decide +kernel, halike, halikeLevel true old row halike⟩,
    ⟨hmember, hfound, hkept, hkeptRow before after old row hmember hfound hkept⟩, ?_⟩
  refine (hcollection _ "parcels" true .plain _ (consignment before) (consignment after)
    rfl).trans ?_
  decide +kernel

end Diff

end SchemaForm
