import SchemaForm.Diff.Rows
import SchemaForm.Schema.Basic

set_option autoImplicit false
set_option relaxedAutoImplicit false

/-!
The change set of a document: the part of the current document that differs from the original one.
When a document is edited, a collection is reported by its added, deleted and changed rows;
otherwise a changed collection is reported as a whole. Nested schemas report at the level of their
parent.
-/

namespace SchemaForm

/-- How a change set is made. -/
structure DiffOptions where
  mode : Mode
  keepRowIds : Bool
  stringify : Bool
  includeSkipChange : Bool

namespace Diff

/-- A changed value as it is reported: arrays and objects as JSON texts if asked for, and null at
the top level as the empty text. -/
def reported (options : DiffOptions) (atTop : Bool) (v : Json) : Json :=
  match v with
  | .array _ | .object _ => if options.stringify then .text v.compact else v
  | .null => if atTop then .text "" else .null
  | v => v

def report (options : DiffOptions) (atTop : Bool) (id : String) (v : Json) :
    List (String × Json) :=
  [(id, reported options atTop v)]

/-- Rows under a name, none if there are none. -/
def partition (options : DiffOptions) (name : String) (rows : List Json) : Dictionary Json :=
  if rows.isEmpty then [] else [(name, RowId.drop options.keepRowIds (.array rows))]

/-- A changed row as it is reported: its changes laid over its id attribute, or over the whole row
if it has none. -/
def changedRow (schema : SchemaTraits) (row : Json) (changes : List (String × Json)) : Json :=
  let base := match row.get? schema.idAttribute with
    | some id => [(schema.idAttribute, id)]
    | none => row.members?.getD []
  .object (Dictionary.overlay base changes)

/-- The report of a collection when a document is edited. -/
def partitions (options : DiffOptions) (atTop : Bool) (id : String) (diff : RowDiff)
    (changed : List Json) : List (String × Json) :=
  let parts := Dictionary.overlay [] (partition options "added" diff.added ++
    partition options "deleted" diff.removed ++ partition options "changed" changed)
  if parts.isEmpty then [] else report options atTop id (.object parts)

/-- Whether a collection that is reported as a whole has changed: a row was added, removed or
changed, or the rows are in another order and may be reordered. Rows added to a collection with
fixed rows do not count. -/
def collectionChanged (mode : Mode) (schema : SchemaTraits) (t : FieldTraits)
    (rows : CollectionTraits) (id : String) (original current : Json) : Bool :=
  let diff := RowDiff.of (original.rows id) (current.rows id)
  let structural :=
    if rows.fixedRows.isSome then !diff.updated.isEmpty || !diff.removed.isEmpty
    else !diff.isEmpty
  structural ||
    (t.attrOr "canReorder" ⟨schema.idAttribute, current, .ofMode mode⟩ false &&
      (original.rows id).map RowId.of? != (current.rows id).map RowId.of?)

mutual

/-- What a field reports, in order. -/
def fieldReports (options : DiffOptions) (schema : SchemaTraits) (atTop : Bool)
    (original current : Json) : Field → List (String × Json)
  | .nested _ _ fields child => levelReports options child atTop original current fields
  | .collection t fields child rows =>
    match t.id with
    | none => []
    | some id =>
      if options.mode = .edit then
        if Json.same? (original.get? id) (current.get? id) then
          []
        else
          let before := original.rows id
          let diff := RowDiff.of before (current.rows id)
          let changed := diff.updated.filterMap fun row =>
            (RowDiff.counterpart? before row).bind fun old =>
              let changes := levelReports options child false old row fields
              if changes.isEmpty then none else some (changedRow child row changes)
          partitions options atTop id diff changed
      else if collectionChanged options.mode schema t rows id original current then
        report options atTop id
          (RowId.drop options.keepRowIds ((current.get? id).getD (.array [])))
      else
        []
  | .input t _ | .group t _ =>
    match t.id with
    | none => []
    | some id =>
      if options.mode = .edit ∧ Json.same? (original.get? id) (current.get? id) then
        []
      else if Json.alike? (original.get? id) (current.get? id) then
        []
      else
        report options atTop id ((current.get? id).getD .null)

def levelReports (options : DiffOptions) (schema : SchemaTraits) (atTop : Bool)
    (original current : Json) : List Field → List (String × Json)
  | [] => []
  | f :: rest =>
    (if f.traits.isTracked options.mode options.includeSkipChange then
      fieldReports options schema atTop original current f
    else
      []) ++ levelReports options schema atTop original current rest

end

end Diff

/-- The change set of two documents. Of several reports of one id the last counts. -/
def Schema.diff (s : Schema) (options : DiffOptions) (original current : Json) : Dictionary Json :=
  .ofPairs (Diff.levelReports options s.traits true original current s.fields)

end SchemaForm
