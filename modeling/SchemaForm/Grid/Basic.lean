import SchemaForm.Form.Basic
import SchemaForm.Grid.Feature

set_option autoImplicit false
set_option relaxedAutoImplicit false

/-!
Grids show one collection of a form as a table. A grid does not hold the rows: it reads them and
their options from the form's stores, and changes them by actions on the form, as far as the options
allow.
-/

namespace SchemaForm

/-- The field of a collection. -/
structure CollectionField where
  traits : FieldTraits
  fields : List Field
  schema : SchemaTraits
  rows : CollectionTraits

/-- A grid: the collection at a path, the features in their order, what they made of the table at
the last refresh, the text to search for, and the identities of the rows open for editing. -/
structure Grid where
  path : Path
  collection : CollectionField
  features : List FeatureEntry
  columns : List Column
  settings : TableSettings
  search : String
  expanded : List String

/-- There is no collection at a path. -/
structure NotACollection where
  path : Path
  deriving DecidableEq

namespace NotACollection

def message (e : NotACollection) : String := "no collection field at `" ++ e.path.flat ++ "`"

end NotACollection

namespace CollectionField

def ofField? : Field → Option CollectionField
  | .collection t fields schema rows => some ⟨t, fields, schema, rows⟩
  | _ => none

/-- The column of a field, if it is an input with an id. -/
def column? (f : Field) : Option Column :=
  if f.isInput then f.id?.map fun id => .ofField id f.traits.displayLabel else none

/-- The columns of the fields of the rows: those that are asked for, in that order, or all. -/
def columns (c : CollectionField) : List Column :=
  match c.rows.columns with
  | some wanted =>
    wanted.filterMap fun id => ((⟨c.fields, c.schema⟩ : Schema).field? id).bind column?
  | none => c.fields.filterMap column?

mutual

/-- The field of an id within a field: itself, or one of a nested schema. -/
def fieldWithin? (id : String) : Field → Option Field
  | .nested t style fields schema =>
    if t.id = some id then some (.nested t style fields schema) else fieldAmong? id fields
  | .input t kind => if t.id = some id then some (.input t kind) else none
  | .group t inline => if t.id = some id then some (.group t inline) else none
  | .collection t fields schema rows =>
    if t.id = some id then some (.collection t fields schema rows) else none

/-- The first field of an id on a data level. -/
def fieldAmong? (id : String) : List Field → Option Field
  | [] => none
  | f :: rest => (fieldWithin? id f).or (fieldAmong? id rest)

end

/-- The collection at the end of a list of segments, in which ids of collections and positions of
rows take turns. -/
def find? (fields : List Field) : List Segment → Option CollectionField
  | [.key id] => (fieldAmong? id fields).bind ofField?
  | .key id :: .index _ :: rest =>
    ((fieldAmong? id fields).bind ofField?).bind fun c => find? c.fields rest
  | _ => none

end CollectionField

namespace Grid

open OptionName

def ofPath (s : Schema) (p : Path) (r : FeatureRegistry) : Except NotACollection Grid :=
  match CollectionField.find? s.fields p.segments with
  | some c => .ok ⟨p, c, r.ordered, c.columns, .plain, "", []⟩
  | none => .error ⟨p⟩

def label (g : Grid) : String := g.collection.traits.displayLabel

/-- The options of the collection, null when it has none. -/
def collectionOptions (g : Grid) (f : Form) : Json := f.options.state.valueAtOrNull g.path

def rows (g : Grid) (f : Form) : List Json := f.data.state.rowsAt g.path

/-- The options of a row of a collection, null when it has none. -/
def rowOptions (options : Json) (position : Nat) : Json :=
  (options.get? (Nat.repr position)).getD .null

/-- Whether a row's option counts as true; an absent one does. -/
def rowAllows (options : Json) (position : Nat) (name : String) : Bool :=
  (rowOptions options position).flagOr name true

def withSearch (g : Grid) (search : String) : Grid := { g with search := search }

/-- Makes columns and settings anew from the options. -/
def refresh (g : Grid) (f : Form) : Grid :=
  let options := g.collectionOptions f
  let ctx : TableContext :=
    ⟨options, f.view, g.collection.rows, (g.rows f).length, g.search⟩
  { g with
    columns := g.features.foldl (fun columns e => e.feature.addColumns options columns)
      g.collection.columns
    settings := g.features.foldl (fun t e => e.feature.setUp ctx t) .plain }

def cell (row options : Json) (column : String) : GridCell :=
  let own := (options.get? column).getD .null
  ⟨column, (row.get? column).getD .null, own.flagOr visible true, own.flagOr editable true,
    own.flag readonly⟩

/-- A row as it is shown, none when it is hidden. -/
def renderRow? (g : Grid) (options : Json) (position : Nat) (row : Json) : Option GridRow :=
  let options := rowOptions options position
  let ctx : RowContext := ⟨position, row, options, g.settings, g.columns, g.expanded⟩
  let decoration := g.features.foldl (fun d e => e.feature.decorate ctx d) .plain
  if decoration.hidden then
    none
  else
    some ⟨position, RowId.of? row, (g.columns.filterMap Column.fieldId?).map (cell row options),
      decoration⟩

/-- The rows as they are shown. The grid is to be refreshed before. -/
def rendered (g : Grid) (f : Form) : List GridRow :=
  let options := g.collectionOptions f
  (g.rows f).zipIdx.filterMap fun (row, n) => g.renderRow? options n row

def expand (g : Grid) (id : String) : Grid :=
  if g.expanded.contains id then g else { g with expanded := g.expanded ++ [id] }

def collapse (g : Grid) (id : String) : Grid :=
  { g with expanded := g.expanded.filter fun other => other != id }

/-- The answer to an attempt: whether it succeeded, the grid and the form after it. -/
structure Attempt where
  succeeded : Bool
  grid : Grid
  form : Form

/-- Adds a row of the defaults of its schema, if the options allow it. -/
def addRow (g : Grid) (f : Form) : Attempt :=
  let options := g.collectionOptions f
  if options.flag canAddRow then
    let onTop := options.flag addOnTop
    let row := (⟨g.collection.fields, g.collection.schema⟩ : Schema).newRow .null
    let f := f.dispatch (.addRow g.path row onTop)
    let g := g.refresh f
    if options.flag expandEditOnAdd && g.settings.expandable then
      let rows := g.rows f
      match ((if onTop then rows.head? else rows.getLast?).bind RowId.of?) with
      | some id => ⟨true, g.expand id, f⟩
      | none => ⟨true, g, f⟩
    else
      ⟨true, g, f⟩
  else
    ⟨false, g, f⟩

/-- Deletes a row, if the table allows it, the row is not fixed and its own options allow it. -/
def deleteRow (g : Grid) (f : Form) (position : Nat) : Attempt :=
  let g := g.refresh f
  match (g.rows f)[position]? with
  | none => ⟨false, g, f⟩
  | some row =>
    if g.settings.deletable && g.settings.fixedRows ≤ position &&
        rowAllows (g.collectionOptions f) position canDeleteRow then
      let g := match RowId.of? row with
        | some id => g.collapse id
        | none => g
      ⟨true, g, f.dispatch (.deleteRow g.path position)⟩
    else
      ⟨false, g, f⟩

/-- Moves a row to another position, if the table allows it and neither is that of a fixed row. -/
def moveRow (g : Grid) (f : Form) (source target : Nat) : Attempt :=
  let g := g.refresh f
  let count := (g.rows f).length
  let allowed := g.settings.reorderable && source != target && source < count && target < count &&
    g.settings.fixedRows ≤ source && g.settings.fixedRows ≤ target
  ⟨allowed, g, if allowed then f.dispatch (.moveRow g.path source target) else f⟩

/-- Opens a row for editing, or closes it: whether it is open now, and the grid. -/
def toggleExpanded (g : Grid) (f : Form) (position : Nat) : Bool × Grid :=
  let g := g.refresh f
  match ((g.rows f)[position]?).bind RowId.of? with
  | none => (false, g)
  | some id =>
    if g.settings.expandable && rowAllows (g.collectionOptions f) position canEditRow then
      if g.expanded.contains id then (false, g.collapse id) else (true, g.expand id)
    else
      (false, g)

def isExpanded (g : Grid) (f : Form) (position : Nat) : Bool :=
  (((g.rows f)[position]?).bind RowId.of?).any fun id => g.expanded.contains id

def setCell (g : Grid) (position : Nat) (column : String) (value : Json) : Action :=
  .setValue ((g.path.index position).key column) value

/-- Writes a cell, if it has options and these allow it. -/
def changeCell (g : Grid) (f : Form) (position : Nat) (column : String) (value : Json) :
    Bool × Form :=
  let own := ((rowOptions (g.collectionOptions f) position).get? column).getD .null
  if own.isNull || own.flag readonly || !own.flagOr editable true then
    (false, f)
  else
    (true, f.dispatch (g.setCell position column value))

/-- Sets a column to true in one row and to false in all others. -/
def setExclusive (g : Grid) (f : Form) (position : Nat) (column : String) : Form :=
  (f.dispatch (.bulkUpdate g.path column)).dispatch (g.setCell position column (.bool true))

end Grid

end SchemaForm
