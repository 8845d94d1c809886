import SchemaForm.Grid.Table
import SchemaForm.Options.Builtin
import SchemaForm.RowId
import SchemaForm.Text.Blank
import SchemaForm.Text.Lowercase

set_option autoImplicit false
set_option relaxedAutoImplicit false

/-!
The features of a grid. Each may add columns, change the settings of the table and decorate rows. A
registry gives features names and priorities; they take effect by falling priority, and of one
priority in the order of their names.
-/

namespace SchemaForm

inductive GridFeature where
  /-- Rows can be dragged to another place. -/
  | reorder
  /-- Rows can be opened for editing. -/
  | expandableEdit
  /-- Rows can be deleted. -/
  | deleteRow
  /-- The rows a collection starts with stay in place while a document is made. -/
  | fixedRows
  /-- Only rows that hold a text are shown. -/
  | globalSearch
  /-- Nothing at all. -/
  | inert
  deriving DecidableEq

/-- What a feature may look at when it sets up a table. -/
structure TableContext where
  options : Json
  view : View
  collection : CollectionTraits
  rowCount : Nat
  search : String

/-- What a feature may look at when it decorates a row. -/
structure RowContext where
  position : Nat
  row : Json
  options : Json
  settings : TableSettings
  columns : List Column
  expanded : List String

namespace RowContext

/-- Whether an option of the row counts as true; an absent one does. -/
def allows (ctx : RowContext) (name : String) : Bool := ctx.options.flagOr name true

def isExpanded (ctx : RowContext) : Bool :=
  (RowId.of? ctx.row).any fun id => ctx.expanded.contains id

end RowContext

namespace GridFeature

open OptionName

/-- The text a value is searched in. -/
def searchText? : Json → Option String
  | .null => none
  | v => some v.unquoted

/-- Whether a field of the row that has a column holds a text in lower case. -/
def matchesSearch (ctx : RowContext) (needle : String) : Bool :=
  (ctx.columns.filterMap Column.fieldId?).any fun id =>
    ((ctx.row.get? id).bind searchText?).any fun s => Text.contains (Text.toLower s) needle

def addColumns (feature : GridFeature) (options : Json) (columns : List Column) : List Column :=
  let button (name id : String) (kind : ColumnKind) : List Column :=
    if options.flag name then Column.insertButton columns (.button id kind) else columns
  match feature with
  | .reorder => button canReorder "btn-reorder" .reorderHandle
  | .expandableEdit => button canEdit "btn-edit" .editToggle
  | .deleteRow => button canDelete "btn-delete" .deleteButton
  | .fixedRows | .globalSearch | .inert => columns

def setUp (feature : GridFeature) (ctx : TableContext) (t : TableSettings) : TableSettings :=
  match feature with
  | .reorder => { t with reorderable := ctx.options.flag canReorder }
  | .expandableEdit => { t with expandable := ctx.options.flag canEdit }
  | .deleteRow => { t with deletable := ctx.options.flag canDelete }
  | .fixedRows =>
    let count := match ctx.collection.fixedRows, ctx.view.mode with
      | some rows, .create => min rows.length ctx.rowCount
      | _, _ => 0
    { t with fixedRows := count }
  | .globalSearch =>
    let needle := Text.trim ctx.search
    { t with
      search := if ctx.options.flag canSearch && needle != "" then some (Text.toLower needle)
        else none }
  | .inert => t

def decorate (feature : GridFeature) (ctx : RowContext) (d : RowDecoration) : RowDecoration :=
  match feature with
  | .reorder =>
    if ctx.settings.reorderable then
      { d with draggable := true, dropTarget := true }.withClass "reorderable"
    else
      d
  | .expandableEdit =>
    if ctx.settings.expandable then
      let d := { d with canEdit := ctx.allows canEditRow, expanded := ctx.isExpanded }
      if ctx.isExpanded then d.withClass "expanded" else d
    else
      d
  | .deleteRow => { d with canDelete := ctx.settings.deletable && ctx.allows canDeleteRow }
  | .fixedRows =>
    if ctx.position < ctx.settings.fixedRows then
      { d with canDelete := false, draggable := false, dropTarget := false }.withClass "fixed-row"
    else
      d
  | .globalSearch =>
    match ctx.settings.search with
    | some needle => { d with hidden := !matchesSearch ctx needle }
    | none => d
  | .inert => d

def ofName : String → GridFeature
  | "reorder" => .reorder
  | "expandable-edit" => .expandableEdit
  | "delete-row" => .deleteRow
  | "fixed-rows" => .fixedRows
  | "global-search" => .globalSearch
  | _ => .inert

end GridFeature

structure FeatureEntry where
  name : String
  priority : Int
  feature : GridFeature
  deriving DecidableEq

structure FeatureRegistry where
  entries : List FeatureEntry
  deriving DecidableEq

/-- A name is taken already. -/
structure DuplicateFeature where
  name : String
  deriving DecidableEq

namespace DuplicateFeature

def message (e : DuplicateFeature) : String :=
  "grid feature `" ++ e.name ++ "` is already registered"

end DuplicateFeature

namespace FeatureEntry

/-- Whether a feature takes effect no later than another one. -/
def notAfter (a b : FeatureEntry) : Bool :=
  b.priority < a.priority || (a.priority == b.priority && a.name ≤ b.name)

end FeatureEntry

namespace FeatureRegistry

def empty : FeatureRegistry := ⟨[]⟩

def has (r : FeatureRegistry) (name : String) : Bool := r.entries.any fun e => e.name == name

/-- Registers a feature under a name that is not taken. -/
def register (r : FeatureRegistry) (e : FeatureEntry) : Except DuplicateFeature FeatureRegistry :=
  if r.has e.name then .error ⟨e.name⟩ else .ok ⟨r.entries ++ [e]⟩

def erase (r : FeatureRegistry) (name : String) : FeatureRegistry :=
  ⟨r.entries.filter fun e => e.name != name⟩

/-- Registers a feature under a name, in place of what had the name before. -/
def replace (r : FeatureRegistry) (e : FeatureEntry) : FeatureRegistry :=
  ⟨(r.erase e.name).entries ++ [e]⟩

def size (r : FeatureRegistry) : Nat := r.entries.length

/-- The features in the order in which they take effect. -/
def ordered (r : FeatureRegistry) : List FeatureEntry := r.entries.mergeSort FeatureEntry.notAfter

def names (r : FeatureRegistry) : List String := r.ordered.map FeatureEntry.name

/-- The registry every grid starts from. -/
def builtin : FeatureRegistry :=
  ⟨[⟨"reorder", 4, .reorder⟩, ⟨"expandable-edit", 3, .expandableEdit⟩,
    ⟨"delete-row", 2, .deleteRow⟩, ⟨"fixed-rows", 1, .fixedRows⟩,
    ⟨"global-search", 0, .globalSearch⟩]⟩

end FeatureRegistry

end SchemaForm
