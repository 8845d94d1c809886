import SchemaForm.Json.Basic

set_option autoImplicit false
set_option relaxedAutoImplicit false

/-!
What a grid shows: its columns, the settings of the table, and its rows with their cells.
-/

namespace SchemaForm

/-- What a column holds: a button, or a field of the rows. -/
inductive ColumnKind where
  | reorderHandle
  | editToggle
  | deleteButton
  | field (id : String)
  deriving DecidableEq

structure Column where
  id : String
  header : String
  kind : ColumnKind
  resizable : Bool
  sortable : Bool
  width : Option Nat
  deriving DecidableEq

/-- The settings of a table: what may be done with its rows, how many of the first rows are fixed,
and the text in lower case that rows must hold to be shown. -/
structure TableSettings where
  reorderable : Bool
  expandable : Bool
  deletable : Bool
  fixedRows : Nat
  search : Option String
  deriving DecidableEq

/-- How a row is presented. -/
structure RowDecoration where
  classes : List String
  draggable : Bool
  dropTarget : Bool
  canEdit : Bool
  canDelete : Bool
  expanded : Bool
  hidden : Bool
  deriving DecidableEq

structure GridCell where
  column : String
  value : Json
  visible : Bool
  editable : Bool
  readonly : Bool

structure GridRow where
  position : Nat
  id : Option String
  cells : List GridCell
  decoration : RowDecoration

namespace ColumnKind

def toJson : ColumnKind → Json
  | .reorderHandle => .ofPairs [("type", .text "reorder_handle")]
  | .editToggle => .ofPairs [("type", .text "edit_toggle")]
  | .deleteButton => .ofPairs [("type", .text "delete_button")]
  | .field id => .ofPairs [("type", .text "field"), ("field", .text id)]

end ColumnKind

namespace Column

def ofField (id header : String) : Column := ⟨id, header, .field id, true, true, none⟩

/-- A narrow column of buttons. -/
def button (id : String) (kind : ColumnKind) : Column := ⟨id, "", kind, false, false, some 30⟩

def fieldId? (c : Column) : Option String :=
  match c.kind with
  | .field id => some id
  | _ => none

/-- Puts a button behind those already there, in front of the fields. -/
def insertButton (columns : List Column) (c : Column) : List Column :=
  columns.takeWhile (fun other => other.fieldId?.isNone) ++
    c :: columns.dropWhile fun other => other.fieldId?.isNone

def toJson (c : Column) : Json :=
  .ofPairs [("id", .text c.id), ("header", .text c.header), ("kind", c.kind.toJson),
    ("resizable", .bool c.resizable), ("sortable", .bool c.sortable),
    ("width", .ofOption .ofNat c.width)]

end Column

namespace TableSettings

def plain : TableSettings := ⟨false, false, false, 0, none⟩

def toJson (t : TableSettings) : Json :=
  .ofPairs [("reorderable", .bool t.reorderable), ("expandable", .bool t.expandable),
    ("deletable", .bool t.deletable), ("fixed_rows", .ofNat t.fixedRows),
    ("search", .ofOption .text t.search)]

end TableSettings

namespace RowDecoration

def plain : RowDecoration := ⟨[], false, false, false, false, false, false⟩

def withClass (d : RowDecoration) (name : String) : RowDecoration :=
  { d with classes := d.classes ++ [name] }

def members (d : RowDecoration) : List (String × Json) :=
  [("classes", .array (d.classes.map .text)), ("draggable", .bool d.draggable),
    ("drop_target", .bool d.dropTarget), ("can_edit", .bool d.canEdit),
    ("can_delete", .bool d.canDelete), ("expanded", .bool d.expanded), ("hidden", .bool d.hidden)]

end RowDecoration

namespace GridCell

def toJson (c : GridCell) : Json :=
  .ofPairs [("column", .text c.column), ("value", c.value), ("visible", .bool c.visible),
    ("editable", .bool c.editable), ("readonly", .bool c.readonly)]

end GridCell

namespace GridRow

def toJson (r : GridRow) : Json :=
  .ofPairs ([("index", .ofNat r.position), ("cid", .ofOption .text r.id),
    ("cells", .array (r.cells.map GridCell.toJson))] ++ r.decoration.members)

def values (r : GridRow) : Json := .ofPairs (r.cells.map fun cell => (cell.column, cell.value))

end GridRow

end SchemaForm
