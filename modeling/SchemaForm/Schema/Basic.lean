import SchemaForm.Json.Equality
import SchemaForm.Path.Basic
import SchemaForm.Schema.View

set_option autoImplicit false
set_option relaxedAutoImplicit false

/-!
Schemas describe the shape of documents. A schema is a list of fields with traits of its own. A
field is an input, a heading of a group, a nested schema on the same data level, or a collection of
rows with a schema for its rows. Expressions, checks and recomputations are functions.
-/

namespace SchemaForm

/-- What an attribute expression may look at: the id attribute of the schema, the data at its level,
and the view. A whole schema would hold the expression itself. An expression belongs to one field,
so what else it asks of the schema around this field is fixed, and is part of the function. A
collection and its rows, whose schemas are two, are told apart by evaluators, which are handed the
whole schema. -/
structure ExprContext where
  idAttribute : String
  value : Json
  view : View

/-- An attribute expression. -/
inductive Expr where
  | literal (value : Json)
  | computed (f : ExprContext → Json)

inductive ActionKind where
  | init | setValue | addRow | deleteRow | moveRow | bulkUpdate | clearDeferredQueue
  | deferredDepChange
  deriving DecidableEq

/-- What set off a recomputation: the action's kind, its path and value, and the document before
it. -/
structure ActionContext where
  kind : ActionKind
  path : Path
  value : Option Json
  before : Json

/-- A recomputation, from the data at the destination's level, the source path, the document and
the action. Its answer is laid over the destination's level. -/
abbrev Recompute := Json → Path → Json → ActionContext → Option (Dictionary Json)

/-- A recomputation that is ready only after a delay. -/
structure Deferral where
  delay : Nat
  recompute : Recompute

/-- Starts a deferred recomputation, or none. -/
abbrev Defer := Json → Path → Json → ActionContext → Option Deferral

/-- A dependency of a field: on a field of its own data level, or on any location. -/
inductive Dependency where
  | sibling (id : String)
  | absolute (path : Path)
  deriving DecidableEq

/-- Which values an input takes. Bounds are finite: a description of a schema is JSON, which has no
other numbers. -/
inductive InputKind where
  | text | multiline | password
  | int (min max : Option Binary64)
  | numeric (min max : Option Binary64)
  | switch | checkbox | select | date | sql
  deriving DecidableEq

/-- What all fields have in common. -/
structure FieldTraits where
  id : Option String
  label : Option String
  group : Option String
  modes : List Mode
  serverTypes : List String
  minVersion : Option Nat
  maxVersion : Option Nat
  noEmpty : Bool
  emptyLabel : Option String
  excluded : Bool
  skipChange : Bool
  attrs : Dictionary Expr
  dependencies : List Dependency
  recompute : Option Recompute
  defer : Option Defer

/-- What a schema has beside its fields. A validator reports messages at paths, an initialiser
completes a document. -/
structure SchemaTraits where
  idAttribute : String
  defaults : Dictionary Json
  validator : Option (Json → List (Path × String))
  initialiser : Option (Json → Json)

/-- What a collection has beside the schema of its rows: the columns no two rows may agree on, the
rows it starts with and keeps, and the columns it shows. -/
structure CollectionTraits where
  uniqueColumns : List String
  fixedRows : Option (List Json)
  columns : Option (List String)

inductive NestedStyle where
  | tab
  | fieldset
  deriving DecidableEq

inductive Field where
  | input (traits : FieldTraits) (kind : InputKind)
  | group (traits : FieldTraits) (inline : Bool)
  | nested (traits : FieldTraits) (style : NestedStyle) (fields : List Field)
      (schema : SchemaTraits)
  | collection (traits : FieldTraits) (fields : List Field) (schema : SchemaTraits)
      (rows : CollectionTraits)

/-- A description of documents. -/
structure Schema where
  fields : List Field
  traits : SchemaTraits

namespace Expr

def eval (e : Expr) (ctx : ExprContext) : Json :=
  match e with
  | .literal v => v
  | .computed f => f ctx

end Expr

namespace ActionKind

def text : ActionKind → String
  | .init => "INIT"
  | .setValue => "SET_VALUE"
  | .addRow => "ADD_ROW"
  | .deleteRow => "DELETE_ROW"
  | .moveRow => "MOVE_ROW"
  | .bulkUpdate => "BULK_UPDATE"
  | .clearDeferredQueue => "CLEAR_DEFERRED_QUEUE"
  | .deferredDepChange => "DEFERRED_DEPCHANGE"

def all : List ActionKind :=
  [.init, .setValue, .addRow, .deleteRow, .moveRow, .bulkUpdate, .clearDeferredQueue,
    .deferredDepChange]

def ofText? (name : String) : Option ActionKind := all.find? fun kind => kind.text == name

end ActionKind

namespace Dependency

/-- The location a dependency means for a field whose data level is given. -/
def resolve (access : Path) : Dependency → Path
  | .sibling id => access.key id
  | .absolute path => path

end Dependency

namespace InputKind

def name : InputKind → String
  | .text => "text"
  | .multiline => "multiline"
  | .password => "password"
  | .int _ _ => "int"
  | .numeric _ _ => "numeric"
  | .switch => "switch"
  | .checkbox => "checkbox"
  | .select => "select"
  | .date => "datetimepicker"
  | .sql => "sql"

end InputKind

namespace FieldTraits

/-- The traits of a field about which nothing is said. -/
def plain : FieldTraits where
  id := none
  label := none
  group := none
  modes := []
  serverTypes := []
  minVersion := none
  maxVersion := none
  noEmpty := false
  emptyLabel := none
  excluded := false
  skipChange := false
  attrs := []
  dependencies := []
  recompute := none
  defer := none

/-- The label to show: the field's own, else its id. -/
def displayLabel (t : FieldTraits) : String := (t.label.or t.id).getD ""

/-- Whether the field takes part in a mode. -/
def supportsMode (t : FieldTraits) (mode : Mode) : Bool := t.modes.isEmpty || t.modes.contains mode

/-- Whether the field exists on the view's server. It does when no server is known. -/
def supportsServer (t : FieldTraits) (view : View) : Bool :=
  match view.server with
  | none => true
  | some server =>
    (t.serverTypes.isEmpty || t.serverTypes.contains server.type) &&
      (t.minVersion.all fun min => min ≤ server.version) &&
      (t.maxVersion.all fun max => server.version ≤ max)

def attr? (t : FieldTraits) (name : String) (ctx : ExprContext) : Option Json :=
  (Dictionary.get? t.attrs name).map fun e => e.eval ctx

/-- Whether an attribute counts as true, with an answer for an absent one. -/
def attrOr (t : FieldTraits) (name : String) (ctx : ExprContext) (absent : Bool) : Bool :=
  ((t.attr? name ctx).map Json.truthy).getD absent

/-- Whether the field is part of the change set in a mode. -/
def isTracked (t : FieldTraits) (mode : Mode) (includeSkipChange : Bool) : Bool :=
  !t.excluded && (!t.skipChange || includeSkipChange) && t.supportsMode mode

end FieldTraits

namespace SchemaTraits

/-- The id attribute of a schema that names none. -/
def defaultIdAttribute : String := "oid"

def plain : SchemaTraits := ⟨defaultIdAttribute, [], none, none⟩

/-- What the validator reports about data, in order. -/
def reports (t : SchemaTraits) (data : Json) : List (Path × String) :=
  match t.validator with
  | some f => f data
  | none => []

end SchemaTraits

namespace Field

def traits : Field → FieldTraits
  | .input t _ => t
  | .group t _ => t
  | .nested t _ _ _ => t
  | .collection t _ _ _ => t

def id? (f : Field) : Option String := f.traits.id

def withTraits (f : Field) (t : FieldTraits) : Field :=
  match f with
  | .input _ kind => .input t kind
  | .group _ inline => .group t inline
  | .nested _ style fields schema => .nested t style fields schema
  | .collection _ fields schema rows => .collection t fields schema rows

def typeName : Field → String
  | .input _ kind => kind.name
  | .group _ false => "group"
  | .group _ true => "inline-groups"
  | .nested _ .tab _ _ => "nested-tab"
  | .nested _ .fieldset _ _ => "nested-fieldset"
  | .collection _ _ _ _ => "collection"

def isInput : Field → Bool
  | .input _ _ => true
  | _ => false

def isGroup : Field → Bool
  | .group _ _ => true
  | _ => false

/-- The rows a collection is to keep. -/
def fixedRows? : Field → Option (List Json)
  | .collection _ _ _ rows => rows.fixedRows
  | _ => none

end Field

namespace Schema

def field? (s : Schema) (id : String) : Option Field := s.fields.find? fun f => f.id? == some id

/-- Whether data at this schema's level was never stored: its id attribute is absent or null. -/
def isNew (s : Schema) (data : Json) : Bool := ((data.get? s.traits.idAttribute).getD .null).isNull

/-- A row with the given data, the defaults standing in for what it lacks. -/
def newRow (s : Schema) (data : Json) : Json := .merge [.object s.traits.defaults, data]

def initialised (s : Schema) (data : Json) : Json :=
  match s.traits.initialiser with
  | some f => f data
  | none => data

end Schema

end SchemaForm
