import SchemaForm.Schema.Basic

set_option autoImplicit false
set_option relaxedAutoImplicit false

/-!
Declarative descriptions of schemas, whose attributes are literals, and the schemas they describe. A
description is refused for the first field, in depth-first order, that has an unknown type, lacks
the schema its type needs or lacks an id, and then for the first group of its level that repeats an
id.
-/

namespace SchemaForm

/-- What a description says about a field, its child schema apart. -/
structure FieldHead where
  id : Option String
  kind : String
  label : Option String
  group : Option String
  modes : List Mode
  serverTypes : List String
  minVersion : Option Nat
  maxVersion : Option Nat
  noEmpty : Bool
  emptyLabel : Option String
  excluded : Bool
  skipChange : Bool
  min : Option Binary64
  max : Option Binary64
  uniqueColumns : List String
  fixedRows : Option (List Json)
  columns : Option (List String)
  attrs : Dictionary Json

/-- What a description says about a schema, its fields apart. -/
structure SchemaHead where
  idAttribute : Option String
  defaults : Dictionary Json

/-- The description of a field, without or with a child schema. -/
inductive FieldDescription where
  | leaf (head : FieldHead)
  | parent (head : FieldHead) (child : SchemaHead) (fields : List FieldDescription)

structure SchemaDescription where
  head : SchemaHead
  fields : List FieldDescription

/-- Why a description is refused. -/
inductive SchemaError where
  | unknownType (field kind : String)
  | missingSchema (field kind : String)
  | missingId (kind : String)
  | duplicateGroup (id : String)
  deriving DecidableEq

namespace SchemaError

def message : SchemaError → String
  | .unknownType field kind => "field `" ++ field ++ "` has unknown type `" ++ kind ++ "`"
  | .missingSchema field kind =>
    "field `" ++ field ++ "` of type `" ++ kind ++ "` needs a nested `schema`"
  | .missingId kind => "field of type `" ++ kind ++ "` needs an `id`"
  | .duplicateGroup id => "duplicate group id `" ++ id ++ "`"

end SchemaError

/-- What the type of a described field asks for. -/
inductive KindRequest where
  | input (kind : InputKind)
  | group (inline : Bool)
  | nested (style : NestedStyle)
  | collection

namespace FieldHead

/-- What the named type asks for, none for an unknown name. -/
def request? (h : FieldHead) : Option KindRequest :=
  match h.kind with
  | "" | "text" => some (.input .text)
  | "multiline" => some (.input .multiline)
  | "password" => some (.input .password)
  | "int" => some (.input (.int h.min h.max))
  | "numeric" => some (.input (.numeric h.min h.max))
  | "switch" => some (.input .switch)
  | "checkbox" => some (.input .checkbox)
  | "select" => some (.input .select)
  | "datetimepicker" => some (.input .date)
  | "sql" => some (.input .sql)
  | "group" => some (.group false)
  | "inline-groups" => some (.group true)
  | "nested-tab" => some (.nested .tab)
  | "nested-fieldset" => some (.nested .fieldset)
  | "collection" => some .collection
  | _ => none

/-- The traits a description gives a field. A label for emptiness also forbids it. -/
def traits (h : FieldHead) : FieldTraits :=
  { FieldTraits.plain with
    id := h.id
    label := h.label
    group := h.group
    modes := h.modes
    serverTypes := h.serverTypes
    minVersion := h.minVersion
    maxVersion := h.maxVersion
    noEmpty := h.noEmpty || h.emptyLabel.isSome
    emptyLabel := h.emptyLabel
    excluded := h.excluded
    skipChange := h.skipChange
    attrs := h.attrs.map fun (name, value) => (name, .literal value) }

/-- The traits a description gives a collection. -/
def rows (h : FieldHead) : CollectionTraits := ⟨h.uniqueColumns, h.fixedRows, h.columns⟩

def unknownType (h : FieldHead) : SchemaError := .unknownType (h.id.getD "") h.kind

def missingSchema (h : FieldHead) : SchemaError := .missingSchema (h.id.getD "") h.kind

def missingId (h : FieldHead) : SchemaError := .missingId h.kind

/-- Passes a field on if it has an id. -/
def requireId (h : FieldHead) (f : Field) : Except SchemaError Field :=
  if h.id.isSome then .ok f else .error h.missingId

end FieldHead

namespace SchemaHead

/-- The traits a description gives a schema. -/
def traits (h : SchemaHead) : SchemaTraits :=
  { SchemaTraits.plain with
    idAttribute := h.idAttribute.getD SchemaTraits.defaultIdAttribute
    defaults := h.defaults }

end SchemaHead

/-- The ids of the groups of a level. A group without id counts as having the empty one. -/
def groupIds (fields : List Field) : List String :=
  (fields.filter Field.isGroup).map fun f => f.id?.getD ""

/-- The first item that occurs before. -/
def firstRepeated? (seen : List String) : List String → Option String
  | [] => none
  | id :: rest => if seen.contains id then some id else firstRepeated? (id :: seen) rest

/-- Passes the fields of a level on if no two groups share an id. -/
def checkGroups (fields : List Field) : Except SchemaError (List Field) :=
  match firstRepeated? [] (groupIds fields) with
  | some id => .error (.duplicateGroup id)
  | none => .ok fields

mutual

def FieldDescription.build : FieldDescription → Except SchemaError Field
  | .leaf head =>
    match head.request? with
    | none => .error head.unknownType
    | some (.input kind) => head.requireId (.input head.traits kind)
    | some (.group inline) => head.requireId (.group head.traits inline)
    | some (.nested _) | some .collection => .error head.missingSchema
  | .parent head child fields =>
    match head.request? with
    | none => .error head.unknownType
    | some (.input kind) => head.requireId (.input head.traits kind)
    | some (.group inline) => head.requireId (.group head.traits inline)
    | some (.nested style) =>
      match buildLevel fields with
      | .error e => .error e
      | .ok fields =>
        match checkGroups fields with
        | .error e => .error e
        | .ok fields => .ok (.nested head.traits style fields child.traits)
    | some .collection =>
      match buildLevel fields with
      | .error e => .error e
      | .ok fields =>
        match checkGroups fields with
        | .error e => .error e
        | .ok fields => head.requireId (.collection head.traits fields child.traits head.rows)

def FieldDescription.buildLevel : List FieldDescription → Except SchemaError (List Field)
  | [] => .ok []
  | f :: rest =>
    match FieldDescription.build f with
    | .error e => .error e
    | .ok field =>
      match buildLevel rest with
      | .error e => .error e
      | .ok fields => .ok (field :: fields)

end

namespace SchemaDescription

def build (d : SchemaDescription) : Except SchemaError Schema := do
  let fields ← checkGroups (← FieldDescription.buildLevel d.fields)
  return ⟨fields, d.head.traits⟩

end SchemaDescription

end SchemaForm
