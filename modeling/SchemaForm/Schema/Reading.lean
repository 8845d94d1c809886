import SchemaForm.Json.Text
import SchemaForm.Schema.Description

set_option autoImplicit false
set_option relaxedAutoImplicit false

/-!
Reading descriptions of schemas from the parts of a JSON text. A schema is an object, or an array of
its fields in order; a field is an object. A known member must not be repeated. Further members of a
schema are skipped unread, further members of a field are its attributes.
-/

namespace SchemaForm

namespace Mode

/-- Reads a mode: its name, or an object with the name as its only member, written once, and
null. -/
def ofPart? (depth : Nat) : JsonText → Option Mode
  | .text (some name) => ofText? name
  | .object [(some name, .null)] => if depth = 0 then none else ofText? name
  | _ => none

def listOfPart? (depth : Nat) : JsonText → Option (List Mode)
  | .array items => if depth = 0 then none else items.mapM (ofPart? (depth - 1))
  | _ => none

end Mode

namespace FieldHead

/-- The members with a meaning of their own, but for the modes and the schema. -/
def knownKeys : List String :=
  ["id", "type", "label", "group", "serverType", "min_version", "max_version", "noEmpty",
    "noEmptyLabel", "exclude", "skipChange", "min", "max", "uniqueCol", "fixedRows", "columns"]

/-- Decodes what is said about a field, given its modes. -/
def ofMembers? (known : Dictionary Json) (modes : List Mode) (attrs : Dictionary Json) :
    Option FieldHead := do
  let member {α : Type} (key : String) (absent : α) (decode : Json → Option α) : Option α :=
    Json.field? absent decode (Dictionary.get? known key)
  return {
    id := ← member "id" none (Json.nullable? Json.text?)
    kind := ← member "type" "" Json.text?
    label := ← member "label" none (Json.nullable? Json.text?)
    group := ← member "group" none (Json.nullable? Json.text?)
    modes := modes
    serverTypes := ← member "serverType" [] (Json.listOf? Json.text?)
    minVersion := ← member "min_version" none (Json.nullable? (Json.natBelow? (2 ^ 32)))
    maxVersion := ← member "max_version" none (Json.nullable? (Json.natBelow? (2 ^ 32)))
    noEmpty := ← member "noEmpty" false Json.bool?
    emptyLabel := ← member "noEmptyLabel" none (Json.nullable? Json.text?)
    excluded := ← member "exclude" false Json.bool?
    skipChange := ← member "skipChange" false Json.bool?
    min := ← member "min" none (Json.nullable? Json.real?)
    max := ← member "max" none (Json.nullable? Json.real?)
    uniqueColumns := ← member "uniqueCol" [] (Json.listOf? Json.text?)
    fixedRows := ← member "fixedRows" none (Json.nullable? Json.items?)
    columns := ← member "columns" none (Json.nullable? (Json.listOf? Json.text?))
    attrs := attrs }

end FieldHead

/-- What has been read of a schema: each member once at most. -/
structure SchemaSoFar where
  idAttribute : Option (Option String)
  defaults : Option (Dictionary Json)
  fields : Option (List FieldDescription)

namespace SchemaSoFar

def start : SchemaSoFar := ⟨none, none, none⟩

/-- The description read, with what is said by default. -/
def finish (s : SchemaSoFar) : SchemaDescription :=
  ⟨⟨s.idAttribute.getD none, s.defaults.getD []⟩, s.fields.getD []⟩

end SchemaSoFar

/-- What has been read of a field: the known members but for two, its modes, the other members, and
the schema. -/
structure FieldSoFar where
  known : List (String × Json)
  modes : Option (List Mode)
  attrs : List (String × Json)
  child : Option (Option SchemaDescription)

namespace FieldSoFar

def start : FieldSoFar := ⟨[], none, [], none⟩

/-- Adds a member other than the modes and the schema. -/
def add? (f : FieldSoFar) (key : String) (value : Json) : Option FieldSoFar :=
  if FieldHead.knownKeys.contains key then
    if Dictionary.has f.known key then none else some { f with known := (key, value) :: f.known }
  else
    some { f with attrs := f.attrs ++ [(key, value)] }

def finish? (f : FieldSoFar) : Option FieldDescription :=
  let attrs := Dictionary.ofPairs f.attrs
  (FieldHead.ofMembers? f.known (f.modes.getD []) attrs).map fun head =>
    match f.child with
    | some (some schema) => .parent head schema.head schema.fields
    | _ => .leaf head

end FieldSoFar

namespace SchemaDescription

mutual

def ofText? (depth : Nat) : JsonText → Option SchemaDescription
  | .object members =>
    match depth with
    | 0 => none
    | depth + 1 => (members? depth .start members).map SchemaSoFar.finish
  | .array items =>
    match depth with
    | 0 => none
    | depth + 1 => (positions? depth items).map SchemaSoFar.finish
  | _ => none

/-- Reads a schema or null. -/
def nullable? (depth : Nat) : JsonText → Option (Option SchemaDescription)
  | .null => some none
  | .object members => (ofText? depth (.object members)).map some
  | .array items => (ofText? depth (.array items)).map some
  | _ => none

def members? (depth : Nat) (soFar : SchemaSoFar) :
    List (Option String × JsonText) → Option SchemaSoFar
  | [] => some soFar
  | (none, _) :: _ => none
  | (some key, t) :: rest =>
    if key = "idAttribute" then
      if soFar.idAttribute.isSome then none
      else do
        let id ← Json.nullable? Json.text? (← t.toJson? depth)
        members? depth { soFar with idAttribute := some id } rest
    else if key = "defaults" then
      if soFar.defaults.isSome then none
      else do
        let defaults ← (← t.toJson? depth).members?
        members? depth { soFar with defaults := some defaults } rest
    else if key = "fields" then
      if soFar.fields.isSome then none
      else do
        let fields ← fields? depth t
        members? depth { soFar with fields := some fields } rest
    else
      members? depth soFar rest

/-- Reads a schema given as an array. -/
def positions? (depth : Nat) : List JsonText → Option SchemaSoFar
  | [] => some .start
  | [id] => do
    return { SchemaSoFar.start with
      idAttribute := some (← Json.nullable? Json.text? (← id.toJson? depth)) }
  | [id, defaults] => do
    return { SchemaSoFar.start with
      idAttribute := some (← Json.nullable? Json.text? (← id.toJson? depth))
      defaults := some (← (← defaults.toJson? depth).members?) }
  | [id, defaults, fields] => do
    return ⟨some (← Json.nullable? Json.text? (← id.toJson? depth)),
      some (← (← defaults.toJson? depth).members?), some (← fields? depth fields)⟩
  | _ => none

def fields? (depth : Nat) : JsonText → Option (List FieldDescription)
  | .array items =>
    match depth with
    | 0 => none
    | depth + 1 => fieldItems? depth items
  | _ => none

def fieldItems? (depth : Nat) : List JsonText → Option (List FieldDescription)
  | [] => some []
  | t :: rest => do return (← field? depth t) :: (← fieldItems? depth rest)

def field? (depth : Nat) : JsonText → Option FieldDescription
  | .object members =>
    match depth with
    | 0 => none
    | depth + 1 => (fieldMembers? depth .start members).bind FieldSoFar.finish?
  | _ => none

def fieldMembers? (depth : Nat) (soFar : FieldSoFar) :
    List (Option String × JsonText) → Option FieldSoFar
  | [] => some soFar
  | (none, _) :: _ => none
  | (some key, t) :: rest =>
    if key = "schema" then
      if soFar.child.isSome then none
      else do
        let child ← nullable? depth t
        fieldMembers? depth { soFar with child := some child } rest
    else if key = "mode" then
      if soFar.modes.isSome then none
      else do
        let modes ← Mode.listOfPart? depth t
        fieldMembers? depth { soFar with modes := some modes } rest
    else do
      let value ← t.toJson? depth
      let soFar ← soFar.add? key value
      fieldMembers? depth soFar rest

end

def parse? (s : String) : Option SchemaDescription :=
  (JsonText.parse? s).bind (ofText? JsonText.maxDepth)

def ofJson? (v : Json) : Option SchemaDescription := ofText? JsonText.maxDepth (.ofJson v)

end SchemaDescription

end SchemaForm
