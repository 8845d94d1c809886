import SchemaForm.Formula.Recompute
import SchemaForm.Options.Builtin
import SchemaForm.Schema.Reading

set_option autoImplicit false
set_option relaxedAutoImplicit false

/-!
Schemas whose computed parts are written as formulas. Next to the members of a plain description a
field may have computed attributes, dependencies and recomputations, and a schema a validator and an
initialiser; the keys of these begin with a dollar sign. Options may be formulas as well.
-/

namespace SchemaForm

/-- Why a written schema is not accepted: it has not the shape of one, or its description is
refused. -/
inductive WrittenSchemaError where
  | shape
  | refused (e : SchemaError)
  deriving DecidableEq

namespace WrittenSchema

def isComputedKey (key : String) : Bool := ['$'].isPrefixOf key.toList

/-- Whether an object has a computed part of its own. -/
def hasComputedKey (members : List (String × Json)) : Bool :=
  members.any fun member => isComputedKey member.1

mutual

/-- Whether a schema has computed parts, in itself or in its fields. -/
def isComputed : Json → Bool
  | .object members => hasComputedKey members || membersComputed members
  | _ => false

def membersComputed : List (String × Json) → Bool
  | [] => false
  | (k, v) :: rest => (k == "fields" && itemsComputed v) || membersComputed rest

def itemsComputed : Json → Bool
  | .array items => fieldsComputed items
  | _ => false

def fieldsComputed : List Json → Bool
  | [] => false
  | v :: rest => fieldComputed v || fieldsComputed rest

def fieldComputed : Json → Bool
  | .object members => hasComputedKey members || childComputed members
  | _ => false

def childComputed : List (String × Json) → Bool
  | [] => false
  | (k, v) :: rest => (k == "schema" && isComputed v) || childComputed rest

end

def plainMembers (members : List (String × Json)) : List (String × Json) :=
  members.filter fun member => !isComputedKey member.1

/-- What a computed attribute sees. -/
def attrEnvironment (ctx : ExprContext) : Environment :=
  [("value", ctx.value), ("view", ctx.view.toJson), ("id_attribute", .text ctx.idAttribute)]

def computedAttrs (v : Json) : List (String × Expr) :=
  (((v.get? "$attrs").bind Formula.membersOfJson?).getD []).map fun (name, f) =>
    (name, .computed fun ctx => f.eval (attrEnvironment ctx))

/-- Reads a dependency: a path that holds anywhere, or the id of a sibling. -/
def dependency (v : Json) : Dependency :=
  match v.get? "abs" with
  | some p => .absolute (.ofJson p)
  | none => .sibling v.unquoted

/-- The traits with the computed parts of a field added. -/
def withComputed (v : Json) (t : FieldTraits) : FieldTraits :=
  { t with
    attrs := Dictionary.overlay t.attrs (computedAttrs v)
    dependencies := (v.rows "$deps").map dependency
    recompute := (v.get? "$depChange").map fun p => (PatchFormula.ofJson p).recompute
    defer := (v.get? "$deferred").map fun d => (DeferFormula.ofJson d).defer }

/-- Reads the rules of a validator: a message at a path for every condition that holds. -/
def validator (rules : List Json) : Json → List (Path × String) :=
  let rules := rules.map fun rule =>
    (Formula.member rule "when", Path.ofJson ((rule.get? "path").getD .null),
      ((rule.get? "message").getD .null).unquoted)
  fun data => rules.filterMap fun (condition, path, message) =>
    if (condition.eval [("value", data)]).truthy then some (path, message) else none

/-- Reads the steps of an initialiser: values to write one after another. -/
def initialiser (steps : List Json) : Json → Json :=
  let steps := steps.map fun step =>
    (Path.ofJson ((step.get? "path").getD .null), Formula.member step "value")
  fun data => steps.foldl (fun data (path, f) => data.setAt path (f.eval [("value", data)])) data

def traits (v : Json) : SchemaTraits where
  idAttribute := ((v.get? "idAttribute").bind Json.text?).getD SchemaTraits.defaultIdAttribute
  defaults := ((v.get? "defaults").bind Json.members?).getD []
  validator := ((v.get? "$validator").bind Json.items?).map validator
  initialiser := ((v.get? "$initialiser").bind Json.items?).map initialiser

def childTraits (members : List (String × Json)) : SchemaTraits :=
  traits ((Dictionary.get? members "schema").getD .null)

/-- What is kept of the traits of a field whose own schema has computed parts. -/
def keptTraits (t : FieldTraits) : FieldTraits :=
  { FieldTraits.plain with
    id := t.id
    label := t.label
    modes := t.modes
    excluded := t.excluded
    skipChange := t.skipChange
    attrs := t.attrs }

/-- The description of a schema with one field. -/
def describe? (members : List (String × Json)) : Option SchemaDescription :=
  SchemaDescription.ofJson? (.ofPairs [("fields", .array [.object members])])

/-- Reads a field, its computed parts left out. -/
def plainField (members : List (String × Json)) : Except WrittenSchemaError Field :=
  match describe? (plainMembers members) with
  | some d =>
    match d.build with
    | .ok ⟨f :: _, _⟩ => .ok f
    | .ok ⟨[], _⟩ => .error .shape
    | .error e => .error (.refused e)
  | none => .error .shape

/-- Passes the fields of a level on if no two groups share an id. -/
def level (fields : List Field) : Except WrittenSchemaError (List Field) :=
  match checkGroups fields with
  | .ok fields => .ok fields
  | .error e => .error (.refused e)

/-- A field with its own schema, if it has one, replaced. -/
def withChild (schema : SchemaTraits) (child : Except WrittenSchemaError (List Field)) :
    Field → Except WrittenSchemaError Field
  | .nested t style _ _ => child.map fun fields => .nested (keptTraits t) style fields schema
  | .collection t _ _ rows => child.map fun fields => .collection (keptTraits t) fields schema rows
  | f => .ok f

mutual

def schemaFields : Json → Except WrittenSchemaError (List Field)
  | .object members => memberFields members
  | _ => .ok []

def memberFields : List (String × Json) → Except WrittenSchemaError (List Field)
  | [] => .ok []
  | (k, v) :: rest => if k = "fields" then itemFields v else memberFields rest

def itemFields : Json → Except WrittenSchemaError (List Field)
  | .array items => (fieldList items).bind level
  | _ => .ok []

def fieldList : List Json → Except WrittenSchemaError (List Field)
  | [] => .ok []
  | v :: rest =>
    match field v with
    | .error e => .error e
    | .ok f => (fieldList rest).map fun fields => f :: fields

/-- Reads a field. It has to be one without its computed parts too; then its own schema is read
again if that has any. -/
def field : Json → Except WrittenSchemaError Field
  | .object members =>
    match plainField members with
    | .error e => .error e
    | .ok f =>
      let whole :=
        if childComputed members then withChild (childTraits members) (childFields members) f
        else .ok f
      whole.map fun f => f.withTraits (withComputed (.object members) f.traits)
  | _ => .error .shape

def childFields : List (String × Json) → Except WrittenSchemaError (List Field)
  | [] => .ok []
  | (k, v) :: rest => if k = "schema" then schemaFields v else childFields rest

end

end WrittenSchema

open WrittenSchema in
def Schema.ofJson (v : Json) : Except WrittenSchemaError Schema :=
  if isComputed v then
    (schemaFields v).map fun fields => ⟨fields, WrittenSchema.traits v⟩
  else
    match SchemaDescription.ofJson? v with
    | some d =>
      match d.build with
      | .ok s => .ok s
      | .error e => .error (.refused e)
    | none => .error .shape

namespace NodeKind

def ofText? : String → Option NodeKind
  | "field" => some .field
  | "collection" => some .collection
  | "row" => some .row
  | "cell" => some .cell
  | _ => none

end NodeKind

namespace OptionRule

/-- What the formula of an option sees. -/
def environment (ctx : EvalContext) : Environment :=
  [("value", ctx.value), ("options", .object ctx.options), ("parent", .ofOption .object ctx.parent),
    ("default", ctx.default), ("own", ctx.ownValue), ("own_flag", .bool ctx.ownFlag),
    ("name", .text ctx.name), ("kind", .text ctx.kind.text),
    ("field", .ofOption .text ctx.field.id?), ("view", ctx.view.toJson)]

def ofJson (v : Json) : OptionRule where
  name := ((v.get? "name").getD .null).unquoted
  evaluator := (v.get? "expr").map fun e =>
    let f := Formula.ofJson e
    fun ctx => f.eval (environment ctx)
  default := (v.get? "default").getD .null
  kinds := (v.rows "kinds").filterMap fun kind => kind.text?.bind NodeKind.ofText?

end OptionRule

/-- Reads a registry: further options behind the built-in ones, or instead of them. -/
def OptionRegistry.ofJson (v : Json) : OptionRegistry :=
  let start := if v.get? "builtins" = some (.bool false) then empty else builtin
  (v.rows "extra").foldl (fun r rule => r.register (.ofJson rule)) start

end SchemaForm
