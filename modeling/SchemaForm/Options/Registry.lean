import SchemaForm.Path.Location
import SchemaForm.Schema.Basic

set_option autoImplicit false
set_option relaxedAutoImplicit false

/-!
Options are named values of the nodes of a form: fields, collections, rows and cells. A registry
lists how each option is evaluated and on which nodes. The options of a node are evaluated in the
order of registration, so an evaluator may look at those before it.
-/

namespace SchemaForm

/-- The kinds of node that have options. -/
inductive NodeKind where
  | field
  | collection
  | row
  | cell
  deriving DecidableEq

/-- What an evaluator may look at. The schema is the one that declares the field, and for a row the
one of the rows; the value is the data at the node's level, the object around a field or collection
and the row of a row or cell. -/
structure EvalContext where
  name : String
  default : Json
  kind : NodeKind
  schema : Schema
  field : Field
  value : Json
  view : View
  options : Dictionary Json
  parent : Option (Dictionary Json)

/-- How an option is evaluated. -/
abbrev Evaluator := EvalContext → Json

/-- An option: its name, its evaluator, its default and the nodes that have it. -/
structure OptionRule where
  name : String
  evaluator : Option Evaluator
  default : Json
  kinds : List NodeKind

/-- The options of a form, in the order of registration. -/
structure OptionRegistry where
  rules : List OptionRule

namespace NodeKind

def text : NodeKind → String
  | .field => "field"
  | .collection => "collection"
  | .row => "row"
  | .cell => "cell"

end NodeKind

namespace EvalContext

/-- The field's own attribute of this name, or the default. -/
def ownValue (ctx : EvalContext) : Json :=
  (ctx.field.traits.attr? ctx.name
    ⟨ctx.schema.traits.idAttribute, ctx.value, ctx.view⟩).getD ctx.default

/-- Whether the field's own value counts as true. -/
def ownFlag (ctx : EvalContext) : Bool := ctx.ownValue.truthy

def flag (ctx : EvalContext) (name : String) : Bool :=
  ((Dictionary.get? ctx.options name).map Json.truthy).getD false

end EvalContext

/-- What is the same for all options of a node. -/
structure OptionNode where
  kind : NodeKind
  schema : Schema
  field : Field
  value : Json
  view : View
  parent : Option (Dictionary Json)

/-- What the evaluator of an option sees at a node, given the options before it. -/
def OptionNode.context (node : OptionNode) (rule : OptionRule) (options : Dictionary Json) :
    EvalContext where
  name := rule.name
  default := rule.default
  kind := node.kind
  schema := node.schema
  field := node.field
  value := node.value
  view := node.view
  options := options
  parent := node.parent

/-- The value of an option at a node, given the options before it. -/
def OptionRule.value (rule : OptionRule) (node : OptionNode) (options : Dictionary Json) : Json :=
  match rule.evaluator with
  | some f => f (node.context rule options)
  | none => (node.context rule options).ownValue

namespace OptionRegistry

def empty : OptionRegistry := ⟨[]⟩

/-- Adds an option. Without an evaluator its value is the field's own. -/
def register (r : OptionRegistry) (rule : OptionRule) : OptionRegistry := ⟨r.rules ++ [rule]⟩

def size (r : OptionRegistry) : Nat := r.rules.length

/-- Adds an option to those before it, if the node has it. -/
def step (node : OptionNode) (options : Dictionary Json) (rule : OptionRule) : Dictionary Json :=
  if rule.kinds.contains node.kind then
    Dictionary.insert options rule.name (rule.value node options)
  else
    options

/-- The options of a node. -/
def evaluate (r : OptionRegistry) (node : OptionNode) : Dictionary Json :=
  r.rules.foldl (step node) []

end OptionRegistry

end SchemaForm
