import SchemaForm.Options.Registry

set_option autoImplicit false
set_option relaxedAutoImplicit false

/-!
The options every form has: whether a node is disabled, visible and readonly, what may be done with
a collection and its rows, and whether a cell may be edited.
-/

namespace SchemaForm

namespace OptionName

def disabled : String := "disabled"

def visible : String := "visible"

def readonly : String := "readonly"

def editable : String := "editable"

def canAdd : String := "canAdd"

def canEdit : String := "canEdit"

def canDelete : String := "canDelete"

def canReorder : String := "canReorder"

/-- A row can be added now. -/
def canAddRow : String := "canAddRow"

/-- A row is opened for editing when it is added. -/
def expandEditOnAdd : String := "expandEditOnAdd"

def addOnTop : String := "addOnTop"

def canSearch : String := "canSearch"

def canEditRow : String := "canEditRow"

def canDeleteRow : String := "canDeleteRow"

end OptionName

namespace OptionRule

open OptionName

/-- An option with a truth value. -/
def flag (name : String) (default : Bool) (kinds : List NodeKind) (holds : EvalContext → Bool) :
    OptionRule :=
  ⟨name, some fun ctx => .bool (holds ctx), .bool default, kinds⟩

/-- The nodes that hold a value. -/
def fieldLike : List NodeKind := [.field, .collection, .cell]

/-- The built-in options in the order of their evaluation. -/
def builtins : List OptionRule := [
  flag disabled false fieldLike EvalContext.ownFlag,
  flag visible true fieldLike fun ctx =>
    ctx.field.traits.supportsMode ctx.view.mode && ctx.field.traits.supportsServer ctx.view &&
      ctx.ownFlag,
  flag readonly false fieldLike fun ctx => ctx.view.isLocked || ctx.ownFlag,
  flag canAdd true [.collection] fun ctx =>
    !ctx.view.isProperties && ctx.field.fixedRows?.isNone && !ctx.flag disabled && ctx.ownFlag,
  flag canEdit false [.collection] fun ctx =>
    !ctx.view.isLocked && !ctx.flag disabled && ctx.ownFlag,
  flag canDelete false [.collection] fun ctx =>
    !ctx.view.isLocked && !ctx.flag disabled && ctx.ownFlag,
  flag canReorder false [.collection] fun ctx =>
    !ctx.view.isProperties && !ctx.flag disabled && ctx.ownFlag,
  flag canAddRow true [.collection] fun ctx => ctx.flag canAdd && ctx.ownFlag,
  flag expandEditOnAdd false [.collection] fun ctx => !ctx.view.isProperties && ctx.ownFlag,
  flag addOnTop false [.collection] fun ctx => !ctx.view.isProperties && ctx.ownFlag,
  flag canSearch false [.collection] fun ctx => !ctx.view.isProperties && ctx.ownFlag,
  flag canEditRow true [.row] fun ctx => !ctx.view.isProperties && ctx.ownFlag,
  flag canDeleteRow true [.row] fun ctx => !ctx.view.isProperties && ctx.ownFlag,
  flag editable true [.cell] fun ctx => !ctx.view.isLocked && ctx.ownFlag]

end OptionRule

def OptionRegistry.builtin : OptionRegistry := ⟨OptionRule.builtins⟩

end SchemaForm
