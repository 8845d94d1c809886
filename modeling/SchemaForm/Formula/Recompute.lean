import SchemaForm.Formula.Reading
import SchemaForm.Dependency

set_option autoImplicit false
set_option relaxedAutoImplicit false

/-!
Recomputations written as formulas. The formulas see the data at the destination's level, the
document and the action that set the recomputation off.
-/

namespace SchemaForm

/-- A recomputation: its condition, if it has one, and the fields it sets. Without fields it does
nothing. -/
structure PatchFormula where
  condition : Option Formula
  fields : Option (List (String × Formula))

/-- A deferred recomputation: the condition under which it is queued, what it remembers from then,
how long it takes, and what it does. -/
structure DeferFormula where
  queueCondition : Option Formula
  captured : Formula
  delay : Nat
  patch : PatchFormula

namespace PatchFormula

/-- Whether an optional condition holds. -/
def holds (env : Environment) (condition : Option Formula) : Bool :=
  condition.all fun f => (f.eval env).truthy

def eval (env : Environment) (p : PatchFormula) : Option (Dictionary Json) :=
  if holds env p.condition then
    p.fields.map fun fields => Dictionary.ofPairs (Formula.evalMembers env fields)
  else
    none

/-- What the formulas of a recomputation see. -/
def environment (data : Json) (source : Path) (doc : Json) (ctx : ActionContext) : Environment :=
  [("value", data), ("doc", doc), ("old", ctx.before), ("changed", ctx.value.getD .null),
    ("source", .text source.flat), ("path", .text ctx.path.flat), ("kind", .text ctx.kind.text)]

def recompute (p : PatchFormula) : Recompute := fun data source doc ctx =>
  p.eval (environment data source doc ctx)

def ofJson (v : Json) : PatchFormula :=
  ⟨(v.get? "when").map Formula.ofJson, (v.get? "patch").bind Formula.membersOfJson?⟩

end PatchFormula

namespace DeferFormula

/-- The deferred recomputation. When it is applied its formulas also see what was captured. -/
def defer (d : DeferFormula) : Defer := fun data source doc ctx =>
  let env := PatchFormula.environment data source doc ctx
  if PatchFormula.holds env d.queueCondition then
    let captured := d.captured.eval env
    some ⟨d.delay, fun data source doc ctx =>
      d.patch.eval (PatchFormula.environment data source doc ctx ++ [("captured", captured)])⟩
  else
    none

def ofJson (v : Json) : DeferFormula :=
  ⟨(v.get? "queueWhen").map Formula.ofJson, Formula.member v "capture",
    ((v.get? "delay").bind (Json.natBelow? (2 ^ 64))).getD 0, .ofJson v⟩

end DeferFormula

/-- Reads a listener whose recomputations are formulas. -/
def Listener.ofJson (v : Json) : Listener where
  source := .ofJson ((v.get? "source").getD .null)
  dest := .ofJson ((v.get? "dest").getD .null)
  recompute := (v.get? "sync").map fun p => (PatchFormula.ofJson p).recompute
  defer := (v.get? "deferred").map fun d => (DeferFormula.ofJson d).defer

end SchemaForm
