import SchemaForm.Path.Cover
import SchemaForm.Path.Location
import SchemaForm.Schema.Basic

set_option autoImplicit false
set_option relaxedAutoImplicit false

/-!
Listeners recompute a destination when a source that covers the changed path is written. The answer
of a recomputation is laid over the object that holds the destination; when there is no object
there, nothing happens.
-/

namespace SchemaForm

/-- A registration: whenever something at or below the source changes, recompute the destination, at
once, later or both. -/
structure Listener where
  source : Path
  dest : Path
  recompute : Option Recompute
  defer : Option Defer

/-- A deferred recomputation that waits to be applied. -/
structure Pending where
  listener : Listener
  context : ActionContext
  deferral : Deferral

/-- The listeners in the order of their registration. -/
structure DependencyGraph where
  listeners : List Listener

namespace Listener

def listensTo (l : Listener) (changed : Path) : Bool := l.source.covers changed

/-- The object that holds the destination. -/
def level (l : Listener) : Path := l.dest.level

/-- The document with fields laid over the level of the destination, if an object is there. -/
def patch (l : Listener) (doc : Json) (fields : Dictionary Json) : Json :=
  match doc.valueAt? l.level with
  | some (.object members) =>
    (doc.modifyAt? l.level fun _ => .object (Dictionary.overlay members fields)).getD doc
  | _ => doc

/-- The document after a recomputation. -/
def apply (l : Listener) (f : Recompute) (ctx : ActionContext) (doc : Json) : Json :=
  match f (doc.valueAtOrNull l.level) l.source doc ctx with
  | some fields => l.patch doc fields
  | none => doc

/-- The deferred recomputation that the listener starts, if any. -/
def defer? (l : Listener) (doc : Json) (ctx : ActionContext) : Option Pending :=
  l.defer.bind fun f =>
    (f (doc.valueAtOrNull l.level) l.source doc ctx).map fun deferral => ⟨l, ctx, deferral⟩

end Listener

namespace DependencyGraph

def empty : DependencyGraph := ⟨[]⟩

def add (g : DependencyGraph) (l : Listener) : DependencyGraph := ⟨g.listeners ++ [l]⟩

/-- Removes the listeners whose destination is covered by a path, and counts them. -/
def remove (g : DependencyGraph) (p : Path) : Nat × DependencyGraph :=
  let kept := g.listeners.filter fun l => !p.covers l.dest
  (g.listeners.length - kept.length, ⟨kept⟩)

def size (g : DependencyGraph) : Nat := g.listeners.length

def concerned (g : DependencyGraph) (changed : Path) : List Listener :=
  g.listeners.filter fun l => l.listensTo changed

/-- The document after the immediate recomputations that a change sets off, in the order of
registration. -/
def settle (g : DependencyGraph) (changed : Path) (ctx : ActionContext) (doc : Json) : Json :=
  (g.concerned changed).foldl (fun doc l =>
    match l.recompute with
    | some f => l.apply f ctx doc
    | none => doc) doc

/-- The deferred recomputations that a change starts, in the order of registration. -/
def deferred (g : DependencyGraph) (changed : Path) (ctx : ActionContext) (doc : Json) :
    List Pending :=
  (g.concerned changed).filterMap fun l => l.defer? doc ctx

end DependencyGraph

end SchemaForm
