import SchemaForm.Json.Equality
import SchemaForm.Path.Interner
import SchemaForm.Path.Location

set_option autoImplicit false
set_option relaxedAutoImplicit false

/-!
Observable stores. A store holds one document and tells its subscribers of every change: those to
the whole document first, each group in the order of subscription. A subscriber to a path only hears
of changes of the value there.
-/

namespace SchemaForm

/-- What a subscriber is told: the new and the old value. -/
structure Notice where
  subscriber : Nat
  new : Json
  old : Json

/-- A store: its document, the last number given to a subscriber, the subscribers to the whole
document, those to paths with the tokens of their paths, and the interned paths. -/
structure Store where
  state : Json
  lastSubscriber : Nat
  whole : List Nat
  atPaths : List (Nat × Nat)
  interner : Interner

namespace Store

def ofState (state : Json) : Store := ⟨state, 0, [], [], .empty⟩

def get? (s : Store) (p : Path) : Option Json := s.state.valueAt? p

def subscribe (s : Store) : Nat × Store :=
  let id := s.lastSubscriber + 1
  (id, { s with lastSubscriber := id, whole := s.whole ++ [id] })

/-- Subscribes to a path. Paths of one flat form share the first of them. -/
def subscribeAt (s : Store) (p : Path) : Nat × Store :=
  let id := s.lastSubscriber + 1
  let (token, interner) := s.interner.intern p
  (id, { s with
    lastSubscriber := id
    atPaths := s.atPaths ++ [(id, token)]
    interner := interner })

def isActive (s : Store) (id : Nat) : Bool :=
  s.whole.contains id || s.atPaths.any fun entry => entry.1 == id

/-- Ends a subscription, if it is in force. -/
def unsubscribe (s : Store) (id : Nat) : Store :=
  { s with
    whole := s.whole.filter fun other => other != id
    atPaths := s.atPaths.filter fun entry => entry.1 != id }

def subscriberCount (s : Store) : Nat := s.whole.length + s.atPaths.length

/-- Whether a document would change the store. -/
def accepts (s : Store) (next : Json) : Bool := !s.state.same next

/-- What a subscriber to a path is told. -/
def pathNotice? (s : Store) (next : Json) (entry : Nat × Nat) : Option Notice :=
  (s.interner.path? entry.2).bind fun p =>
    let old := s.state.valueAtOrNull p
    let new := next.valueAtOrNull p
    if old.same new then none else some ⟨entry.1, new, old⟩

/-- What the subscribers are told of a new document, in order. -/
def notices (s : Store) (next : Json) : List Notice :=
  if s.accepts next then
    (s.whole.map fun id => ⟨id, next, s.state⟩) ++ s.atPaths.filterMap (s.pathNotice? next)
  else
    []

/-- Replaces the document. An equal document changes nothing. -/
def set (s : Store) (next : Json) : Store := if s.accepts next then { s with state := next } else s

end Store

end SchemaForm
