import SchemaForm.Json.Decode
import SchemaForm.Validation

set_option autoImplicit false
set_option relaxedAutoImplicit false

/-!
What a form shows about itself: whether it is loading, ready, saving or changed, a message, and the
problem that is being reported.
-/

namespace SchemaForm

/-- How far loading has come. -/
inductive Loading where
  | init
  | loading
  | loaded
  | error
  deriving DecidableEq

/-- The problem that is being reported. It is one only if it has a name: that of a location, or of
what went wrong. -/
structure Problem where
  name : Option String
  message : Option String
  response : Option Json

/-- What a form shows about itself. -/
structure Ui where
  loading : Loading
  ready : Bool
  saving : Bool
  dirty : Bool
  problem : Problem
  message : String

/-- Why a document could not be loaded: a message, and what the loader answered. -/
structure LoadError where
  message : String
  response : Option Json

namespace Loading

def text : Loading → String
  | .init => "init"
  | .loading => "loading"
  | .loaded => "loaded"
  | .error => "error"

end Loading

namespace Problem

def none : Problem := ⟨.none, .none, .none⟩

def isNone (p : Problem) : Bool := p.name.isNone

/-- The problem of a failed validation, named for its location. -/
def ofFailure (f : Failure) : Problem := ⟨some f.path.flat, some f.message, .none⟩

def ofLoad (e : LoadError) : Problem := ⟨some "apierror", some e.message, e.response⟩

def ofSave (message : String) : Problem := ⟨some "saveerror", some message, .none⟩

/-- A problem that is none any more, but whose message stays. -/
def settled (p : Problem) : Problem := ⟨.none, p.message, .none⟩

/-- A member that is left out when absent. -/
def member (key : String) (value : Option Json) : List (String × Json) :=
  (value.map fun v => (key, v)).toList

def toJson (p : Problem) : Json :=
  .ofPairs (member "name" (p.name.map .text) ++ member "message" (p.message.map .text) ++
    member "response" p.response)

/-- Decodes a problem. Every field may be absent. -/
def ofJson? (v : Json) : Option Problem :=
  match v.fields? ["name", "message", "response"] with
  | some [name, message, response] => do
    return ⟨← Json.field? .none (Json.nullable? Json.text?) name,
      ← Json.field? .none (Json.nullable? Json.text?) message,
      ← Json.field? .none (Json.nullable? Json.any?) response⟩
  | _ => .none

end Problem

namespace Ui

/-- What a form shows before it is initialised. -/
def start : Ui := ⟨.init, false, false, false, .none, ""⟩

def loadingMessage : String := "Loading..."

def savingMessage : String := "Saving..."

def toJson (u : Ui) : Json :=
  .ofPairs [("loading", .text u.loading.text), ("ready", .bool u.ready), ("saving", .bool u.saving),
    ("dirty", .bool u.dirty), ("errors", u.problem.toJson), ("message", .text u.message)]

end Ui

end SchemaForm
