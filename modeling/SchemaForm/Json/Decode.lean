import SchemaForm.Json.Basic

set_option autoImplicit false
set_option relaxedAutoImplicit false

/-!
Decoding JSON values into records. A record is an object, whose other members are of no account, or
an array of its fields in order, of which the last may be missing but which may not be longer.
-/

namespace SchemaForm

namespace Json

/-- The fields of a record by their names, each absent or present. -/
def fields? (names : List String) : Json → Option (List (Option Json))
  | .object members => some (names.map fun name => Dictionary.get? members name)
  | .array items =>
    if items.length ≤ names.length then
      some (items.map some ++ List.replicate (names.length - items.length) none)
    else
      none
  | _ => none

def nullable? {α : Type} (decode : Json → Option α) : Json → Option (Option α)
  | .null => some none
  | v => (decode v).map some

def field? {α : Type} (absent : α) (decode : Json → Option α) : Option Json → Option α
  | none => some absent
  | some v => decode v

def listOf? {α : Type} (decode : Json → Option α) : Json → Option (List α)
  | .array items => items.mapM decode
  | _ => none

def natBelow? (bound : Nat) : Json → Option Nat
  | .number (.int i) => if 0 ≤ i ∧ i < bound then some i.toNat else none
  | _ => none

/-- A number, rounded to the nearest binary64 number. -/
def real? : Json → Option Binary64
  | .number n => n.toBinary64?
  | _ => none

def any? (v : Json) : Option Json := some v

end Json

end SchemaForm
