import SchemaForm.Json.Equality
import SchemaForm.Path.Location

set_option autoImplicit false
set_option relaxedAutoImplicit false

/-!
Formulas compute JSON values from named values. They are what a computed attribute, a recomputation
or a check of a schema can be written in, and always have a value.
-/

namespace SchemaForm

inductive Formula where
  | literal (value : Json)
  /-- The value at a path of a named value, null when there is none. -/
  | lookup (path : Path) (source : String)
  /-- Whether all values are strictly equal. -/
  | equal (terms : List Formula)
  /-- Whether a value does not count as true. -/
  | negation (term : Formula)
  /-- The texts of the values one after another. -/
  | concat (terms : List Formula)
  | sum (terms : List Formula)
  | product (terms : List Formula)
  /-- The length of an array, zero for other values. -/
  | count (term : Formula)
  | record (members : List (String × Formula))

/-- The named values a formula may look at. -/
abbrev Environment := List (String × Json)

namespace Formula

/-- Whether any two neighbours of a list are strictly equal. -/
def allSame : List Json → Bool
  | a :: b :: rest => a.same b && allSame (b :: rest)
  | _ => true

/-- An integer in the signed 64-bit range as such, anything else as zero. -/
def integer : Json → Int
  | .number (.int i) => if -(2 ^ 63) ≤ i ∧ i < 2 ^ 63 then i else 0
  | _ => 0

/-- The integer of the signed 64-bit range that agrees modulo `2 ^ 64`. -/
def wrapped (i : Int) : Int := i.bmod (2 ^ 64)

/-- The length of an array, zero for other values. -/
def length : Json → Nat
  | .array items => items.length
  | _ => 0

mutual

def eval (env : Environment) : Formula → Json
  | .literal v => v
  | .lookup path source => (((Dictionary.get? env source).bind fun v => v.valueAt? path)).getD .null
  | .equal terms => .bool (allSame (evalTerms env terms))
  | .negation term => .bool (!(eval env term).truthy)
  | .concat terms => .text (String.join ((evalTerms env terms).map Json.unquoted))
  | .sum terms =>
    .number (.int ((evalTerms env terms).foldl (fun acc v => wrapped (acc + integer v)) 0))
  | .product terms =>
    .number (.int ((evalTerms env terms).foldl (fun acc v => wrapped (acc * integer v)) 1))
  | .count term => .ofNat (length (eval env term))
  | .record members => .ofPairs (evalMembers env members)

def evalTerms (env : Environment) : List Formula → List Json
  | [] => []
  | f :: rest => eval env f :: evalTerms env rest

def evalMembers (env : Environment) : List (String × Formula) → List (String × Json)
  | [] => []
  | (k, f) :: rest => (k, eval env f) :: evalMembers env rest

end

end Formula

end SchemaForm
