import SchemaForm.Formula.Basic
import SchemaForm.Path.Json

set_option autoImplicit false
set_option relaxedAutoImplicit false

/-!
Formulas written as JSON values. An object with the name of an operator among its keys applies the
operator; anything else stands for itself.
-/

namespace SchemaForm

namespace Formula

/-- What a JSON value can mean as the argument of an operator: a formula, the formulas of its items
and the formulas of its members. -/
structure Reading where
  written : Json
  formula : Formula
  items : List Formula
  members : List (String × Formula)

/-- The formula of an object. The first operator found counts, in a fixed order. -/
def ofReadings (written : Json) (members : List (String × Reading)) : Formula :=
  let arg := Dictionary.get? members
  match arg "lit", arg "get", arg "eq", arg "not" with
  | some r, _, _, _ => .literal r.written
  | _, some r, _, _ =>
    .lookup (.ofJson r.written) (((arg "from").bind fun r => r.written.text?).getD "value")
  | _, _, some r, _ => .equal r.items
  | _, _, _, some r => .negation r.formula
  | none, none, none, none =>
    match arg "cat", arg "sum", arg "mul", arg "len", arg "obj" with
    | some r, _, _, _, _ => .concat r.items
    | _, some r, _, _, _ => .sum r.items
    | _, _, some r, _, _ => .product r.items
    | _, _, _, some r, _ => .count r.formula
    | _, _, _, _, some r => .record r.members
    | none, none, none, none, none => .literal written

mutual

def reading : Json → Reading
  | .array items =>
    ⟨.array items, .literal (.array items), (itemReadings items).map Reading.formula, []⟩
  | .object members =>
    let readings := memberReadings members
    ⟨.object members, ofReadings (.object members) readings, [],
      readings.map fun (k, r) => (k, r.formula)⟩
  | .null => ⟨.null, .literal .null, [], []⟩
  | .bool b => ⟨.bool b, .literal (.bool b), [], []⟩
  | .number n => ⟨.number n, .literal (.number n), [], []⟩
  | .text s => ⟨.text s, .literal (.text s), [], []⟩

def itemReadings : List Json → List Reading
  | [] => []
  | v :: rest => reading v :: itemReadings rest

def memberReadings : List (String × Json) → List (String × Reading)
  | [] => []
  | (k, v) :: rest => (k, reading v) :: memberReadings rest

end

def ofJson (v : Json) : Formula := (reading v).formula

/-- The named formulas written as an object: none for other values. -/
def membersOfJson? : Json → Option (List (String × Formula))
  | .object members => some (members.map fun (k, v) => (k, ofJson v))
  | _ => none

/-- The formula of a member, of null when it is absent. -/
def member (v : Json) (key : String) : Formula := ofJson ((v.get? key).getD .null)

end Formula

end SchemaForm
