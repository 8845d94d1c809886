import SchemaForm.Json.Printer

set_option autoImplicit false
set_option relaxedAutoImplicit false

/-!
When two values count as the same. Strict equality goes by structure and compares numbers of one
kind by value. Tolerant equality, which decides whether a field was changed, also identifies null
with the blank text and with false, and two scalars of the same text.
-/

namespace SchemaForm

namespace Number

/-- The text of a number in comparisons and messages: without a point when it has no fractional
part. -/
def plainText : Number → String
  | .int i => toString i
  | .real x => if x.isIntegral then x.integralText else toText (.real x)

end Number

namespace Json

mutual

/-- Strict equality. -/
def same : Json → Json → Bool
  | .null, .null => true
  | .bool a, .bool b => a == b
  | .number a, .number b => a.same b
  | .text a, .text b => a == b
  | .array a, .array b => sameItems a b
  | .object a, .object b => sameMembers a b
  | _, _ => false

def sameItems : List Json → List Json → Bool
  | [], [] => true
  | a :: as, b :: bs => same a b && sameItems as bs
  | _, _ => false

def sameMembers : List (String × Json) → List (String × Json) → Bool
  | [], [] => true
  | (k, a) :: as, (l, b) :: bs => k == l && same a b && sameMembers as bs
  | _, _ => false

end

def same? : Option Json → Option Json → Bool
  | none, none => true
  | some a, some b => same a b
  | _, _ => false

/-- The text of a scalar other than null. -/
def scalarText? : Json → Option String
  | .text s => some s
  | .bool b => some (if b then "true" else "false")
  | .number n => some n.plainText
  | .null | .array _ | .object _ => none

/-- Whether the first value is null and the second is blank: the empty text or false. -/
def nullMatchesBlank (a b : Json) : Bool :=
  match a, b with
  | .null, .bool flag => !flag
  | .null, .text s => s == ""
  | _, _ => false

/-- Whether both values are scalars of the same text. -/
def sameScalarText (a b : Json) : Bool :=
  match scalarText? a, scalarText? b with
  | some s, some t => s == t
  | _, _ => false

/-- Tolerant equality. -/
def alike (a b : Json) : Bool :=
  same a b || nullMatchesBlank a b || nullMatchesBlank b a || sameScalarText a b

/-- Tolerant equality of values that may be absent, an absent one counting as null. -/
def alike? (a b : Option Json) : Bool := alike (a.getD .null) (b.getD .null)

/-- Tolerant equality of two objects member by member, and of all other values as such. -/
def alikeObjects : Json → Json → Bool
  | .object a, .object b =>
    (Dictionary.keys a ++ Dictionary.keys b).all fun key =>
      alike? (Dictionary.get? a key) (Dictionary.get? b key)
  | a, b => alike a b

/-- Whether a value counts as true. Only null, false, zero and the empty text do not. -/
def truthy : Json → Bool
  | .null => false
  | .bool flag => flag
  | .number n => !n.isZero
  | .text s => s != ""
  | .array _ | .object _ => true

/-- Whether a member of an object counts as true; an absent one does not. -/
def flag (node : Json) (name : String) : Bool := ((node.get? name).map truthy).getD false

/-- Whether a member of an object counts as true, with an answer for an absent one. -/
def flagOr (node : Json) (name : String) (absent : Bool) : Bool :=
  ((node.get? name).map truthy).getD absent

end Json

end SchemaForm
