import SchemaForm.Binary64.Shortest
import SchemaForm.Dictionary

set_option autoImplicit false
set_option relaxedAutoImplicit false

/-!
JSON values. A number written without point and exponent is an integer, any other number is a
binary64 number; the two kinds are never equal.
-/

namespace SchemaForm

/-- A JSON number. Reading makes integers from `-2 ^ 63` to `2 ^ 64 - 1` only. -/
inductive Number where
  | int (value : Int)
  | real (value : Binary64)
  deriving DecidableEq

/-- A JSON value. The members of an object stand in increasing key order. -/
inductive Json where
  | null
  | bool (flag : Bool)
  | number (value : Number)
  | text (value : String)
  | array (items : List Json)
  | object (members : List (String × Json))

namespace Number

def same : Number → Number → Bool
  | .int i, .int j => i == j
  | .real x, .real y => x.same y
  | _, _ => false

/-- The nearest binary64 number. -/
def toBinary64? : Number → Option Binary64
  | .int i => Binary64.ofInt? i
  | .real x => some x

def isZero : Number → Bool
  | .int i => i == 0
  | .real x => x.isZero

end Number

namespace Json

instance : Inhabited Json := ⟨.null⟩

mutual

/-- Decides whether two values are the same term. -/
def decEq : (a b : Json) → Decidable (a = b)
  | .null, .null => isTrue rfl
  | .bool a, .bool b => if h : a = b then isTrue (h ▸ rfl) else isFalse fun e => h (by injection e)
  | .number a, .number b =>
    if h : a = b then isTrue (h ▸ rfl) else isFalse fun e => h (by injection e)
  | .text a, .text b => if h : a = b then isTrue (h ▸ rfl) else isFalse fun e => h (by injection e)
  | .array a, .array b => match decEqItems a b with
    | isTrue h => isTrue (h ▸ rfl)
    | isFalse h => isFalse fun e => h (by injection e)
  | .object a, .object b => match decEqMembers a b with
    | isTrue h => isTrue (h ▸ rfl)
    | isFalse h => isFalse fun e => h (by injection e)
  | .null, .bool _ | .null, .number _ | .null, .text _ | .null, .array _ | .null, .object _
  | .bool _, .null | .bool _, .number _ | .bool _, .text _ | .bool _, .array _
  | .bool _, .object _ | .number _, .null | .number _, .bool _ | .number _, .text _
  | .number _, .array _ | .number _, .object _ | .text _, .null | .text _, .bool _
  | .text _, .number _ | .text _, .array _ | .text _, .object _ | .array _, .null
  | .array _, .bool _ | .array _, .number _ | .array _, .text _ | .array _, .object _
  | .object _, .null | .object _, .bool _ | .object _, .number _ | .object _, .text _
  | .object _, .array _ => isFalse (by intro e; cases e)

def decEqItems : (a b : List Json) → Decidable (a = b)
  | [], [] => isTrue rfl
  | [], _ :: _ => isFalse (by intro e; cases e)
  | _ :: _, [] => isFalse (by intro e; cases e)
  | a :: as, b :: bs => match decEq a b, decEqItems as bs with
    | isTrue h, isTrue hs => isTrue (h ▸ hs ▸ rfl)
    | isFalse h, _ => isFalse fun e => h (by injection e)
    | _, isFalse hs => isFalse fun e => hs (by injection e)

def decEqMembers : (a b : List (String × Json)) → Decidable (a = b)
  | [], [] => isTrue rfl
  | [], _ :: _ => isFalse (by intro e; cases e)
  | _ :: _, [] => isFalse (by intro e; cases e)
  | (k, a) :: as, (l, b) :: bs =>
    if hk : k = l then
      match decEq a b, decEqMembers as bs with
      | isTrue h, isTrue hs => isTrue (hk ▸ h ▸ hs ▸ rfl)
      | isFalse h, _ => isFalse fun e => h (by injection e with e _; injection e)
      | _, isFalse hs => isFalse fun e => hs (by injection e)
    else
      isFalse fun e => hk (by injection e with e _; injection e)

end

instance : DecidableEq Json := decEq

/-- The value of a member, none when the value is no object or has no such member. -/
def get? : Json → String → Option Json
  | .object members, key => Dictionary.get? members key
  | _, _ => none

def items? : Json → Option (List Json)
  | .array items => some items
  | _ => none

def members? : Json → Option (Dictionary Json)
  | .object members => some members
  | _ => none

def text? : Json → Option String
  | .text s => some s
  | _ => none

def bool? : Json → Option Bool
  | .bool b => some b
  | _ => none

def isNull : Json → Bool
  | .null => true
  | _ => false

/-- The rows of the collection held by a member: none unless the member is an array. -/
def rows (data : Json) (id : String) : List Json := ((data.get? id).bind items?).getD []

def ofNat (n : Nat) : Json := .number (.int n)

/-- The object of a list of pairs, a later pair winning over an earlier one of the same key. -/
def ofPairs (pairs : List (String × Json)) : Json := .object (Dictionary.ofPairs pairs)

def ofOption {α : Type} (f : α → Json) : Option α → Json
  | some a => f a
  | none => .null

def empty : Json := .object []

/-- Lays objects over one another, a later layer winning key by key. Other values add nothing. -/
def merge (layers : List Json) : Json :=
  .object (layers.foldl (fun acc layer =>
    match layer with
    | .object members => Dictionary.overlay acc members
    | _ => acc) [])

end Json

end SchemaForm
