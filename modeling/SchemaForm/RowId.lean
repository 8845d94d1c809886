import SchemaForm.Json.Basic

set_option autoImplicit false
set_option relaxedAutoImplicit false

/-!
The identity of rows. An object that is an item of an array is a row, and carries its identity in a
member of its own. Identities are numbered from a supply; their first letters tell rows that were
loaded from rows made in the session.
-/

namespace SchemaForm

/-- The supply of numbers for identities: the last one drawn. -/
structure RowIds where
  last : Nat
  deriving DecidableEq

namespace RowIds

/-- Draws the next identity with the given letters in front. -/
def draw (ids : RowIds) (letters : String) : String × RowIds :=
  (letters ++ Nat.repr (ids.last + 1), ⟨ids.last + 1⟩)

end RowIds

namespace RowId

/-- The member that holds a row's identity. -/
def key : String := "cid"

/-- The letters of rows made in the session. -/
def newLetters : String := "c"

/-- The letters of rows that were loaded. -/
def loadedLetters : String := "nn"

/-- Whether an identity is that of a row made in the session. -/
def isNew (id : String) : Bool :=
  newLetters.toList.isPrefixOf id.toList && !loadedLetters.toList.isPrefixOf id.toList

/-- The letters for rows of a document that is being made, or was loaded. -/
def letters (creating : Bool) : String := if creating then newLetters else loadedLetters

mutual

/-- Gives every row below a value a new identity. -/
def stamp (creating : Bool) (ids : RowIds) : Json → Json × RowIds
  | .object members =>
    let (members, ids) := stampMembers creating false ids members
    (.object members, ids)
  | .array items =>
    let (items, ids) := stampItems creating ids items
    (.array items, ids)
  | v => (v, ids)

/-- Gives every row below the members of an object a new identity. In a row the identity itself is
passed over. -/
def stampMembers (creating inRow : Bool) (ids : RowIds) :
    List (String × Json) → List (String × Json) × RowIds
  | [] => ([], ids)
  | (k, v) :: rest =>
    if inRow ∧ k = key then
      let (rest, ids) := stampMembers creating inRow ids rest
      ((k, v) :: rest, ids)
    else
      let (v, ids) := stamp creating ids v
      let (rest, ids) := stampMembers creating inRow ids rest
      ((k, v) :: rest, ids)

/-- Gives every object of a list a new identity, and then the rows below it. Arrays directly inside
the list are left alone. -/
def stampItems (creating : Bool) (ids : RowIds) : List Json → List Json × RowIds
  | [] => ([], ids)
  | .object members :: rest =>
    let (id, ids) := ids.draw (letters creating)
    let (members, ids) := stampMembers creating true ids members
    let (rest, ids) := stampItems creating ids rest
    (.object (Dictionary.insert members key (.text id)) :: rest, ids)
  | v :: rest =>
    let (rest, ids) := stampItems creating ids rest
    (v :: rest, ids)

end

def dropFromRow : Json → Json
  | .object members => .object (Dictionary.erase members key)
  | v => v

/-- The rows of an array without their identities, unless these are to be kept. -/
def drop (keep : Bool) : Json → Json
  | .array items => if keep then .array items else .array (items.map dropFromRow)
  | v => v

mutual

/-- The value with no identity left on any row at any depth. -/
def strip : Json → Json
  | .array items => .array (stripItems items)
  | .object members => .object (stripMembers members)
  | v => v

def stripItems : List Json → List Json
  | [] => []
  | v :: rest => dropFromRow (strip v) :: stripItems rest

def stripMembers : List (String × Json) → List (String × Json)
  | [] => []
  | (k, v) :: rest => (k, strip v) :: stripMembers rest

end

def of? (row : Json) : Option String := (row.get? key).bind Json.text?

end RowId

end SchemaForm
