import SchemaForm.Dictionary

set_option autoImplicit false
set_option relaxedAutoImplicit false

/-!
TOML documents and how they grow line by line. A table may be extended as long as the line that made
it leaves it open: a header opens a table once, a dotted key only goes on through tables made by
dotted keys, and inline tables and arrays are closed.
-/

namespace SchemaForm

/-- What made a table. -/
inductive TableOrigin where
  /-- A header of its own. -/
  | header
  /-- The header of a table below it. -/
  | implied
  /-- A dotted key. -/
  | dotted
  deriving DecidableEq

/-- A TOML value. Real numbers and moments in time are kept as they are written. -/
inductive Toml where
  | text (value : String)
  | integer (value : Int)
  | real (written : String)
  | bool (flag : Bool)
  | moment (written : String)
  | array (items : List Toml)
  | inline (members : List (String × Toml))
  | table (origin : TableOrigin) (members : List (String × Toml))
  | tables (items : List (List (String × Toml)))

namespace Toml

/-- Changes the table at the end of a list of keys, making the tables that are missing on the way.
Of an array of tables the last one is meant. The change is told whether the table was made by a
dotted key. -/
def change? (byDottedKey : Bool) (f : Bool → Dictionary Toml → Option (Dictionary Toml)) :
    List String → Bool → Dictionary Toml → Option (Dictionary Toml)
  | [], isDotted, members => f isDotted members
  | key :: rest, _, members =>
    match Dictionary.get? members key with
    | none =>
      (change? byDottedKey f rest byDottedKey []).map fun made =>
        Dictionary.insert members key (.table (if byDottedKey then .dotted else .implied) made)
    | some (.table origin inner) =>
      if byDottedKey ∧ origin = .header then
        none
      else
        (change? byDottedKey f rest (origin = .dotted) inner).map fun inner =>
          Dictionary.insert members key (.table origin inner)
    | some (.tables items) =>
      match items.getLast? with
      | none => none
      | some inner =>
        (change? byDottedKey f rest false inner).map fun inner =>
          Dictionary.insert members key (.tables (items.dropLast ++ [inner]))
    | some _ => none

def addMember? (key : String) (value : Toml) (members : Dictionary Toml) :
    Option (Dictionary Toml) :=
  if Dictionary.has members key then none else some (Dictionary.insert members key value)

/-- Gives a table a value under a dotted key. Behind dots the table must be one made by dotted
keys. -/
def addValue? (path : List String) (key : String) (value : Toml) (members : Dictionary Toml) :
    Option (Dictionary Toml) :=
  change? true (fun isDotted members =>
    if path ≠ [] ∧ !isDotted then none else addMember? key value members) path false members

/-- Opens the table of a header. It must be new, or implied by the headers of tables below it. -/
def openTable? (path : List String) (key : String) (root : Dictionary Toml) :
    Option (Dictionary Toml) :=
  change? false (fun _ members =>
    match Dictionary.get? members key with
    | none => some (Dictionary.insert members key (.table .header []))
    | some (.table .implied inner) => some (Dictionary.insert members key (.table .header inner))
    | some _ => none) path false root

/-- Opens one more table of an array of tables. -/
def openNext? (path : List String) (key : String) (root : Dictionary Toml) :
    Option (Dictionary Toml) :=
  change? false (fun _ members =>
    match Dictionary.get? members key with
    | none => some (Dictionary.insert members key (.tables [[]]))
    | some (.tables items) => some (Dictionary.insert members key (.tables (items ++ [[]])))
    | some _ => none) path false root

/-- Gives the table that was opened last a value. -/
def addLine? (opened : List String) (path : List String) (key : String) (value : Toml)
    (root : Dictionary Toml) : Option (Dictionary Toml) :=
  change? false (fun _ members => addValue? path key value members) opened false root

end Toml

end SchemaForm
