import SchemaForm.File.Document
import SchemaForm.Reduction

set_option autoImplicit false
set_option relaxedAutoImplicit false

/-!
Scripts: lists of actions in files. A step is an object that names the kind of its action, or an
array of the kind and the fields in order.
-/

namespace SchemaForm

/-- Why a file does not give a script. -/
inductive ScriptError where
  | document (e : DocumentError)
  | step (name : String) (position : Nat)
  | notAList (name : String)
  deriving DecidableEq

namespace ScriptError

def message : ScriptError → String
  | .document e => e.message
  | .step name position => "invalid script step " ++ Nat.repr position ++ " in " ++ name
  | .notAList name => "script at " ++ name ++ " must be a JSON array of steps"

end ScriptError

namespace Script

def kind? : Json → Option String
  | .object members => (Dictionary.get? members "type").bind Json.text?
  | .array (kind :: _) => kind.text?
  | _ => none

/-- The fields of a step by their names. -/
def fields? (names : List String) : Json → Option (List (Option Json))
  | .array (_ :: items) => Json.fields? names (.array items)
  | v => Json.fields? names v

def position? : Json → Option Nat := Json.natBelow? Segment.indexBound

def path? (v : Json) : Option Path := v.text?.map Path.parse

def action? (v : Json) : Option Action :=
  match v |> kind? with
  | some "SET_VALUE" =>
    match fields? ["path", "value"] v with
    | some [some path, some value] => do return .setValue (← path? path) value
    | _ => none
  | some "ADD_ROW" =>
    match fields? ["path", "value", "add_on_top"] v with
    | some [some path, value, onTop] => do
      return .addRow (← path? path) (value.getD .null) (← Json.field? false Json.bool? onTop)
    | _ => none
  | some "DELETE_ROW" =>
    match fields? ["path", "index"] v with
    | some [some path, some position] => do
      return .deleteRow (← path? path) (← position? position)
    | _ => none
  | some "MOVE_ROW" =>
    match fields? ["path", "old_index", "new_index"] v with
    | some [some path, some source, some target] => do
      return .moveRow (← path? path) (← position? source) (← position? target)
    | _ => none
  | some "BULK_UPDATE" =>
    match fields? ["path", "id"] v with
    | some [some path, some column] => do return .bulkUpdate (← path? path) (← column.text?)
    | _ => none
  | _ => none

/-- The actions of steps, or the position of the first that is none. -/
def actions (position : Nat) : List Json → Except Nat (List Action)
  | [] => .ok []
  | v :: rest =>
    match action? v with
    | none => .error position
    | some action => (actions (position + 1) rest).map fun actions => action :: actions

end Script

/-- The script in a file. A blank file is a script without steps. -/
def FileTree.readScript (t : FileTree) (name : String) : Except ScriptError (List Action) :=
  match t.readDocument name with
  | .error e => .error (.document e)
  | .ok .null => .ok []
  | .ok (.array steps) =>
    match Script.actions 0 steps with
    | .ok actions => .ok actions
    | .error position => .error (.step name position)
  | .ok _ => .error (.notAList name)

end SchemaForm
