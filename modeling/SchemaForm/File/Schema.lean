import SchemaForm.File.Document
import SchemaForm.Schema.Reading

set_option autoImplicit false
set_option relaxedAutoImplicit false

/-!
Schemas in files.
-/

namespace SchemaForm

/-- Why a file does not give a schema. -/
inductive SchemaFileError where
  | document (e : DocumentError)
  | shape (name : String)
  | refused (e : SchemaError)
  deriving DecidableEq

namespace SchemaFileError

def message : SchemaFileError → String
  | .document e => e.message
  | .shape name => "invalid schema description in " ++ name
  | .refused e => e.message

end SchemaFileError

def FileTree.readSchema (t : FileTree) (name : String) : Except SchemaFileError Schema :=
  match t.readDocument name with
  | .error e => .error (.document e)
  | .ok doc =>
    match SchemaDescription.ofJson? doc with
    | none => .error (.shape name)
    | some d =>
      match d.build with
      | .ok s => .ok s
      | .error e => .error (.refused e)

end SchemaForm
