import SchemaForm.File.Gzip
import SchemaForm.Form.Ui
import SchemaForm.Json.Printer
import SchemaForm.Json.Text
import SchemaForm.Text.Blank

set_option autoImplicit false
set_option relaxedAutoImplicit false

/-!
Documents in files. A file whose name says so is packed. A blank file holds null.
-/

namespace SchemaForm

/-- Why the text of a file cannot be read. -/
inductive ReadFault where
  | file (e : FileError)
  | endsEarly
  | notPacked
  | notText
  deriving DecidableEq

/-- Why a document cannot be read. -/
inductive DocumentError where
  | read (name : String) (fault : ReadFault)
  | parse (name : String)
  deriving DecidableEq

/-- A file cannot be written. -/
structure WriteError where
  name : String
  fault : FileError
  deriving DecidableEq

namespace ReadFault

def message : ReadFault → String
  | .file e => e.message
  | .endsEarly => "unexpected end of file"
  | .notPacked => "invalid gzip header"
  | .notText => "stream did not contain valid UTF-8"

end ReadFault

namespace DocumentError

def message : DocumentError → String
  | .read name fault => "failed to read document at " ++ name ++ ": " ++ fault.message
  | .parse name => "failed to parse document at " ++ name

end DocumentError

namespace WriteError

def message (e : WriteError) : String :=
  "failed to write export file at " ++ e.name ++ ": " ++ e.fault.message

end WriteError

namespace FileTree

/-- The text of a file, unpacked if its name says that it is packed. -/
def readText (t : FileTree) (name : String) : Except ReadFault String :=
  match t.read name with
  | .error e => .error (.file e)
  | .ok bytes =>
    match if Gzip.isNamedPacked name then Gzip.unpack? bytes else some bytes with
    | none => .error (if bytes.length < Gzip.header.length then .endsEarly else .notPacked)
    | some bytes =>
      match bytes.text? with
      | some s => .ok s
      | none => .error .notText

def readDocument (t : FileTree) (name : String) : Except DocumentError Json :=
  match t.readText name with
  | .error fault => .error (.read name fault)
  | .ok s =>
    if Text.isBlankText s then
      .ok .null
    else
      match Json.parse? s with
      | some doc => .ok doc
      | none => .error (.parse name)

/-- The answer of a loader that reads a file. -/
def load (t : FileTree) (name : String) : Except LoadError Json :=
  match t.readDocument name with
  | .ok doc => .ok doc
  | .error e => .error ⟨e.message, some (.ofPairs [("path", .text name)])⟩

/-- Writes the text of an export: whether that went well, and the tree. -/
def writeExport (t : FileTree) (name : String) (bytes : Bytes) :
    Except WriteError Unit × FileTree :=
  let (result, t) := t.writeWithParent name bytes
  (result.mapError fun e => ⟨name, e⟩, t)

/-- Writes a payload, and whether it is that of a document never stored before: whether that went
well, and the tree. -/
def writePayload (t : FileTree) (name : String) (isNew : Bool) (payload : Json) :
    Except WriteError Unit × FileTree :=
  let bytes := Bytes.ofText (Json.ofPairs [("is_new", .bool isNew), ("payload", payload)]).pretty
  t.writeExport name (if Gzip.isNamedPacked name then Gzip.pack bytes else bytes)

end FileTree

end SchemaForm
