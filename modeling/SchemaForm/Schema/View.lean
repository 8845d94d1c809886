import SchemaForm.Json.Decode

set_option autoImplicit false
set_option relaxedAutoImplicit false

/-!
The circumstances a form is shown in: what is done with the document, and on which server.
-/

namespace SchemaForm

/-- What is done with the document. -/
inductive Mode where
  | create
  | edit
  | properties
  deriving DecidableEq

/-- A server: its type and its version as one number. -/
structure Server where
  type : String
  version : Nat
  deriving DecidableEq

/-- The circumstances handed to every evaluator. -/
structure View where
  mode : Mode
  server : Option Server
  inCatalog : Bool
  keepRowIds : Bool
  deriving DecidableEq

namespace Mode

def text : Mode → String
  | .create => "create"
  | .edit => "edit"
  | .properties => "properties"

def ofText? : String → Option Mode
  | "create" => some .create
  | "edit" => some .edit
  | "properties" => some .properties
  | _ => none

/-- Decodes a mode: its name, or an object with the name as its only member and null. -/
def ofJson? : Json → Option Mode
  | .text name => ofText? name
  | .object [(name, .null)] => ofText? name
  | _ => none

end Mode

namespace Server

def toJson (s : Server) : Json :=
  .ofPairs [("server_type", .text s.type), ("version", .ofNat s.version)]

/-- Decodes a server. Neither field may be absent. -/
def ofJson? (v : Json) : Option Server :=
  match v.fields? ["server_type", "version"] with
  | some [some type, some version] => do
    return ⟨← type.text?, ← version.natBelow? (2 ^ 32)⟩
  | _ => none

end Server

namespace View

/-- A view of a mode, with no server known. -/
def ofMode (mode : Mode) : View := ⟨mode, none, false, false⟩

/-- Whether the document is only shown. -/
def isProperties (v : View) : Bool := v.mode == .properties

/-- Whether the document is part of a catalog or only shown. -/
def isLocked (v : View) : Bool := v.inCatalog || v.isProperties

def toJson (v : View) : Json :=
  .ofPairs [("mode", .text v.mode.text), ("server_info", .ofOption Server.toJson v.server),
    ("in_catalog", .bool v.inCatalog), ("keep_cid", .bool v.keepRowIds)]

/-- Decodes a view. Every field may be absent. -/
def ofJson? (v : Json) : Option View :=
  match v.fields? ["mode", "server_info", "in_catalog", "keep_cid"] with
  | some [mode, server, inCatalog, keepRowIds] => do
    return ⟨← Json.field? .create Mode.ofJson? mode,
      ← Json.field? none (Json.nullable? Server.ofJson?) server,
      ← Json.field? false Json.bool? inCatalog,
      ← Json.field? false Json.bool? keepRowIds⟩
  | _ => none

end View

end SchemaForm
