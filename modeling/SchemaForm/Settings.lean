import SchemaForm.File.Document
import SchemaForm.Schema.View
import SchemaForm.Toml.Reading
import SchemaForm.Toml.Writing

set_option autoImplicit false
set_option relaxedAutoImplicit false

/-!
The settings of a user: the view forms are shown in, and whether the log is written as JSON. They
are kept in a TOML file; a file that is missing or blank holds the settings by default.
-/

namespace SchemaForm

structure Settings where
  mode : Mode
  serverType : Option String
  serverVersion : Option Nat
  inCatalog : Bool
  keepRowIds : Bool
  logJson : Bool
  deriving DecidableEq

/-- Why settings cannot be found, read or written. -/
inductive SettingsError where
  | noDirectory
  | read (name : String) (fault : ReadFault)
  | parse (name : String)
  | makeDirectory (name : String) (fault : FileError)
  | write (name : String) (fault : FileError)
  deriving DecidableEq

namespace SettingsError

def message : SettingsError → String
  | .noDirectory => "config directory is unavailable for this platform"
  | .read name fault => "failed to read settings file at " ++ name ++ ": " ++ fault.message
  | .parse name => "failed to parse settings file at " ++ name
  | .makeDirectory name fault =>
    "failed to create config directory at " ++ name ++ ": " ++ fault.message
  | .write name fault => "failed to write settings file at " ++ name ++ ": " ++ fault.message

end SettingsError

namespace Toml

/-- Whether a value is an array or a table without anything in it. -/
def isEmpty : Toml → Bool
  | .array items => items.isEmpty
  | .inline members | .table _ members => members.isEmpty
  | .tables items => items.isEmpty
  | _ => false

def text? : Toml → Option String
  | .text s => some s
  | _ => none

def bool? : Toml → Option Bool
  | .bool b => some b
  | _ => none

def natBelow? (bound : Nat) : Toml → Option Nat
  | .integer i => if 0 ≤ i ∧ i < bound then some i.toNat else none
  | _ => none

end Toml

/-- Decodes a mode: its name, or a table with the name as its only key and something empty. -/
def Mode.ofToml? : Toml → Option Mode
  | .text name => ofText? name
  | .inline [(name, v)] | .table _ [(name, v)] => if v.isEmpty then ofText? name else none
  | _ => none

namespace Settings

def default : Settings := ⟨.create, none, none, false, false, false⟩

/-- The view of the settings. A server is known only if both its type and its version are. -/
def view (s : Settings) : View :=
  let server := match s.serverType, s.serverVersion with
    | some type, some version => some ⟨type, version⟩
    | _, _ => none
  ⟨s.mode, server, s.inCatalog, s.keepRowIds⟩

def toJson (s : Settings) : Json :=
  .ofPairs [("mode", .text s.mode.text), ("server_type", .ofOption .text s.serverType),
    ("server_version", .ofOption .ofNat s.serverVersion), ("in_catalog", .bool s.inCatalog),
    ("keep_cid", .bool s.keepRowIds), ("log_json", .bool s.logJson)]

/-- Decodes settings from a JSON value. Every field may be absent. -/
def ofJson? (v : Json) : Option Settings :=
  match v.fields?
      ["mode", "server_type", "server_version", "in_catalog", "keep_cid", "log_json"] with
  | some [mode, serverType, serverVersion, inCatalog, keepRowIds, logJson] => do
    return ⟨← Json.field? .create Mode.ofJson? mode,
      ← Json.field? none (Json.nullable? Json.text?) serverType,
      ← Json.field? none (Json.nullable? (Json.natBelow? (2 ^ 32))) serverVersion,
      ← Json.field? false Json.bool? inCatalog,
      ← Json.field? false Json.bool? keepRowIds,
      ← Json.field? false Json.bool? logJson⟩
  | _ => none

/-- Decodes settings from the members of a TOML document. Every field may be absent. -/
def ofToml? (members : Dictionary Toml) : Option Settings := do
  let member {α : Type} (key : String) (absent : α) (decode : Toml → Option α) : Option α :=
    match Dictionary.get? members key with
    | none => some absent
    | some v => decode v
  return ⟨← member "mode" .create Mode.ofToml?,
    ← member "server_type" none fun v => v.text?.map some,
    ← member "server_version" none fun v => (v.natBelow? (2 ^ 32)).map some,
    ← member "in_catalog" false Toml.bool?,
    ← member "keep_cid" false Toml.bool?,
    ← member "log_json" false Toml.bool?⟩

/-- Reads settings from a TOML text. A blank text holds the settings by default. -/
def parse? (s : String) : Option Settings :=
  if Text.isBlankText s then some default else (Toml.parse? s).bind ofToml?

def line (key value : String) : String := key ++ " = " ++ value ++ "\n"

def flagText (b : Bool) : String := if b then "true" else "false"

/-- The settings as a TOML text. What is not known has no line. -/
def render (s : Settings) : String :=
  line "mode" (Toml.quote s.mode.text) ++
    ((s.serverType.map fun type => line "server_type" (Toml.quote type)).getD "") ++
    ((s.serverVersion.map fun version => line "server_version" (Nat.repr version)).getD "") ++
    line "in_catalog" (flagText s.inCatalog) ++
    line "keep_cid" (flagText s.keepRowIds) ++
    line "log_json" (flagText s.logJson)

/-- The name of the settings file, given the variables of the environment: in a directory of its own
below the configuration directory. -/
def fileName (lookup : String → Option String) : Except SettingsError String :=
  let home := (lookup "HOME").map fun home => FileName.join home ".config"
  match (lookup "PGFORM_CONFIG_DIR").or ((lookup "XDG_CONFIG_HOME").or home) with
  | some directory => .ok (FileName.join (FileName.join directory "pgform") "settings.toml")
  | none => .error .noDirectory

end Settings

namespace FileTree

def readSettings (t : FileTree) (name : String) : Except SettingsError Settings :=
  if t.has name then
    match t.read name with
    | .error e => .error (.read name (.file e))
    | .ok bytes =>
      match bytes.text? with
      | none => .error (.read name .notText)
      | some s =>
        match Settings.parse? s with
        | some settings => .ok settings
        | none => .error (.parse name)
  else
    .ok .default

/-- Writes settings to a file, making the directory it is to lie in. -/
def writeSettings (t : FileTree) (name : String) (s : Settings) : Except SettingsError FileTree :=
  match t.makeParent name with
  | (.error e, _) => .error (.makeDirectory name e)
  | (.ok (), t) =>
    match t.write name (Bytes.ofText s.render) with
    | .error e => .error (.write name e)
    | .ok t => .ok t

end FileTree

end SchemaForm
