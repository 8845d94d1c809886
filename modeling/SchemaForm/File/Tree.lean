import SchemaForm.File.Name

set_option autoImplicit false
set_option relaxedAutoImplicit false

/-!
A tree of files, as far as reading and writing whole files by name can tell. Names lead from the
working directory, or from the root if they start with a slash. Nothing is known of what stands
outside the working directory before it is written there.
-/

namespace SchemaForm

abbrev Bytes := List UInt8

/-- What stands at a place of the tree. -/
inductive FileNode where
  | directory
  | file (bytes : Bytes)
  deriving DecidableEq

/-- A tree of files: what stands at every place, except for the directories that always exist. A
place is the shortest name that leads to it: the working directory's is empty, and no step up
follows a step down. -/
structure FileTree where
  nodes : List (String × FileNode)
  deriving DecidableEq

namespace FileTree

open FileName

def empty : FileTree := ⟨[]⟩

/-- Whether a place is the working directory or a directory above it. -/
def isUp (place : String) : Bool := place == "" || place == ".." || place.endsWith "/.."

def node? (t : FileTree) (place : String) : Option FileNode :=
  if place = "/" ∨ isUp place then
    some .directory
  else
    (t.nodes.find? fun entry => entry.1 = place).map Prod.snd

def put (t : FileTree) (place : String) (n : FileNode) : FileTree :=
  ⟨t.nodes.filter (fun entry => entry.1 ≠ place) ++ [(place, n)]⟩

def above (place : String) : String := if isUp place then join place ".." else directory place

/-- What stands one step down from a directory. -/
def below (t : FileTree) (place step : String) : Except FileError (Option FileNode) :=
  if maxStepSize < step.utf8ByteSize then .error .nameTooLong else .ok (t.node? (join place step))

/-- The directory that steps lead to from a directory. -/
def walk (t : FileTree) (place : String) : List String → Except FileError String
  | [] => .ok place
  | "." :: rest => t.walk place rest
  | ".." :: rest => t.walk (above place) rest
  | step :: rest =>
    match t.below place step with
    | .error e => .error e
    | .ok none => .error .notFound
    | .ok (some (.file _)) => .error .notDirectory
    | .ok (some .directory) => t.walk (join place step) rest

/-- What a name means: a directory that exists, or what stands one step down from one. -/
inductive Target where
  | directory
  | entry (place step : String)

/-- What a name means. -/
def target (t : FileTree) (name : String) : Except FileError Target :=
  match fault? name, (steps name).getLast? with
  | some e, _ => .error e
  | none, none => .error .notFound
  | none, some last =>
    if last = "." ∨ last = ".." ∨ last = "/" then
      (t.walk "" (steps name)).map fun _ => .directory
    else
      (t.walk "" (steps name).dropLast).map fun place => .entry place last

def read (t : FileTree) (name : String) : Except FileError Bytes :=
  match t.target name with
  | .error e => .error e
  | .ok .directory => .error .isDirectory
  | .ok (.entry place step) =>
    match t.below place step with
    | .error e => .error e
    | .ok none => .error .notFound
    | .ok (some .directory) => .error .isDirectory
    | .ok (some (.file bytes)) => if endsWithSlash name then .error .notDirectory else .ok bytes

/-- Whether something stands where a name leads. -/
def has (t : FileTree) (name : String) : Bool :=
  match t.read name with
  | .ok _ => true
  | .error e => e = .isDirectory

/-- Writes a file into a directory that exists. -/
def write (t : FileTree) (name : String) (bytes : Bytes) : Except FileError FileTree :=
  match t.target name with
  | .error e => .error e
  | .ok .directory => .error .isDirectory
  | .ok (.entry place step) =>
    if endsWithSlash name then
      .error .isDirectory
    else
      match t.below place step with
      | .error e => .error e
      | .ok (some .directory) => .error .isDirectory
      | .ok _ => .ok (t.put (join place step) (.file bytes))

/-- Makes the directories that steps lead through, as far as they are missing: whether that went
well, and the tree with those that were made. Where the last directory is to be, or once one has
been made, a file that stands in the way is said to exist. -/
def makeDirectories (t : FileTree) (made : Bool) (place : String) :
    List String → Except FileError Unit × FileTree
  | [] => (.ok (), t)
  | ".." :: rest => t.makeDirectories made (above place) rest
  | step :: rest =>
    match t.below place step with
    | .error e => (.error e, t)
    | .ok none =>
      (t.put (join place step) .directory).makeDirectories true (join place step) rest
    | .ok (some (.file _)) =>
      (.error (if made ∨ rest = [] then .alreadyExists else .notDirectory), t)
    | .ok (some .directory) => t.makeDirectories made (join place step) rest

/-- Makes the directory that a named file is to lie in. -/
def makeParent (t : FileTree) (name : String) : Except FileError Unit × FileTree :=
  match fault? (directory name) with
  | some e => (.error e, t)
  | none => t.makeDirectories false "" (parts (directory name))

/-- Writes a file, making the directory it is to lie in: whether that went well, and the tree. -/
def writeWithParent (t : FileTree) (name : String) (bytes : Bytes) :
    Except FileError Unit × FileTree :=
  match t.makeParent name with
  | (.error e, t) => (.error e, t)
  | (.ok (), t) =>
    match t.write name bytes with
    | .error e => (.error e, t)
    | .ok t => (.ok (), t)

/-- What stands in the directory at a place, with the last step that leads to it. -/
def entries (t : FileTree) (place : String) : List (String × FileNode) :=
  t.nodes.filterMap fun (other, n) =>
    if above other = place then (parts other).getLast?.map fun step => (step, n) else none

end FileTree

namespace Bytes

def ofText (s : String) : Bytes := s.toUTF8.toList

def text? (bytes : Bytes) : Option String := String.fromUTF8? ⟨bytes.toArray⟩

end Bytes

end SchemaForm
