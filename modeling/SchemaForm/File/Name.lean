set_option autoImplicit false
set_option relaxedAutoImplicit false

/-!
Names of files: steps from directory to directory, with slashes between them.
-/

namespace SchemaForm

/-- Why a file cannot be read or written. -/
inductive FileError where
  | notFound
  | alreadyExists
  | notDirectory
  | isDirectory
  | nameTooLong
  | nameHoldsNul
  deriving DecidableEq

namespace FileError

def message : FileError → String
  | .notFound => "No such file or directory (os error 2)"
  | .alreadyExists => "File exists (os error 17)"
  | .notDirectory => "Not a directory (os error 20)"
  | .isDirectory => "Is a directory (os error 21)"
  | .nameTooLong => "File name too long (os error 36)"
  | .nameHoldsNul => "file name contained an unexpected NUL byte"

end FileError

namespace FileName

/-- A name has at most this many bytes. -/
def maxSize : Nat := 4095

/-- A step of a name has at most this many bytes. -/
def maxStepSize : Nat := 255

/-- Why a name cannot be used at all, if it cannot. -/
def fault? (name : String) : Option FileError :=
  if name.toList.contains '\x00' then some .nameHoldsNul
  else if maxSize < name.utf8ByteSize then some .nameTooLong
  else none

/-- The parts of a list of characters between slashes. -/
def splitAtSlashes : List Char → List (List Char)
  | [] => [[]]
  | '/' :: rest => [] :: splitAtSlashes rest
  | c :: rest =>
    match splitAtSlashes rest with
    | part :: parts => (c :: part) :: parts
    | [] => [[c]]

def isAbsolute (name : String) : Bool := name.toList.head? == some '/'

/-- Whether a name ends with a slash, so that it can only mean a directory. -/
def endsWithSlash (name : String) : Bool := name.toList.getLast? == some '/'

/-- The steps of a name. A slash in front is a step of its own. -/
def steps (name : String) : List String :=
  (if isAbsolute name then ["/"] else []) ++
    ((splitAtSlashes name.toList).filter fun part => part != []).map String.ofList

/-- The steps of a name, without those that stay where they are. -/
def parts (name : String) : List String := (steps name).filter fun step => step != "."

def join (directory name : String) : String :=
  if directory = "" ∨ isAbsolute name then name
  else if endsWithSlash directory then directory ++ name
  else directory ++ "/" ++ name

/-- Drops slashes, and steps that stay where they are, at the end of a name. The name is given in
reverse. A dot that begins the name is kept. -/
def dropIdle : List Char → List Char
  | '/' :: rest => dropIdle rest
  | '.' :: '/' :: rest => dropIdle rest
  | cs => cs

/-- The name of the directory that a named file is to lie in. It is empty for the directory where
names begin, and the root is said to lie in itself. -/
def directory (name : String) : String :=
  match dropIdle ((dropIdle name.toList.reverse).dropWhile fun c => c != '/') with
  | [] => if isAbsolute name then "/" else ""
  | reversed => String.ofList reversed.reverse

/-- What follows the last dot of the last part of a name, unless nothing stands before that dot. -/
def extension? (name : String) : Option (List Char) :=
  (parts name).getLast?.bind fun part =>
    let reversed := part.toList.reverse
    match reversed.dropWhile fun c => c != '.' with
    | '.' :: _ :: _ => some (reversed.takeWhile fun c => c != '.').reverse
    | _ => none

end FileName

end SchemaForm
