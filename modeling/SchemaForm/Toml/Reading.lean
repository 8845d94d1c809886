import SchemaForm.Toml.Quoted
import SchemaForm.Toml.Scalar

set_option autoImplicit false
set_option relaxedAutoImplicit false

/-!
Reading TOML texts line by line: headers of tables, and keys with their values.
-/

namespace SchemaForm

namespace Toml

/-- Arrays and inline tables nest at most this deep, and a dotted key has at most as many parts. -/
def maxDepth : Nat := 79

def isKeyChar (c : Char) : Bool := c.isAlphanum || c == '_' || c == '-'

def keyPart? (cs : List Char) : Option (String × List Char) :=
  match cs with
  | '"' :: _ | '\'' :: _ => quotedLine? cs
  | _ =>
    let body := cs.takeWhile isKeyChar
    if body.isEmpty then none else some (String.ofList body, cs.drop body.length)

/-- Reads the parts of a dotted key, and what follows it and the blanks behind it. Every round reads
a part, so the fuel is the length of the text. -/
def keyParts? : Nat → List Char → Option (List String × List Char)
  | 0, _ => none
  | fuel + 1, cs =>
    (keyPart? (cs.dropWhile isBlank)).bind fun (part, rest) =>
      match rest.dropWhile isBlank with
      | '.' :: rest => (keyParts? fuel rest).map fun (parts, rest) => (part :: parts, rest)
      | rest => some ([part], rest)

/-- Reads a key: the parts in front of its last dot, the last part, and what follows it. -/
def key? (cs : List Char) : Option (List String × String × List Char) :=
  (keyParts? (cs.length + 1) cs).bind fun (parts, rest) =>
    if parts.length ≤ maxDepth then
      parts.getLast?.map fun last => (parts.dropLast, last, rest)
    else
      none

/-- The text behind a comment, if there is one. -/
def afterComment : List Char → List Char
  | '#' :: rest => rest.dropWhile isPlain
  | cs => cs

/-- Skips blanks, comments and line ends. Every round skips a line end, so the fuel is the length of
the text. -/
def skipSpace : Nat → List Char → List Char
  | 0, cs => cs
  | fuel + 1, cs =>
    match afterLineEnd? (afterComment (cs.dropWhile isBlank)) with
    | some rest => skipSpace fuel rest
    | none => cs.dropWhile isBlank

def space (cs : List Char) : List Char := skipSpace cs.length cs

mutual

/-- Reads a value: the value, and what follows it. The depth counts the arrays and inline tables
that may still begin; every call but the first in a round is paid by a character, so the fuel is
twice the length of the text. -/
def value? : Nat → Nat → List Char → Option (Toml × List Char)
  | 0, _, _ => none
  | fuel + 1, depth, cs =>
    match cs with
    | '"' :: _ | '\'' :: _ => (quoted? cs).map fun (s, rest) => (.text s, rest)
    | '[' :: rest =>
      match depth with
      | 0 => none
      | depth + 1 =>
        match space rest with
        | ']' :: rest => some (.array [], rest)
        | rest => (items? fuel depth rest).map fun (items, rest) => (.array items, rest)
    | '{' :: rest =>
      match depth with
      | 0 => none
      | depth + 1 =>
        match rest.dropWhile isBlank with
        | '}' :: rest => some (.inline [], rest)
        | rest => (members? fuel depth [] rest).map fun (members, rest) => (.inline members, rest)
    | _ => leadingBare? cs

/-- Reads the items of an array and its end. A comma may follow the last one. -/
def items? : Nat → Nat → List Char → Option (List Toml × List Char)
  | 0, _, _ => none
  | fuel + 1, depth, cs =>
    (value? fuel depth cs).bind fun (v, rest) =>
      match space rest with
      | ']' :: rest => some ([v], rest)
      | ',' :: rest =>
        match space rest with
        | ']' :: rest => some ([v], rest)
        | rest => (items? fuel depth rest).map fun (items, rest) => (v :: items, rest)
      | _ => none

/-- Reads the members of an inline table and its end, on top of those read before. -/
def members? : Nat → Nat → Dictionary Toml → List Char → Option (Dictionary Toml × List Char)
  | 0, _, _, _ => none
  | fuel + 1, depth, members, cs =>
    (key? cs).bind fun (path, key, rest) =>
      match rest with
      | '=' :: rest =>
        (value? fuel depth (rest.dropWhile isBlank)).bind fun (v, rest) =>
          (addValue? path key v members).bind fun members =>
            match rest.dropWhile isBlank with
            | '}' :: rest => some (members, rest)
            | ',' :: rest => members? fuel depth members rest
            | _ => none
      | _ => none

end

/-- What follows the rest of a line, which may hold blanks and a comment only. -/
def afterLine? (cs : List Char) : Option (List Char) :=
  match afterComment (cs.dropWhile isBlank) with
  | [] => some []
  | rest => afterLineEnd? rest

/-- A document that is being read: its root, and the keys of the table that was opened last. -/
structure Draft where
  root : Dictionary Toml
  opened : List String

/-- Reads a line: the document with it, and the rest of the text. -/
def line? (d : Draft) (cs : List Char) : Option (Draft × List Char) :=
  match cs with
  | '[' :: '[' :: rest =>
    (key? rest).bind fun (path, key, rest) =>
      match rest with
      | ']' :: ']' :: rest => do
        return (⟨← openNext? path key d.root, path ++ [key]⟩, ← afterLine? rest)
      | _ => none
  | '[' :: rest =>
    (key? rest).bind fun (path, key, rest) =>
      match rest with
      | ']' :: rest => do
        return (⟨← openTable? path key d.root, path ++ [key]⟩, ← afterLine? rest)
      | _ => none
  | _ =>
    (key? cs).bind fun (path, key, rest) =>
      match rest with
      | '=' :: rest =>
        (value? (2 * cs.length) maxDepth (rest.dropWhile isBlank)).bind fun (v, rest) => do
          return (⟨← addLine? d.opened path key v d.root, d.opened⟩, ← afterLine? rest)
      | _ => none

/-- Reads lines until the text ends. Every round reads a line, so the fuel is the length of the
text. -/
def lineByLine? : Nat → Draft → List Char → Option (Dictionary Toml)
  | 0, d, cs => if (space cs).isEmpty then some d.root else none
  | fuel + 1, d, cs =>
    let cs := space cs
    match afterComment cs with
    | [] => some d.root
    | _ => (line? d cs).bind fun (d, rest) => lineByLine? fuel d rest

/-- Reads a text: the members of its root table. -/
def parse? (s : String) : Option (Dictionary Toml) :=
  let cs := match s.toList with
    | '\uFEFF' :: rest => rest
    | cs => cs
  lineByLine? cs.length ⟨[], []⟩ cs

end Toml

end SchemaForm
