import SchemaForm.Json.Text
import SchemaForm.Toml.Basic

set_option autoImplicit false
set_option relaxedAutoImplicit false

/-!
The texts of TOML between quotes. Double quotes allow escapes, single quotes do not; three quotes
allow line ends, the first of which does not count.
-/

namespace SchemaForm

namespace Toml

/-- Whether a character may stand in a comment or between quotes: all but control characters, of
which the tab is allowed. -/
def isPlain (c : Char) : Bool := c == '\t' || (0x20 ≤ c.toNat && c.toNat != 0x7F)

def isBlank (c : Char) : Bool := c == ' ' || c == '\t'

/-- Takes a line end off: what follows it. -/
def afterLineEnd? : List Char → Option (List Char)
  | '\n' :: rest => some rest
  | '\r' :: '\n' :: rest => some rest
  | _ => none

def dropLineEnd (cs : List Char) : List Char := (afterLineEnd? cs).getD cs

/-- The character meant by a letter behind a backslash. -/
def escaped? : Char → Option Char
  | 'b' => some '\x08'
  | 't' => some '\t'
  | 'n' => some '\n'
  | 'f' => some '\x0c'
  | 'r' => some '\r'
  | '"' => some '"'
  | '\\' => some '\\'
  | _ => none

def ofCodePoint? (n : Nat) : Option Char := if n.isValidChar then some (Char.ofNat n) else none

/-- Reads what follows a backslash: the character, and the rest. -/
def escape? : List Char → Option (Char × List Char)
  | 'u' :: a :: b :: c :: d :: rest =>
    ((JsonText.hex4? a b c d).bind ofCodePoint?).map fun c => (c, rest)
  | 'U' :: a :: b :: c :: d :: e :: f :: g :: h :: rest => do
    let high ← JsonText.hex4? a b c d
    let low ← JsonText.hex4? e f g h
    return (← ofCodePoint? (high * 0x10000 + low), rest)
  | c :: rest => (escaped? c).map fun e => (e, rest)
  | [] => none

/-- A text read, and what follows its closing quotes. -/
abbrev TextRead := Option (String × List Char)

def ofReversed (acc : List Char) : String := String.ofList acc.reverse

/-- Reads a text of one line between double quotes, from behind the first. Every round reads a
character, so the fuel is the length of the text. -/
def basic? : Nat → List Char → List Char → TextRead
  | 0, _, _ => none
  | fuel + 1, acc, cs =>
    match cs with
    | '"' :: rest => some (ofReversed acc, rest)
    | '\\' :: rest => (escape? rest).bind fun (c, rest) => basic? fuel (c :: acc) rest
    | c :: rest => if isPlain c then basic? fuel (c :: acc) rest else none
    | [] => none

/-- Skips blanks and line ends. Every round skips a line end, so the fuel is the length of the
text. -/
def skipFold : Nat → List Char → List Char
  | 0, cs => cs
  | fuel + 1, cs =>
    match afterLineEnd? (cs.dropWhile isBlank) with
    | some rest => skipFold fuel rest
    | none => cs.dropWhile isBlank

/-- What follows a backslash at the end of a line: the next text that is neither blank nor a line
end. -/
def afterFold? (cs : List Char) : Option (List Char) :=
  (afterLineEnd? (cs.dropWhile isBlank)).map fun rest => skipFold rest.length rest

/-- Reads a text of several lines up to three closing quotes, in front of which two more may stand.
Escapes are read if they are wanted. Every round reads a character, so the fuel is the length of the
text. -/
def lines? (quote : Char) (escapes : Bool) : Nat → List Char → List Char → TextRead
  | 0, _, _ => none
  | fuel + 1, acc, cs =>
    let quotes := (cs.takeWhile fun c => c == quote).length
    if 3 ≤ quotes then
      let kept := min (quotes - 3) 2
      some (ofReversed (List.replicate kept quote ++ acc), cs.drop (kept + 3))
    else
      match afterLineEnd? cs, cs with
      | some rest, _ => lines? quote escapes fuel ('\n' :: acc) rest
      | none, [] => none
      | none, c :: rest =>
        if escapes ∧ c = '\\' then
          match afterFold? rest with
          | some rest => lines? quote escapes fuel acc rest
          | none => (escape? rest).bind fun (c, rest) => lines? quote escapes fuel (c :: acc) rest
        else if isPlain c then
          lines? quote escapes fuel (c :: acc) rest
        else
          none

/-- Reads a text of one line between single quotes, from behind the first. -/
def literal? (cs : List Char) : TextRead :=
  let body := cs.takeWhile fun c => isPlain c && c != '\''
  match cs.drop body.length with
  | '\'' :: rest => some (String.ofList body, rest)
  | _ => none

def quotedLine? : List Char → TextRead
  | '"' :: rest => basic? (rest.length + 1) [] rest
  | '\'' :: rest => literal? rest
  | _ => none

def quoted? : List Char → TextRead
  | '"' :: '"' :: '"' :: rest => lines? '"' true (rest.length + 1) [] (dropLineEnd rest)
  | '\'' :: '\'' :: '\'' :: rest => lines? '\'' false (rest.length + 1) [] (dropLineEnd rest)
  | cs => quotedLine? cs

end Toml

end SchemaForm
