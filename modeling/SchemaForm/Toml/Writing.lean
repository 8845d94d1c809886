import SchemaForm.Toml.Basic

set_option autoImplicit false
set_option relaxedAutoImplicit false

/-!
The written form of texts in TOML. The first of these forms that can hold the text unchanged is
taken: double quotes, single quotes, three double quotes, three single quotes. A text for which
there is none is written with escapes.
-/

namespace SchemaForm

namespace Toml

/-- Whether a character can only be written as an escape. -/
def needsEscape (c : Char) : Bool :=
  c != '\t' && c != '\n' && (c.toNat < 0x20 || c.toNat == 0x7F)

def longestRun (c : Char) : List Char → Nat → Nat
  | [], run => run
  | d :: rest, run => if d = c then longestRun c rest (run + 1) else max run (longestRun c rest 0)

/-- Four hexadecimal digits in capitals. -/
def hex4 (n : Nat) : List Char :=
  let ds := (Nat.toDigits 16 n).map Char.toUpper
  List.replicate (4 - ds.length) '0' ++ ds

/-- The written form of a character between double quotes, given how many quotes stand in front of
it and how many may. -/
def escapeChar (severalLines : Bool) (quotes allowed : Nat) (c : Char) : List Char :=
  match c with
  | '"' => if allowed ≤ quotes then ['\\', '"'] else ['"']
  | '\\' => ['\\', '\\']
  | '\x08' => ['\\', 'b']
  | '\t' => ['\\', 't']
  | '\n' => if severalLines then ['\n'] else ['\\', 'n']
  | '\x0c' => ['\\', 'f']
  | '\r' => ['\\', 'r']
  | _ => if needsEscape c then '\\' :: 'u' :: hex4 c.toNat else [c]

/-- The written form of characters between double quotes. An escape ends a run of quotes. -/
def escapeChars (severalLines : Bool) (allowed : Nat) : Nat → List Char → List Char
  | _, [] => []
  | quotes, c :: rest =>
    let written := escapeChar severalLines quotes allowed c
    written ++ escapeChars severalLines allowed (if written = ['"'] then quotes + 1 else 0) rest

def quote (s : String) : String :=
  let cs := s.toList
  let severalLines := cs.contains '\n'
  let escapes := cs.any needsEscape
  let backslash := cs.contains '\\'
  let doubles := longestRun '"' cs 0
  let singles := longestRun '\'' cs 0
  let lineEnd := if severalLines then ['\n'] else []
  let basic := '"' :: escapeChars false 0 0 cs ++ ['"']
  let basicLines :=
    '"' :: '"' :: '"' :: (lineEnd ++ escapeChars true 2 0 cs ++ ['"', '"', '"'])
  String.ofList <|
    if !escapes && !backslash && doubles == 0 && !severalLines then basic
    else if !escapes && singles == 0 && !severalLines then '\'' :: cs ++ ['\'']
    else if !escapes && !backslash && doubles ≤ 2 then basicLines
    else if !escapes && singles ≤ 2 then
      '\'' :: '\'' :: '\'' :: (lineEnd ++ cs ++ ['\'', '\'', '\''])
    else if severalLines then basicLines
    else basic

end Toml

end SchemaForm
