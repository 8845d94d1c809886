import SchemaForm.Json.Numeral

set_option autoImplicit false
set_option relaxedAutoImplicit false

/-!
JSON texts. Reading goes over tokens to the text's tree, which keeps repeated members and marks the
numbers out of range and the texts with half a surrogate pair, and from there to a value. Whoever
skips a part of a text looks at its tree only, so a part that has no value can be skipped.
-/

namespace SchemaForm

/-- A part of a JSON text. -/
inductive JsonText where
  | null
  | bool (flag : Bool)
  | number (value : Option Number)
  | text (value : Option String)
  | array (items : List JsonText)
  | object (members : List (Option String × JsonText))

namespace JsonText

inductive Token where
  | beginArray | endArray | beginObject | endObject | comma | colon
  | null
  | bool (flag : Bool)
  | number (value : Option Number)
  | text (value : Option String)

def hexValue? (c : Char) : Option Nat :=
  if c.isDigit then some (c.toNat - '0'.toNat)
  else if 'a' ≤ c ∧ c ≤ 'f' then some (c.toNat - 'a'.toNat + 10)
  else if 'A' ≤ c ∧ c ≤ 'F' then some (c.toNat - 'A'.toNat + 10)
  else none

/-- A number of four hexadecimal digits. -/
def hex4? (a b c d : Char) : Option Nat := do
  return ((← hexValue? a) * 16 + (← hexValue? b)) * 256 + (← hexValue? c) * 16 + (← hexValue? d)

/-- What has been read of a text between quotes: its characters in reverse, the first half of a
surrogate pair if one waits for its second half, and whether all halves were paired so far. -/
structure TextSoFar where
  chars : List Char
  half : Option Nat
  paired : Bool

namespace TextSoFar

def start : TextSoFar := ⟨[], none, true⟩

def push (t : TextSoFar) (c : Char) : TextSoFar :=
  ⟨c :: t.chars, none, t.paired && t.half.isNone⟩

def pushUnit (t : TextSoFar) (n : Nat) : TextSoFar :=
  if 0xDC00 ≤ n ∧ n ≤ 0xDFFF then
    match t.half with
    | some m =>
      let c := Char.ofNat (0x10000 + (m - 0xD800) * 0x400 + (n - 0xDC00))
      ⟨c :: t.chars, none, t.paired⟩
    | none => { t with paired := false }
  else if 0xD800 ≤ n ∧ n ≤ 0xDBFF then
    ⟨t.chars, some n, t.paired && t.half.isNone⟩
  else
    t.push (Char.ofNat n)

/-- The text read, none when it holds half a surrogate pair. -/
def finish (t : TextSoFar) : Option String :=
  if t.paired && t.half.isNone then some (String.ofList t.chars.reverse) else none

end TextSoFar

/-- The character meant by a letter behind a backslash. -/
def escaped? : Char → Option Char
  | '"' => some '"'
  | '\\' => some '\\'
  | '/' => some '/'
  | 'b' => some '\x08'
  | 'f' => some '\x0c'
  | 'n' => some '\n'
  | 'r' => some '\r'
  | 't' => some '\t'
  | _ => none

/-- Reads a text up to its closing quote: the text, and what follows it. -/
def quoted? (soFar : TextSoFar) : List Char → Option (Option String × List Char)
  | [] => none
  | '"' :: rest => some (soFar.finish, rest)
  | '\\' :: 'u' :: a :: b :: c :: d :: rest =>
    (hex4? a b c d).bind fun n => quoted? (soFar.pushUnit n) rest
  | '\\' :: c :: rest => (escaped? c).bind fun e => quoted? (soFar.push e) rest
  | c :: rest => if c.toNat < 0x20 ∨ c = '\\' then none else quoted? (soFar.push c) rest

/-- The tokens of a text, in reverse on top of those before. Every round reads a character, so the
fuel is the length of the text. -/
def tokensFrom? : Nat → List Char → List Token → Option (List Token)
  | _, [], acc => some acc.reverse
  | 0, _ :: _, _ => none
  | fuel + 1, c :: rest, acc =>
    match c with
    | ' ' | '\t' | '\n' | '\r' => tokensFrom? fuel rest acc
    | '[' => tokensFrom? fuel rest (.beginArray :: acc)
    | ']' => tokensFrom? fuel rest (.endArray :: acc)
    | '{' => tokensFrom? fuel rest (.beginObject :: acc)
    | '}' => tokensFrom? fuel rest (.endObject :: acc)
    | ',' => tokensFrom? fuel rest (.comma :: acc)
    | ':' => tokensFrom? fuel rest (.colon :: acc)
    | '"' => (quoted? .start rest).bind fun (t, rest) => tokensFrom? fuel rest (.text t :: acc)
    | _ =>
      if NumberText.mayContain c then
        (NumberText.ofChars? (c :: rest.takeWhile NumberText.mayContain)).bind fun t =>
          tokensFrom? fuel (rest.dropWhile NumberText.mayContain) (.number t.toNumber? :: acc)
      else
        match c, rest with
        | 'n', 'u' :: 'l' :: 'l' :: rest => tokensFrom? fuel rest (.null :: acc)
        | 't', 'r' :: 'u' :: 'e' :: rest => tokensFrom? fuel rest (.bool true :: acc)
        | 'f', 'a' :: 'l' :: 's' :: 'e' :: rest => tokensFrom? fuel rest (.bool false :: acc)
        | _, _ => none

mutual

/-- Reads one part: the part, and the tokens behind it. Every call is paid by a token. -/
def part? : Nat → List Token → Option (JsonText × List Token)
  | 0, _ => none
  | fuel + 1, tokens =>
    match tokens with
    | .null :: rest => some (.null, rest)
    | .bool b :: rest => some (.bool b, rest)
    | .number n :: rest => some (.number n, rest)
    | .text t :: rest => some (.text t, rest)
    | .beginArray :: .endArray :: rest => some (.array [], rest)
    | .beginArray :: rest => (items? fuel rest).map fun (items, rest) => (.array items, rest)
    | .beginObject :: .endObject :: rest => some (.object [], rest)
    | .beginObject :: rest =>
      (members? fuel rest).map fun (members, rest) => (.object members, rest)
    | _ => none

def items? : Nat → List Token → Option (List JsonText × List Token)
  | 0, _ => none
  | fuel + 1, tokens =>
    (part? fuel tokens).bind fun (item, rest) =>
      match rest with
      | .endArray :: rest => some ([item], rest)
      | .comma :: rest => (items? fuel rest).map fun (items, rest) => (item :: items, rest)
      | _ => none

def members? : Nat → List Token → Option (List (Option String × JsonText) × List Token)
  | 0, _ => none
  | fuel + 1, tokens =>
    match tokens with
    | .text key :: .colon :: rest =>
      (part? fuel rest).bind fun (value, rest) =>
        match rest with
        | .endObject :: rest => some ([(key, value)], rest)
        | .comma :: rest =>
          (members? fuel rest).map fun (members, rest) => ((key, value) :: members, rest)
        | _ => none
    | _ => none

end

def parse? (s : String) : Option JsonText :=
  let cs := s.toList
  (tokensFrom? cs.length cs []).bind fun tokens =>
    match part? (2 * tokens.length + 1) tokens with
    | some (t, []) => some t
    | _ => none

/-- How deep arrays and objects may nest. -/
def maxDepth : Nat := 127

mutual

/-- The value of a part, none when it has no value or nests too deep. The last of several members
of one key counts. -/
def toJson? (depth : Nat) : JsonText → Option Json
  | .null => some .null
  | .bool b => some (.bool b)
  | .number n => n.map .number
  | .text t => t.map .text
  | .array items =>
    match depth with
    | 0 => none
    | depth + 1 => (itemsToJson? depth items).map .array
  | .object members =>
    match depth with
    | 0 => none
    | depth + 1 => (membersToJson? depth members).map fun pairs => Json.ofPairs pairs

def itemsToJson? (depth : Nat) : List JsonText → Option (List Json)
  | [] => some []
  | t :: rest => do return (← toJson? depth t) :: (← itemsToJson? depth rest)

def membersToJson? (depth : Nat) :
    List (Option String × JsonText) → Option (List (String × Json))
  | [] => some []
  | (key, t) :: rest => do return (← key, ← toJson? depth t) :: (← membersToJson? depth rest)

end

mutual

/-- A value as part of a text. -/
def ofJson : Json → JsonText
  | .null => .null
  | .bool b => .bool b
  | .number n => .number (some n)
  | .text s => .text (some s)
  | .array items => .array (ofItems items)
  | .object members => .object (ofMembers members)

def ofItems : List Json → List JsonText
  | [] => []
  | v :: rest => ofJson v :: ofItems rest

def ofMembers : List (String × Json) → List (Option String × JsonText)
  | [] => []
  | (k, v) :: rest => (some k, ofJson v) :: ofMembers rest

end

end JsonText

def Json.parse? (s : String) : Option Json :=
  (JsonText.parse? s).bind (JsonText.toJson? JsonText.maxDepth)

end SchemaForm
