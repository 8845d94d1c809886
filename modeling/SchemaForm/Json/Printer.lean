import SchemaForm.Json.Basic

set_option autoImplicit false
set_option relaxedAutoImplicit false

/-!
The text of JSON values: compact, or with two blanks of indentation for every level.
-/

namespace SchemaForm

/-- From which power of ten on a number is written with an exponent, and below which. -/
structure DecimalLayout where
  lowest : Int
  beyond : Int

/-- JSON numbers are written out from `0.00001` to below `10 ^ 16`. -/
def Json.numberLayout : DecimalLayout := ⟨-5, 16⟩

namespace Decimal

/-- The digits with a point behind the first `point` of them; at least one digit stands on either
side of it. -/
def positional (digits : List Char) (point : Int) : List Char :=
  if point ≤ 0 then
    '0' :: '.' :: (List.replicate (-point).toNat '0' ++ digits)
  else
    let whole := point.toNat
    let padded := digits ++ List.replicate (whole - digits.length) '0'
    let fraction := padded.drop whole
    padded.take whole ++ '.' :: (if fraction.isEmpty then ['0'] else fraction)

/-- One digit, the others behind a point, and the exponent with its sign. -/
def scientific (digits : List Char) (leading : Int) : List Char :=
  let mantissa := match digits with
    | [] => []
    | [d] => [d]
    | d :: rest => d :: '.' :: rest
  let sign := if leading < 0 then '-' else '+'
  mantissa ++ 'e' :: sign :: Nat.toDigits 10 leading.natAbs

/-- The text of a decimal in a layout. -/
def render (layout : DecimalLayout) (d : Decimal) : List Char :=
  if layout.lowest ≤ d.leading ∧ d.leading < layout.beyond then
    positional d.text (d.leading + 1)
  else
    scientific d.text d.leading

end Decimal

namespace Number

def toText : Number → String
  | .int i => toString i
  | .real x =>
    let size := if x.isZero then "0.0" else String.ofList (x.shortest.render Json.numberLayout)
    if x.negative then "-" ++ size else size

end Number

namespace Json

def hexDigit (n : Nat) : Char := (Nat.toDigits 16 n).headD '0'

/-- The written form of a character in a text: quotes, backslashes and control characters are
escaped, all else stands for itself. -/
def escape (c : Char) : List Char :=
  match c with
  | '"' => ['\\', '"']
  | '\\' => ['\\', '\\']
  | '\x08' => ['\\', 'b']
  | '\x0c' => ['\\', 'f']
  | '\n' => ['\\', 'n']
  | '\r' => ['\\', 'r']
  | '\t' => ['\\', 't']
  | _ =>
    if c.toNat < 0x20 then
      ['\\', 'u', '0', '0', hexDigit (c.toNat / 16), hexDigit (c.toNat % 16)]
    else
      [c]

def quote (s : String) : String :=
  String.ofList ('"' :: (s.toList.flatMap escape ++ ['"']))

/-- What stands around and between the parts of an array or object at a level of indentation. -/
def wrap (opening closing : String) (level : Option Nat) (parts : List String) : String :=
  match parts, level with
  | [], _ => opening ++ closing
  | _, none => opening ++ ",".intercalate parts ++ closing
  | _, some n =>
    let outer := "\n" ++ "".pushn ' ' (2 * n)
    let inner := outer ++ "  "
    opening ++ inner ++ ("," ++ inner).intercalate parts ++ outer ++ closing

def colon (level : Option Nat) : String := if level.isSome then ": " else ":"

mutual

/-- The text of a value, in one line without a level, else indented from that level on. -/
def render (level : Option Nat) : Json → String
  | .null => "null"
  | .bool true => "true"
  | .bool false => "false"
  | .number n => n.toText
  | .text s => quote s
  | .array items => wrap "[" "]" level (renderItems (level.map (· + 1)) items)
  | .object members => wrap "\x7b" "\x7d" level (renderMembers (level.map (· + 1)) members)

def renderItems (level : Option Nat) : List Json → List String
  | [] => []
  | v :: rest => render level v :: renderItems level rest

def renderMembers (level : Option Nat) : List (String × Json) → List String
  | [] => []
  | (k, v) :: rest => (quote k ++ colon level ++ render level v) :: renderMembers level rest

end

/-- The text of a value without any blanks. -/
def compact (v : Json) : String := render none v

def pretty (v : Json) : String := render (some 0) v

/-- The text of a value where no quotes are wanted: a text as it is, any other value as JSON. -/
def unquoted : Json → String
  | .text s => s
  | v => v.compact

end Json

end SchemaForm
