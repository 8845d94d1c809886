import SchemaForm.Binary64.Reading

set_option autoImplicit false
set_option relaxedAutoImplicit false

/-!
Paths address locations of a document or an options tree. A path has a flat form, the texts of its
segments with dots between them; reading a flat form makes an index of every segment that is a
numeral.
-/

namespace SchemaForm

/-- A step of a path: a field id or a row index. -/
inductive Segment where
  | key (name : String)
  | index (position : Nat)
  deriving DecidableEq

/-- A sequence of steps from the root. -/
structure Path where
  segments : List Segment
  deriving DecidableEq

namespace Segment

/-- Indices lie below this bound. -/
def indexBound : Nat := 2 ^ 64

/-- Reads an index: digits with an optional plus sign. -/
def index? (cs : List Char) : Option Nat := Numeral.below? indexBound cs

/-- The segment meant by a part of a flat form. -/
def ofChars (cs : List Char) : Segment :=
  match index? cs with
  | some n => .index n
  | none => .key (String.ofList cs)

def chars : Segment → List Char
  | .key name => name.toList
  | .index n => Nat.toDigits 10 n

/-- The text of a segment, under which an object holds it. -/
def text (s : Segment) : String := String.ofList s.chars

theorem text_key (name : String) : (key name).text = name := String.ofList_toList

def isIndex : Segment → Bool
  | .key _ => false
  | .index _ => true

/-- The order of segments: keys by their characters, then indices by their value. -/
def notAfter : Segment → Segment → Bool
  | .key a, .key b => a ≤ b
  | .key _, .index _ => true
  | .index _, .key _ => false
  | .index m, .index n => m ≤ n

end Segment

namespace Path

def root : Path := ⟨[]⟩

/-- The parts of a list of characters between dots. -/
def splitAtDots : List Char → List (List Char)
  | [] => [[]]
  | '.' :: rest => [] :: splitAtDots rest
  | c :: rest =>
    match splitAtDots rest with
    | part :: parts => (c :: part) :: parts
    | [] => [[c]]

/-- Reads a flat form. The empty text is the root. -/
def parse (flat : String) : Path :=
  if flat = "" then root else ⟨(splitAtDots flat.toList).map Segment.ofChars⟩

def flatChars (p : Path) : List Char := ['.'].intercalate (p.segments.map Segment.chars)

/-- The flat form: the texts of the segments with dots between them. -/
def flat (p : Path) : String := String.ofList p.flatChars

def child (p : Path) (s : Segment) : Path := ⟨p.segments ++ [s]⟩

def key (p : Path) (name : String) : Path := p.child (.key name)

def index (p : Path) (n : Nat) : Path := p.child (.index n)

def join (p q : Path) : Path := ⟨p.segments ++ q.segments⟩

/-- The path without its last segment; the root has none. -/
def parent? (p : Path) : Option Path :=
  if p.segments.isEmpty then none else some ⟨p.segments.dropLast⟩

/-- The data level of the last segment. -/
def level (p : Path) : Path := ⟨p.segments.dropLast⟩

def last? (p : Path) : Option Segment := p.segments.getLast?

def length (p : Path) : Nat := p.segments.length

def isRoot (p : Path) : Bool := p.segments.isEmpty

/-- The order of segment lists: the first difference decides, and a part comes before the whole. -/
def segmentsNotAfter : List Segment → List Segment → Bool
  | [], _ => true
  | _ :: _, [] => false
  | a :: as, b :: bs => if a = b then segmentsNotAfter as bs else a.notAfter b

def notAfter (p q : Path) : Bool := segmentsNotAfter p.segments q.segments

def sort (paths : List Path) : List Path := paths.mergeSort notAfter

end Path

end SchemaForm
