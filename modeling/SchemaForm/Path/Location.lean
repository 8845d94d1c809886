import SchemaForm.Json.Basic
import SchemaForm.Path.Basic

set_option autoImplicit false
set_option relaxedAutoImplicit false

/-!
Reading and writing the location of a path in a document. Reading takes an index of an array from a
key as well, if the key is a numeral. Writing keeps arrays for index segments only, and puts objects
in the place of everything else on its way.
-/

namespace SchemaForm

namespace Json

def child? : Json → Segment → Option Json
  | .object members, s => Dictionary.get? members s.text
  | .array items, .index n => items[n]?
  | .array items, .key name => (Segment.index? name.toList).bind fun n => items[n]?
  | _, _ => none

def valueAtSegments? : Json → List Segment → Option Json
  | v, [] => some v
  | v, s :: rest => (v.child? s).bind fun c => valueAtSegments? c rest

def valueAt? (doc : Json) (p : Path) : Option Json := doc.valueAtSegments? p.segments

/-- The value at a path, null when there is none. -/
def valueAtOrNull (doc : Json) (p : Path) : Json := (doc.valueAt? p).getD .null

/-- The rows at a path: none unless there is an array. -/
def rowsAt (doc : Json) (p : Path) : List Json := ((doc.valueAt? p).bind items?).getD []

/-- A list with another item at a position, filled up with nulls as far as needed. -/
def setItem (items : List Json) (n : Nat) (v : Json) : List Json :=
  if n < items.length then
    items.set n v
  else
    items ++ List.replicate (n - items.length) .null ++ [v]

/-- The value with another child: in an array at an index, in an object under the text of the
segment, and in place of any other value a new object. -/
def putChild (v : Json) (s : Segment) (c : Json) : Json :=
  match v, s with
  | .array items, .index n => .array (setItem items n c)
  | .object members, s => .object (Dictionary.insert members s.text c)
  | _, s => .object [(s.text, c)]

/-- The child a write goes on into, if it is an array or an object. -/
def container? (v : Json) (s : Segment) : Option Json :=
  let c := match v, s with
    | .array items, .index n => items[n]?
    | .object members, s => Dictionary.get? members s.text
    | _, _ => none
  match c with
  | some (.array items) => some (.array items)
  | some (.object members) => some (.object members)
  | _ => none

/-- The empty container for what comes next: an array for an index, else an object. -/
def emptyFor : List Segment → Json
  | .index _ :: _ => .array []
  | _ => .object []

/-- Writes at the end of a list of segments. -/
def setAtSegments (new : Json) : Json → List Segment → Json
  | _, [] => new
  | v, s :: rest => v.putChild s (setAtSegments new ((v.container? s).getD (emptyFor rest)) rest)

/-- Writes a value at a path, making the containers that are missing on the way. -/
def setAt (doc : Json) (p : Path) (new : Json) : Json := setAtSegments new doc p.segments

/-- Changes the value one segment further, if there is one. -/
def modifyChild? (v : Json) (s : Segment) (f : Json → Option Json) : Option Json :=
  match v with
  | .object members =>
    ((Dictionary.get? members s.text).bind f).map fun c =>
      .object (Dictionary.insert members s.text c)
  | .array items =>
    let position := match s with
      | .index n => some n
      | .key name => Segment.index? name.toList
    position.bind fun n => (items[n]?.bind f).map fun c => .array (items.set n c)
  | _ => none

/-- Changes the value at the end of a list of segments, if there is one. -/
def modifyAtSegments? (f : Json → Json) : Json → List Segment → Option Json
  | v, [] => some (f v)
  | v, s :: rest => v.modifyChild? s fun c => modifyAtSegments? f c rest

/-- Changes the value at a path, if there is one. -/
def modifyAt? (doc : Json) (p : Path) (f : Json → Json) : Option Json :=
  modifyAtSegments? f doc p.segments

end Json

end SchemaForm
