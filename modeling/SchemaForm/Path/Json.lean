import SchemaForm.Json.Decode
import SchemaForm.Json.Printer
import SchemaForm.Path.Basic

set_option autoImplicit false
set_option relaxedAutoImplicit false

/-!
Paths as JSON values: a flat form, or an array of segments in which natural numbers are indices and
all else is keys.
-/

namespace SchemaForm

namespace Segment

/-- The segment of a JSON value: the index of a natural number, else the key of the text. -/
def ofJson (v : Json) : Segment :=
  match Json.natBelow? (2 ^ 64) v with
  | some n => .index n
  | none => .key v.unquoted

def toJson : Segment → Json
  | .key name => .text name
  | .index n => .ofNat n

end Segment

namespace Path

/-- The path of a JSON value. What is neither a text nor an array is the root. -/
def ofJson : Json → Path
  | .text flat => parse flat
  | .array items => ⟨items.map Segment.ofJson⟩
  | _ => root

end Path

end SchemaForm
