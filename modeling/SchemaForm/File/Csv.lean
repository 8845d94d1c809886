import SchemaForm.Json.Printer

set_option autoImplicit false
set_option relaxedAutoImplicit false

/-!
Rows as comma-separated values, one line a row under a line of headers.
-/

namespace SchemaForm

namespace Csv

/-- The text of a cell: nothing for null, a text as it is, any other value as JSON. -/
def cellText : Option Json → String
  | none | some .null => ""
  | some v => v.unquoted

/-- Whether a character can only stand between quotes. -/
def isSpecial (c : Char) : Bool := c == ',' || c == '"' || c == '\n'

/-- The written form of a text: between quotes if it holds a special character, each quote in it
doubled. -/
def encode (s : String) : String :=
  if s.toList.any isSpecial then
    String.ofList ('"' :: (s.toList.flatMap fun c => if c = '"' then ['"', '"'] else [c]) ++ ['"'])
  else
    s

def line (cells : List String) : String := ",".intercalate (cells.map encode) ++ "\n"

/-- The table of some rows, with a column for every header. -/
def table (headers : List String) (rows : List Json) : String :=
  line headers ++
    String.join (rows.map fun row => line (headers.map fun h => cellText (row.get? h)))

end Csv

end SchemaForm
