import SchemaForm.Json.Equality
import SchemaForm.RowId

set_option autoImplicit false
set_option relaxedAutoImplicit false

/-!
Comparing the rows of a collection by their identities. A row without identity only corresponds to
an equal row.
-/

namespace SchemaForm

/-- The rows that were added, removed or changed. Added and changed rows are those of the current
array, removed rows those of the original one. -/
structure RowDiff where
  added : List Json
  removed : List Json
  updated : List Json

namespace RowDiff

/-- The row of a list that corresponds to a row. -/
def counterpart? (rows : List Json) (row : Json) : Option Json :=
  match RowId.of? row with
  | some id => rows.find? fun candidate => RowId.of? candidate == some id
  | none => rows.find? fun candidate => candidate.same row

/-- Whether a row has a counterpart that differs from it. -/
def isUpdated (original : List Json) (row : Json) : Bool :=
  match counterpart? original row with
  | some before => !before.alikeObjects row
  | none => false

def of (original current : List Json) : RowDiff where
  added := current.filter fun row => (counterpart? original row).isNone
  removed := original.filter fun row => (counterpart? current row).isNone
  updated := current.filter (isUpdated original)

def isEmpty (d : RowDiff) : Bool := d.added.isEmpty && d.removed.isEmpty && d.updated.isEmpty

end RowDiff

end SchemaForm
