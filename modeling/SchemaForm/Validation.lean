import SchemaForm.Binary64.Reading
import SchemaForm.Schema.Basic
import SchemaForm.Text.Blank

set_option autoImplicit false
set_option relaxedAutoImplicit false

/-!
Validation of a document against a schema. The walk takes the fields of a level in order, the rows
of a collection before the uniqueness of its key columns, and the schema's own validator after all
fields of its level. Its answer is the first failure met.
-/

namespace SchemaForm

/-- A failure: where, and what is wrong. -/
structure Failure where
  path : Path
  message : String
  deriving DecidableEq

namespace Failure

def text (f : Failure) : String := f.path.flat ++ ": " ++ f.message

end Failure

namespace Check

/-- Whether a value counts as not given: absent, null, a blank text or an array without items. -/
def isEmpty : Option Json → Bool
  | none | some .null => true
  | some (.text s) => Text.isBlankText s
  | some (.array items) => items.isEmpty
  | some _ => false

/-- The number meant by a value: a number, or a text that reads as one. -/
def number? : Option Json → Option Binary64
  | some (.number n) => n.toBinary64?
  | some (.text s) => Numeral.real? (Text.trimChars s.toList)
  | _ => none

def isWhole : Number → Bool
  | .int _ => true
  | .real x => x.isIntegral

/-- Whether a value is an integer, or a text that reads as one. -/
def isInteger : Option Json → Bool
  | some (.number n) => isWhole n
  | some (.text s) => (Numeral.signed? (Text.trimChars s.toList)).isSome
  | _ => false

def quoted (label : String) : String := "'" ++ label ++ "'"

/-- The message for a value that must be given. -/
def given? (label : String) (value : Option Json) : Option String :=
  if isEmpty value then some (quoted label ++ " cannot be empty.") else none

/-- The message for a value that must be an integer, if it is given. -/
def integer? (label : String) (value : Option Json) : Option String :=
  if isEmpty value || isInteger value then none else some (quoted label ++ " must be an integer.")

/-- The message for a value that must be a number, if it is given. -/
def numeric? (label : String) (value : Option Json) : Option String :=
  if isEmpty value || (number? value).isSome then none
  else some (quoted label ++ " must be a numeric.")

def atLeast? (label : String) (bound : Option Binary64) (x : Binary64) : Option String :=
  (bound.filter fun b => x.less b).map fun b =>
    quoted label ++ " must be greater than or equal to " ++ (Number.real b).plainText ++ "."

def atMost? (label : String) (bound : Option Binary64) (x : Binary64) : Option String :=
  (bound.filter fun b => b.less x).map fun b =>
    quoted label ++ " must be less than or equal to " ++ (Number.real b).plainText ++ "."

/-- The message for a number out of bounds, which are finite; the lower bound is tried first. -/
def bounds? (label : String) (value : Option Json) (min max : Option Binary64) : Option String :=
  (number? value).bind fun x => (atLeast? label min x).or (atMost? label max x)

/-- The message for a value that does not suit its kind of input. -/
def kind? (kind : InputKind) (label : String) (value : Option Json) : Option String :=
  match kind with
  | .int min max => (integer? label value).or (bounds? label value min max)
  | .numeric min max => (numeric? label value).or (bounds? label value min max)
  | _ => none

/-- The values of a row in some columns, null for what is absent. -/
def columnValues (columns : List String) (row : Json) : List Json :=
  columns.map fun column => (row.get? column).getD .null

/-- The place of the first row whose columns repeat those of an earlier row. -/
def repeatedFrom? (columns : List String) (seen : List (List Json)) (place : Nat) :
    List Json → Option Nat
  | [] => none
  | row :: rest =>
    let values := columnValues columns row
    if seen.any fun earlier => Json.sameItems earlier values then
      some place
    else
      repeatedFrom? columns (seen ++ [values]) (place + 1) rest

/-- The place of the first row that repeats the key columns of an earlier one. Without key columns
nothing is repeated. -/
def repeatedRow? (columns : List String) (rows : List Json) : Option Nat :=
  if columns.isEmpty then none else repeatedFrom? columns [] 0 rows

end Check

namespace Validation

/-- The label a message about an empty input uses: in a row it names the collection. -/
def emptinessLabel (t : FieldTraits) (collection : Option String) : String :=
  match collection with
  | some collection => t.displayLabel ++ " in " ++ collection
  | none => t.emptyLabel.getD t.displayLabel

def inputMessage? (t : FieldTraits) (kind : InputKind) (value : Option Json)
    (collection : Option String) : Option String :=
  let emptiness :=
    if t.noEmpty then Check.given? (emptinessLabel t collection) value else none
  emptiness.or (Check.kind? kind t.displayLabel value)

/-- The failure of an input. An input without id is never checked. -/
def inputFailure? (t : FieldTraits) (kind : InputKind) (data : Json) (access : Path)
    (collection : Option String) : Option Failure :=
  t.id.bind fun id =>
    (inputMessage? t kind (data.get? id) collection).map fun message => ⟨access.key id, message⟩

/-- The message about key columns that are not unique. -/
def uniquenessMessage (t : FieldTraits) (fields : List Field) (rows : CollectionTraits) : String :=
  let columns := fields.filter fun f => f.id?.any fun id => rows.uniqueColumns.contains id
  let names := ", ".intercalate (columns.map fun f => f.traits.displayLabel)
  match t.label.filter fun label => !Text.isBlankText label with
  | some label => names ++ " in " ++ label ++ " must be unique."
  | none => names ++ " must be unique."

/-- The failure of a collection as a whole. -/
def uniquenessFailure? (t : FieldTraits) (fields : List Field) (rows : CollectionTraits)
    (items : List Json) (path : Path) : Option Failure :=
  (Check.repeatedRow? rows.uniqueColumns items).map fun _ =>
    ⟨path, uniquenessMessage t fields rows⟩

/-- The first report of a schema's own validator. -/
def customFailure? (schema : SchemaTraits) (data : Json) (access : Path) : Option Failure :=
  (schema.reports data).head?.map fun (path, message) => ⟨access.join path, message⟩

mutual

def fieldFailure? (data : Json) (access : Path) (collection : Option String) :
    Field → Option Failure
  | .input t kind => inputFailure? t kind data access collection
  | .group _ _ => none
  | .nested _ _ fields schema =>
    (fieldsFailure? schema.idAttribute data access none fields).or
      (customFailure? schema data access)
  | .collection t fields schema rows =>
    t.id.bind fun id =>
      let path := access.key id
      let items := data.rows id
      (items.zipIdx.findSome? fun (row, n) =>
        (fieldsFailure? schema.idAttribute row (path.index n) t.label fields).or
          (customFailure? schema row (path.index n))).or
        (uniquenessFailure? t fields rows items path)

/-- The first failure of the fields of a level. The field of the id attribute is passed over. -/
def fieldsFailure? (idAttribute : String) (data : Json) (access : Path)
    (collection : Option String) : List Field → Option Failure
  | [] => none
  | f :: rest =>
    if f.id? = some idAttribute then
      fieldsFailure? idAttribute data access collection rest
    else
      (fieldFailure? data access collection f).or
        (fieldsFailure? idAttribute data access collection rest)

end

def levelFailure? (s : Schema) (data : Json) (access : Path) (collection : Option String) :
    Option Failure :=
  (fieldsFailure? s.traits.idAttribute data access collection s.fields).or
    (customFailure? s.traits data access)

def failure? (s : Schema) (doc : Json) : Option Failure := levelFailure? s doc .root none

end Validation

end SchemaForm
