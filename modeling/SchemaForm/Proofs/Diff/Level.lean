import Mathlib.Data.List.Nodup
import SchemaForm.Diff.Basic
import SchemaForm.Proofs.Equality

set_option autoImplicit false
set_option relaxedAutoImplicit false

/-!
The levels of a document. The fields of nested schemas lie on the level of their parent, and every
row of a collection is a level of its own. A field reports nothing or one value under its own id;
so where the fields of a level have distinct ids, the change set of an edit has for each of them
just what that field reports.
-/

namespace SchemaForm

def Field.rowSchema? : Field → Option Schema
  | .collection _ fields traits _ => some ⟨fields, traits⟩
  | _ => none

namespace Diff

/-- Two versions of the data of a level, and the schema that describes them. -/
structure Level where
  schema : Schema
  atTop : Bool
  before : Json
  after : Json

def Level.changes (options : DiffOptions) (l : Level) : Dictionary Json :=
  .ofPairs (levelReports options l.schema.traits l.atTop l.before l.after l.schema.fields)

mutual

/-- The field itself, or in place of a nested schema the fields that are included from it. -/
def includedOf (options : DiffOptions) : Field → List Field
  | .nested _ _ fields _ => included options fields
  | .input t kind => [.input t kind]
  | .group t inline => [.group t inline]
  | .collection t fields schema rows => [.collection t fields schema rows]

/-- The fields of a level that a change set includes. -/
def included (options : DiffOptions) : List Field → List Field
  | [] => []
  | f :: rest =>
    (if f.traits.isTracked options.mode options.includeSkipChange then includedOf options f
    else []) ++ included options rest

end

/-- The included collections of a level: their ids, each with the schema of the rows. -/
def collections (options : DiffOptions) (fields : List Field) : List (String × Schema) :=
  (included options fields).filterMap fun
    | .collection t fields traits _ => t.id.map fun id => (id, ⟨fields, traits⟩)
    | _ => none

theorem mem_collections {options : DiffOptions} {fields : List Field} {id : String}
    {child : Schema} (hmember : (id, child) ∈ collections options fields) :
    ∃ t rows, t.id = some id ∧
      .collection t child.fields child.traits rows ∈ included options fields := by
  obtain ⟨f, hpresent, hfound⟩ := List.mem_filterMap.mp hmember
  cases f with
  | collection t fields traits rows =>
    obtain ⟨name, hnamed, hsame⟩ := Option.map_eq_some_iff.mp hfound
    cases hsame
    exact ⟨t, rows, hnamed, hpresent⟩
  | _ => cases hfound

/-- No two included fields of a level have one id, and neither have those of the levels below. -/
inductive DistinctIds (options : DiffOptions) : List Field → Prop where
  | intro {fields : List Field} (hlevel : ((included options fields).filterMap Field.id?).Nodup)
      (hbelow : ∀ id child, (id, child) ∈ collections options fields →
        DistinctIds options child.fields) :
      DistinctIds options fields

private theorem DistinctIds.level {options : DiffOptions} {fields : List Field}
    (h : DistinctIds options fields) : ((included options fields).filterMap Field.id?).Nodup := by
  cases h with
  | intro hlevel _ => exact hlevel

theorem DistinctIds.child {options : DiffOptions} {fields : List Field}
    (h : DistinctIds options fields) {id : String} {child : Schema}
    (hmember : (id, child) ∈ collections options fields) : DistinctIds options child.fields := by
  cases h with
  | intro _ hbelow => exact hbelow id child hmember

/-- The field is no nested schema, so that it has data of its own. -/
def IsData (f : Field) : Prop := ∀ t style fields child, f ≠ .nested t style fields child

mutual

private theorem isData_of_mem_includedOf {options : DiffOptions} {g : Field} :
    (f : Field) → g ∈ includedOf options f → IsData g
  | .nested _ _ fields _, hmember => isData_of_mem_included fields hmember
  | .input t kind, hmember => by
    rw [includedOf, List.mem_singleton] at hmember
    simp [hmember, IsData]
  | .group t inline, hmember => by
    rw [includedOf, List.mem_singleton] at hmember
    simp [hmember, IsData]
  | .collection t fields schema rows, hmember => by
    rw [includedOf, List.mem_singleton] at hmember
    simp [hmember, IsData]

theorem isData_of_mem_included {options : DiffOptions} {g : Field} : (fields : List Field) →
    g ∈ included options fields → IsData g
  | [], hmember => by cases hmember
  | f :: rest, hmember => by
    rw [included, List.mem_append] at hmember
    rcases hmember with hhere | hlater
    · split at hhere
      · exact isData_of_mem_includedOf f hhere
      · cases hhere
    · exact isData_of_mem_included rest hlater

end

/-! ### The reports of a field -/

section Reports

variable {options : DiffOptions} {atTop : Bool} {original current : Json} {schema : SchemaTraits}
  {f : Field}

theorem fieldReports_unnamed (hdata : IsData f) (hid : f.id? = none) :
    fieldReports options schema atTop original current f = [] := by
  cases f with
  | nested t style fields child => exact absurd rfl (hdata t style fields child)
  | input t kind =>
    have ht : t.id = none := hid
    simp only [fieldReports, ht]
  | group t inline =>
    have ht : t.id = none := hid
    simp only [fieldReports, ht]
  | collection t fields child rows =>
    have ht : t.id = none := hid
    simp only [fieldReports, ht]

theorem fieldReports_scalar (hdata : IsData f) (hscalar : f.rowSchema? = none) {id : String}
    (hid : f.id? = some id) : fieldReports options schema atTop original current f =
      if Json.alike? (original.get? id) (current.get? id) then []
      else report options atTop id ((current.get? id).getD .null) := by
  have hvalue (t : FieldTraits) (ht : t.id = some id) :
      fieldReports options schema atTop original current (.input t .text) =
        if Json.alike? (original.get? id) (current.get? id) then []
        else report options atTop id ((current.get? id).getD .null) := by
    simp only [fieldReports, ht]
    split
    · rename_i hsame
      rw [if_pos (Json.alike?_of_same? hsame.2)]
    · rfl
  cases f with
  | nested t style fields child => exact absurd rfl (hdata t style fields child)
  | collection t fields child rows => cases hscalar
  | input t kind => simpa only [fieldReports] using hvalue t hid
  | group t inline => simpa only [fieldReports] using hvalue t hid

/-- A field reports nothing, or one value under its own id. -/
theorem fieldReports_cases (hdata : IsData f) :
    fieldReports options schema atTop original current f = [] ∨
    ∃ id v, f.id? = some id ∧
      fieldReports options schema atTop original current f = [(id, reported options atTop v)] := by
  cases hid : f.id? with
  | none => exact .inl (fieldReports_unnamed hdata hid)
  | some id =>
    cases hrows : f.rowSchema? with
    | none =>
      rw [fieldReports_scalar hdata hrows hid]
      split
      · exact .inl rfl
      · exact .inr ⟨id, _, rfl, rfl⟩
    | some child =>
      cases f with
      | collection t fields traits rows =>
        have ht : t.id = some id := hid
        simp only [fieldReports, ht, partitions]
        split_ifs
        · exact .inl rfl
        · exact .inl rfl
        · exact .inr ⟨id, _, rfl, rfl⟩
        · exact .inr ⟨id, _, rfl, rfl⟩
        · exact .inl rfl
      | _ => cases hrows

end Reports

/-! ### The reports of a level in edit mode -/

section Edit

variable {options : DiffOptions} {atTop : Bool} {original current : Json}

mutual

private theorem fieldReports_eq (hedit : options.mode = .edit) (base schema : SchemaTraits) :
    (f : Field) → fieldReports options schema atTop original current f =
      (includedOf options f).flatMap (fieldReports options base atTop original current)
  | .nested _ _ fields child => by
    rw [fieldReports, includedOf]
    exact levelReports_eq hedit base child fields
  | .input t kind => by simp [includedOf, fieldReports]
  | .group t inline => by simp [includedOf, fieldReports]
  | .collection t fields child rows => by
    simp only [includedOf, fieldReports, hedit, if_true, List.flatMap_cons, List.flatMap_nil,
      List.append_nil]

/-- A level reports what its included fields report, one after the other. The traits of the schemas
have no part in it. -/
theorem levelReports_eq (hedit : options.mode = .edit) (base schema : SchemaTraits) :
    (fields : List Field) → levelReports options schema atTop original current fields =
      (included options fields).flatMap (fieldReports options base atTop original current)
  | [] => rfl
  | f :: rest => by
    rw [levelReports, included, List.flatMap_append, levelReports_eq hedit base schema rest]
    split
    · rw [fieldReports_eq hedit base schema f]
    · rfl

end

/-- Where ids are distinct, the changes of a level have for an included field what it reports. -/
theorem get?_changes (hedit : options.mode = .edit) {l : Level}
    (hdistinct : DistinctIds options l.schema.fields) {f : Field}
    (hmember : f ∈ included options l.schema.fields) {id : String} (hnamed : f.id? = some id) :
    Dictionary.get? (l.changes options) id =
      Dictionary.get? (fieldReports options l.schema.traits l.atTop l.before l.after f) id := by
  rw [Level.changes, levelReports_eq hedit l.schema.traits]
  refine Dictionary.get?_ofPairs_flatMap Field.id? _ hdistinct.level
    (fun g hpresent => ?_) hmember hnamed
  have hreports : fieldReports options l.schema.traits l.atTop l.before l.after g = [] ∨ _ :=
    fieldReports_cases (isData_of_mem_included l.schema.fields hpresent)
  exact hreports.imp_right fun ⟨name, v, hown, hsingle⟩ => ⟨name, _, hown, hsingle⟩

end Edit

end Diff

end SchemaForm
