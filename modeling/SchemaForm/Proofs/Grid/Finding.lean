import SchemaForm.Grid.Basic
import SchemaForm.Proofs.Diff.Declared

set_option autoImplicit false
set_option relaxedAutoImplicit false

/-!
Where a path finds a collection. On each level it is the first field with the id, in nested schemas
too; ids and positions of rows take turns.
-/

namespace SchemaForm

namespace Field

mutual

/-- A field with those of its nested schemas. -/
def spread : Field → List Field
  | .nested t style fields schema => .nested t style fields schema :: spreadAll fields
  | .input t kind => [.input t kind]
  | .group t inline => [.group t inline]
  | .collection t fields schema rows => [.collection t fields schema rows]

def spreadAll : List Field → List Field
  | [] => []
  | f :: rest => f.spread ++ spreadAll rest

end

end Field

namespace CollectionField

def field (c : CollectionField) : Field := .collection c.traits c.fields c.schema c.rows

theorem ofField?_eq_some_iff {f : Field} {c : CollectionField} :
    ofField? f = some c ↔ f = c.field := by
  cases f <;> simp [ofField?, field]
  case collection t fields schema rows =>
    cases c
    simp

private theorem find?_cons_id (id : String) (f : Field) (inside : List Field) :
    (f :: inside).find? (fun g => g.id? == some id) =
      if f.traits.id = some id then some f else inside.find? fun g => g.id? == some id := by
  rw [List.find?_cons]
  by_cases hid : f.traits.id = some id
  · rw [if_pos hid, Field.id?, beq_iff_eq.mpr hid]
  · rw [if_neg hid, Field.id?, beq_eq_false_iff_ne.mpr hid]

mutual

private theorem fieldWithin?_eq (id : String) : (f : Field) →
    fieldWithin? id f = f.spread.find? fun g => g.id? == some id
  | .nested t style fields schema => by
    rw [Field.spread, find?_cons_id, fieldWithin?, fieldAmong?_eq id fields]
    rfl
  | .input _ _ | .group _ _ | .collection _ _ _ _ => by
    rw [Field.spread, find?_cons_id]
    rfl

theorem fieldAmong?_eq (id : String) : (fields : List Field) →
    fieldAmong? id fields = (Field.spreadAll fields).find? fun g => g.id? == some id
  | [] => rfl
  | f :: rest => by
    rw [fieldAmong?, Field.spreadAll, List.find?_append, fieldWithin?_eq id f,
      fieldAmong?_eq id rest]

end

theorem field_id?_of_fieldAmong? {id : String} {fields : List Field} {c : CollectionField}
    (hfirst : fieldAmong? id fields = some c.field) :
    c.field ∈ Field.spreadAll fields ∧ c.traits.id = some id := by
  rw [fieldAmong?_eq] at hfirst
  have hid : c.field.id? = some id := by simpa using List.find?_some hfirst
  exact ⟨List.mem_of_find?_eq_some hfirst, hid⟩

theorem odd_length_of_find? {fields : List Field} {steps : List Segment} {c : CollectionField}
    (hfound : find? fields steps = some c) : steps.length % 2 = 1 := by
  induction fields, steps using find?.induct with
  | case1 fields id => rfl
  | case2 fields id n rest ih =>
    obtain ⟨above, -, hrest⟩ := Option.bind_eq_some_iff.mp hfound
    have hodd := ih above hrest
    rw [List.length_cons, List.length_cons]
    omega
  | case3 steps fields hkey hrow =>
    rw [find?.eq_3 fields steps hkey hrow] at hfound
    cases hfound

theorem getLast?_of_find? {fields : List Field} {l : List Segment} {c : CollectionField}
    (hfind : find? fields l = some c) :
    ∃ id, l.getLast? = some (.key id) ∧ c.traits.id = some id := by
  fun_induction find? fields l with
  | case1 fields id =>
    obtain ⟨f, hfirst, hf⟩ := Option.bind_eq_some_iff.mp hfind
    rw [ofField?_eq_some_iff.mp hf] at hfirst
    exact ⟨id, rfl, (field_id?_of_fieldAmong? hfirst).2⟩
  | case2 fields id n rest ih =>
    obtain ⟨outer, -, hfind⟩ := Option.bind_eq_some_iff.mp hfind
    obtain ⟨last, hlast, hid⟩ := ih outer hfind
    cases rest with
    | nil => cases hlast
    | cons s rest => exact ⟨last, by simpa using hlast, hid⟩
  | case3 => cases hfind

mutual

private theorem exists_declaredOf_of_mem_spread {c : CollectionField} (schema : Schema)
    (around : List FieldTraits) : (f : Field) → c.field ∈ f.spread →
      ∃ d ∈ Diff.declaredOf schema around f, d.field = c.field
  | .nested t style fields child, hc => by
    rcases List.mem_cons.mp (by simpa only [Field.spread] using hc) with hsame | hc
    · cases hsame
    · exact exists_declared_of_mem_spreadAll ⟨fields, child⟩ (t :: around) fields hc
  | .input _ _, hc => by simp [Field.spread, field] at hc
  | .group _ _, hc => by simp [Field.spread, field] at hc
  | .collection t fields child rows, hc => by
    rw [Field.spread, List.mem_singleton] at hc
    exact ⟨_, List.mem_singleton_self _, hc.symm⟩

private theorem exists_declared_of_mem_spreadAll {c : CollectionField} (schema : Schema)
    (around : List FieldTraits) : (fields : List Field) → c.field ∈ Field.spreadAll fields →
      ∃ d ∈ Diff.declared schema around fields, d.field = c.field
  | [], hc => by simp [Field.spreadAll] at hc
  | f :: rest, hc => by
    rcases List.mem_append.mp (by simpa only [Field.spreadAll] using hc) with hc | hc
    · obtain ⟨d, hd, hfield⟩ := exists_declaredOf_of_mem_spread schema around f hc
      exact ⟨d, List.mem_append_left _ hd, hfield⟩
    · obtain ⟨d, hd, hfield⟩ := exists_declared_of_mem_spreadAll schema around rest hc
      exact ⟨d, List.mem_append_right _ hd, hfield⟩

end

theorem exists_declared_of_fieldAmong? {s : Schema} {id : String} {c : CollectionField}
    (hfirst : (fieldAmong? id s.fields).bind ofField? = some c) :
    ∃ d ∈ s.declared, d.field = c.field ∧ d.field.id? = some id := by
  obtain ⟨f, hfirst, hf⟩ := Option.bind_eq_some_iff.mp hfirst
  rw [ofField?_eq_some_iff.mp hf] at hfirst
  obtain ⟨hmem, hid⟩ := field_id?_of_fieldAmong? hfirst
  obtain ⟨d, hd, hfield⟩ := exists_declared_of_mem_spreadAll s [] s.fields hmem
  exact ⟨d, hd, hfield, hfield ▸ hid⟩

end CollectionField

end SchemaForm
