import SchemaForm.Validation
import SchemaForm.Proofs.Path.Collection

set_option autoImplicit false
set_option relaxedAutoImplicit false

/-!
What a document is checked for, and in which order. The rules are told twice: as the walk, a list
along the fields, and as what holds at each level that is reached. Both are the same rules.
-/

namespace SchemaForm

namespace Json

private theorem child?_key {v : Json} (hv : v.items? = none) (id : String) :
    v.child? (.key id) = v.get? id := by
  cases v with
  | array items => cases hv
  | object members => rw [child?_object, get?, Segment.text_key]
  | _ => rfl

private theorem child?_of_rows_ne_nil {v : Json} {id : String} (hrows : v.rows id ≠ []) :
    v.child? (.key id) = some (.array (v.rows id)) := by
  have hobject : v.items? = none := by
    cases v with
    | array items => exact absurd rfl hrows
    | _ => rfl
  rw [child?_key hobject, get?_of_rows_ne_nil hrows]

end Json

namespace Validation

/-- A thing a document is checked for: the value of an input, the key columns of a collection, or
what the validator of a schema looks at. -/
inductive Rule where
  | input (t : FieldTraits) (kind : InputKind) (value : Option Json) (path : Path)
      (collection : Option String)
  | unique (t : FieldTraits) (fields : List Field) (rows : CollectionTraits) (items : List Json)
      (path : Path)
  | custom (schema : SchemaTraits) (data : Json) (access : Path)

/-- A level: its fields and traits, its data and their path, and the label of the collection whose
row it is. -/
structure Level where
  fields : List Field
  traits : SchemaTraits
  data : Json
  access : Path
  collection : Option String

namespace Rule

def failure? : Rule → Option Failure
  | .input t kind value path collection =>
    (inputMessage? t kind value collection).map fun message => ⟨path, message⟩
  | .unique t fields rows items path => uniquenessFailure? t fields rows items path
  | .custom schema data access => customFailure? schema data access

def items : Rule → List Json
  | .unique _ _ _ items _ => items
  | _ => []

end Rule

/-! ### The walk -/

mutual

def fieldWalk (data : Json) (access : Path) (collection : Option String) : Field → List Rule
  | .input t kind =>
    match t.id with
    | none => []
    | some id => [.input t kind (data.get? id) (access.key id) collection]
  | .group _ _ => []
  | .nested _ _ fields schema =>
    fieldsWalk schema.idAttribute data access none fields ++ [.custom schema data access]
  | .collection t fields schema rows =>
    match t.id with
    | none => []
    | some id =>
      let path := access.key id
      (data.rows id).zipIdx.flatMap (fun (row, n) =>
        fieldsWalk schema.idAttribute row (path.index n) t.label fields ++
          [.custom schema row (path.index n)]) ++
        [.unique t fields rows (data.rows id) path]

def fieldsWalk (idAttribute : String) (data : Json) (access : Path) (collection : Option String) :
    List Field → List Rule
  | [] => []
  | f :: rest =>
    if f.id? = some idAttribute then
      fieldsWalk idAttribute data access collection rest
    else
      fieldWalk data access collection f ++ fieldsWalk idAttribute data access collection rest

end

namespace Level

/-- The rules at a level and below it: those of its fields in order, then its own validator. -/
def walk (l : Level) : List Rule :=
  fieldsWalk l.traits.idAttribute l.data l.access l.collection l.fields ++
    [.custom l.traits l.data l.access]

def ofDocument (s : Schema) (doc : Json) : Level := ⟨s.fields, s.traits, doc, .root, none⟩

end Level

private theorem fieldsWalk_eq (idAttribute : String) (data : Json) (access : Path)
    (collection : Option String) (fields : List Field) :
    fieldsWalk idAttribute data access collection fields =
      (fields.filter fun f => f.id? ≠ some idAttribute).flatMap
        (fieldWalk data access collection) := by
  induction fields with
  | nil => rfl
  | cons f rest ih =>
    by_cases hid : f.id? = some idAttribute
    · simp [fieldsWalk, hid, ih]
    · simp [fieldsWalk, hid, ih]

private theorem mem_fieldsWalk {idAttribute : String} {data : Json} {access : Path}
    {collection : Option String} {fields : List Field} {r : Rule} :
    r ∈ fieldsWalk idAttribute data access collection fields ↔
      ∃ f ∈ fields, f.id? ≠ some idAttribute ∧ r ∈ fieldWalk data access collection f := by
  simp [fieldsWalk_eq, and_assoc]

private theorem findSome?_flatMap {α β γ : Type} (f : β → Option γ) (g : α → List β) (l : List α) :
    (l.flatMap g).findSome? f = l.findSome? fun a => (g a).findSome? f := by
  induction l with
  | nil => rfl
  | cons a l ih =>
    rw [List.flatMap_cons, List.findSome?_append, ih, List.findSome?_cons]
    cases (g a).findSome? f <;> rfl

mutual

private theorem fieldFailure?_eq (data : Json) (access : Path) (collection : Option String) :
    (f : Field) → fieldFailure? data access collection f =
      (fieldWalk data access collection f).findSome? Rule.failure?
  | .input t kind => by
    cases hid : t.id <;> simp [fieldFailure?, fieldWalk, inputFailure?, Rule.failure?, hid]
  | .group _ _ => rfl
  | .nested t style fields schema => by
    simp [fieldFailure?, fieldWalk, fieldsFailure?_eq, List.findSome?_append, Rule.failure?]
  | .collection t fields schema rows => by
    cases hid : t.id with
    | none => simp [fieldFailure?, fieldWalk, hid]
    | some id =>
      simp [fieldFailure?, fieldWalk, hid, fieldsFailure?_eq, List.findSome?_append, Rule.failure?,
        findSome?_flatMap]

private theorem fieldsFailure?_eq (idAttribute : String) (data : Json) (access : Path)
    (collection : Option String) :
    (fields : List Field) → fieldsFailure? idAttribute data access collection fields =
      (fieldsWalk idAttribute data access collection fields).findSome? Rule.failure?
  | [] => rfl
  | f :: rest => by
    have hrest := fieldsFailure?_eq idAttribute data access collection rest
    by_cases hid : f.id? = some idAttribute
    · simp [fieldsFailure?, fieldsWalk, hid, hrest]
    · simp [fieldsFailure?, fieldsWalk, hid, hrest, fieldFailure?_eq, List.findSome?_append]

end

theorem failure?_eq (s : Schema) (doc : Json) :
    failure? s doc = (Level.ofDocument s doc).walk.findSome? Rule.failure? := by
  simp [failure?, levelFailure?, Level.walk, Level.ofDocument, fieldsFailure?_eq,
    List.findSome?_append, Rule.failure?]

/-! ### The levels that are reached -/

/-- The level of a document, the nested schemas of a level that is reached, which have its data,
and each row of its collections. Nothing below the field of the id attribute is reached. -/
inductive Reached (s : Schema) (doc : Json) : Level → Prop
  | root : Reached s doc (.ofDocument s doc)
  | nested {l : Level} {t : FieldTraits} {style : NestedStyle} {fields : List Field}
      {schema : SchemaTraits} (hl : Reached s doc l)
      (hfield : .nested t style fields schema ∈ l.fields)
      (hid : t.id ≠ some l.traits.idAttribute) :
      Reached s doc ⟨fields, schema, l.data, l.access, none⟩
  | row {l : Level} {t : FieldTraits} {fields : List Field} {schema : SchemaTraits}
      {rows : CollectionTraits} {id : String} {row : Json} {n : Nat} (hl : Reached s doc l)
      (hfield : .collection t fields schema rows ∈ l.fields) (hname : t.id = some id)
      (hid : id ≠ l.traits.idAttribute) (hrow : (l.data.rows id)[n]? = some row) :
      Reached s doc ⟨fields, schema, row, (l.access.key id).index n, t.label⟩

/-- The rules of a document: at each level that is reached one for every input with an id, one for
every collection with an id, and one for the level's validator. -/
inductive Posed (s : Schema) (doc : Json) : Rule → Prop
  | input {l : Level} {t : FieldTraits} {kind : InputKind} {id : String} (hl : Reached s doc l)
      (hfield : .input t kind ∈ l.fields) (hname : t.id = some id)
      (hid : id ≠ l.traits.idAttribute) :
      Posed s doc (.input t kind (l.data.get? id) (l.access.key id) l.collection)
  | unique {l : Level} {t : FieldTraits} {fields : List Field} {schema : SchemaTraits}
      {rows : CollectionTraits} {id : String} (hl : Reached s doc l)
      (hfield : .collection t fields schema rows ∈ l.fields) (hname : t.id = some id)
      (hid : id ≠ l.traits.idAttribute) :
      Posed s doc (.unique t fields rows (l.data.rows id) (l.access.key id))
  | custom {l : Level} (hl : Reached s doc l) :
      Posed s doc (.custom l.traits l.data l.access)

variable {s : Schema} {doc : Json} {l : Level} {r : Rule}

private theorem id_ne_of_ne {t : FieldTraits} {id name : String} (hname : t.id = some id)
    (hid : id ≠ name) : t.id ≠ some name := by
  simpa [hname] using hid

private theorem Level.mem_walk_of_mem_field {f : Field} (hfield : f ∈ l.fields)
    (hid : f.id? ≠ some l.traits.idAttribute)
    (hr : r ∈ fieldWalk l.data l.access l.collection f) : r ∈ l.walk :=
  List.mem_append_left _ (mem_fieldsWalk.mpr ⟨f, hfield, hid, hr⟩)

private theorem Reached.walk_subset (hl : Reached s doc l) :
    l.walk ⊆ (Level.ofDocument s doc).walk := by
  induction hl with
  | root => exact List.Subset.refl _
  | nested _ hfield hid ih =>
    intro r hr
    refine ih (Level.mem_walk_of_mem_field hfield hid ?_)
    simpa [fieldWalk, Level.walk] using hr
  | @row l t fields schema rows id row n _ hfield hname hid hrow ih =>
    intro r hr
    have hid' := id_ne_of_ne hname hid
    refine ih (Level.mem_walk_of_mem_field hfield hid' ?_)
    have hmem : (row, n) ∈ (l.data.rows id).zipIdx := by
      rwa [List.mem_zipIdx_iff_getElem?]
    simp only [fieldWalk, hname]
    exact List.mem_append_left _ (List.mem_flatMap.mpr ⟨(row, n), hmem, hr⟩)

theorem Posed.mem_walk (hr : Posed s doc r) : r ∈ (Level.ofDocument s doc).walk := by
  cases hr with
  | input hl hfield hname hid =>
    have hid' := id_ne_of_ne hname hid
    refine hl.walk_subset (Level.mem_walk_of_mem_field hfield hid' ?_)
    simp [fieldWalk, hname]
  | unique hl hfield hname hid =>
    have hid' := id_ne_of_ne hname hid
    refine hl.walk_subset (Level.mem_walk_of_mem_field hfield hid' ?_)
    simp [fieldWalk, hname]
  | custom hl => exact hl.walk_subset (List.mem_append_right _ (List.mem_singleton_self _))

mutual

private theorem posed_of_mem_fieldWalk (l : Level) (hl : Reached s doc l) :
    (f : Field) → f ∈ l.fields → f.id? ≠ some l.traits.idAttribute →
      r ∈ fieldWalk l.data l.access l.collection f → Posed s doc r
  | .input t kind, hfield, hid, hr => by
    cases hname : t.id with
    | none => simp [fieldWalk, hname] at hr
    | some id =>
      obtain rfl : r = .input t kind (l.data.get? id) (l.access.key id) l.collection := by
        simpa [fieldWalk, hname] using hr
      exact .input hl hfield hname (by simpa [Field.id?, Field.traits, hname] using hid)
  | .group _ _, _, _, hr => by simp [fieldWalk] at hr
  | .nested t style fields schema, hfield, hid, hr => by
    have hinner := Reached.nested hl hfield hid
    rcases List.mem_append.mp (by simpa only [fieldWalk] using hr) with hr | hr
    · exact posed_of_mem_fieldsWalk _ hinner fields (List.Subset.refl _) hr
    · rw [List.mem_singleton.mp hr]
      exact .custom hinner
  | .collection t fields schema rows, hfield, hid, hr => by
    cases hname : t.id with
    | none => simp [fieldWalk, hname] at hr
    | some id =>
      have hid' : id ≠ l.traits.idAttribute := by
        simpa [Field.id?, Field.traits, hname] using hid
      simp only [fieldWalk, hname] at hr
      rcases List.mem_append.mp hr with hr | hr
      · obtain ⟨⟨row, n⟩, hrow, hr⟩ := List.mem_flatMap.mp hr
        have hinner := Reached.row hl hfield hname hid' (List.mem_zipIdx_iff_getElem?.mp hrow)
        rcases List.mem_append.mp hr with hr | hr
        · exact posed_of_mem_fieldsWalk _ hinner fields (List.Subset.refl _) hr
        · rw [List.mem_singleton.mp hr]
          exact .custom hinner
      · rw [List.mem_singleton.mp hr]
        exact .unique hl hfield hname hid'

private theorem posed_of_mem_fieldsWalk (l : Level) (hl : Reached s doc l) :
    (fields : List Field) → fields ⊆ l.fields →
      r ∈ fieldsWalk l.traits.idAttribute l.data l.access l.collection fields → Posed s doc r
  | [], _, hr => by simp [fieldsWalk] at hr
  | f :: rest, hfields, hr => by
    have hrest : rest ⊆ l.fields := fun g hg => hfields (List.mem_cons_of_mem f hg)
    by_cases hid : f.id? = some l.traits.idAttribute
    · exact posed_of_mem_fieldsWalk l hl rest hrest (by simpa [fieldsWalk, hid] using hr)
    · have hsplit := List.mem_append.mp (by simpa [fieldsWalk, hid] using hr)
      rcases hsplit with hr | hr
      · exact posed_of_mem_fieldWalk l hl f (hfields List.mem_cons_self) hid hr
      · exact posed_of_mem_fieldsWalk l hl rest hrest hr

end

/-- The walk meets the rules of the document and no others. -/
theorem mem_walk_iff : r ∈ (Level.ofDocument s doc).walk ↔ Posed s doc r := by
  refine ⟨fun hr => ?_, Posed.mem_walk⟩
  rcases List.mem_append.mp hr with hr | hr
  · exact posed_of_mem_fieldsWalk _ .root s.fields (List.Subset.refl _) hr
  · rw [List.mem_singleton.mp hr]
    exact .custom .root

/-! ### Where the data of a level stand -/

private theorem Reached.valueAt? (hl : Reached s doc l) : doc.valueAt? l.access = some l.data := by
  induction hl with
  | root => rfl
  | nested _ _ _ ih => exact ih
  | @row l t fields schema rows id row n _ _ _ _ hrow ih =>
    have hne : l.data.rows id ≠ [] := List.ne_nil_of_mem (List.mem_of_getElem? hrow)
    show doc.valueAt? ((l.access.child (.key id)).child (.index n)) = some row
    rw [Json.valueAt?_child, Json.valueAt?_child, ih, Option.bind_some,
      Json.child?_of_rows_ne_nil hne, Option.bind_some]
    exact hrow

/-- No row of a collection is an array. -/
def RowsNotArrays (s : Schema) (doc : Json) : Prop :=
  ∀ r, Posed s doc r → ∀ row ∈ r.items, row.items? = none

private theorem Reached.items?_data (hl : Reached s doc l) (hdoc : doc.items? = none)
    (hrows : RowsNotArrays s doc) : l.data.items? = none := by
  induction hl with
  | root => exact hdoc
  | nested _ _ _ ih => exact ih
  | row hl hfield hname hid hrow _ =>
    exact hrows _ (.unique hl hfield hname hid) _ (List.mem_of_getElem? hrow)

/-- The value an input is checked for stands at the path of its failure. -/
theorem Posed.valueAt?_input {t : FieldTraits} {kind : InputKind} {value : Option Json}
    {path : Path} {collection : Option String}
    (hr : Posed s doc (.input t kind value path collection))
    (hdoc : doc.items? = none) (hrows : RowsNotArrays s doc) : doc.valueAt? path = value := by
  cases hr with
  | @input l _ _ id hl hfield hname hid =>
    have hdata := hl.items?_data hdoc hrows
    show doc.valueAt? (l.access.child (.key id)) = l.data.get? id
    rw [Json.valueAt?_child, hl.valueAt?, Option.bind_some, Json.child?_key hdata]

end Validation

end SchemaForm
