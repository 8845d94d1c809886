import SchemaForm.Proofs.Validation.Sound

set_option autoImplicit false
set_option relaxedAutoImplicit false

/-!
What is said of an input that is empty and must not be. A field of a row is reported with the label
of the collection. A field of a schema that is nested in a row is not: there as outside of rows an
input goes by its own label.
-/

namespace SchemaForm

namespace Validation

/-- A level that is reached, with the innermost collection in whose row it lies. It is direct if its
fields are those of the row, or of the document, itself and not those of a nested schema. -/
inductive Lies (s : Schema) (doc : Json) : Option FieldTraits → Bool → Level → Prop
  | document : Lies s doc none true (.ofDocument s doc)
  | nested {innermost : Option FieldTraits} {direct : Bool} {l : Level} {t : FieldTraits}
      {style : NestedStyle} {fields : List Field} {schema : SchemaTraits}
      (hl : Lies s doc innermost direct l) (hfield : .nested t style fields schema ∈ l.fields)
      (hid : t.id ≠ some l.traits.idAttribute) :
      Lies s doc innermost false ⟨fields, schema, l.data, l.access, none⟩
  | row {outer : Option FieldTraits} {direct : Bool} {l : Level} {t : FieldTraits}
      {fields : List Field} {schema : SchemaTraits} {rows : CollectionTraits} {id : String}
      {row : Json} {n : Nat} (hl : Lies s doc outer direct l)
      (hfield : .collection t fields schema rows ∈ l.fields) (hname : t.id = some id)
      (hid : id ≠ l.traits.idAttribute) (hrow : (l.data.rows id)[n]? = some row) :
      Lies s doc (some t) true ⟨fields, schema, row, (l.access.key id).index n, t.label⟩

/-- The validation stops at an input of a level, which is empty and must not be: all rules before
it hold. -/
structure StopsAtEmpty (s : Schema) (doc : Json) (l : Level) (t : FieldTraits) (kind : InputKind)
    (id : String) : Prop where
  field : .input t kind ∈ l.fields
  named : t.id = some id
  checked : id ≠ l.traits.idAttribute
  noEmpty : t.noEmpty = true
  empty : Check.isEmpty (l.data.get? id) = true
  first : ∃ before after, (Level.ofDocument s doc).walk =
      before ++ .input t kind (l.data.get? id) (l.access.key id) l.collection :: after ∧
    ∀ b ∈ before, b.Holds

/-- A value is missing: the rule is that of an empty input that must not be. -/
def Rule.Misses : Rule → Prop
  | .input t _ value _ _ => t.noEmpty = true ∧ Check.isEmpty value = true
  | _ => False

/-- The validation stops at a rule, and not because a value is missing. -/
def StopsOtherwise (s : Schema) (doc : Json) (e : Failure) : Prop :=
  ∃ before r after, (Level.ofDocument s doc).walk = before ++ r :: after ∧
    (∀ b ∈ before, b.Holds) ∧ r.failure? = some e ∧ ¬ r.Misses

/-- The message about an empty input that goes by a label. -/
def emptyMessage (label : String) : String := Check.quoted label ++ " cannot be empty."

private theorem emptyMessage_inj {label label' : String} :
    emptyMessage label = emptyMessage label' ↔ label = label' := by
  simp [emptyMessage, Check.quoted, ← String.toList_inj]

variable {s : Schema} {doc : Json} {innermost : Option FieldTraits} {direct : Bool} {l : Level}
  {t : FieldTraits} {kind : InputKind} {id : String}

private theorem Reached.lies (hl : Reached s doc l) :
    ∃ innermost direct, Lies s doc innermost direct l := by
  induction hl with
  | root => exact ⟨none, true, .document⟩
  | nested _ hfield hid ih =>
    obtain ⟨innermost, direct, ih⟩ := ih
    exact ⟨innermost, false, ih.nested hfield hid⟩
  | @row l t fields schema rows id row n _ hfield hname hid hrow ih =>
    obtain ⟨outer, direct, ih⟩ := ih
    exact ⟨some t, true, ih.row hfield hname hid hrow⟩

private theorem Lies.collection_eq (hl : Lies s doc innermost direct l) :
    l.collection = if direct then innermost.bind FieldTraits.label else none := by
  cases hl <;> rfl

private theorem emptinessLabel_some (t : FieldTraits) (label : String) :
    emptinessLabel t (some label) = t.displayLabel ++ " in " ++ label := rfl

private theorem emptinessLabel_none (t : FieldTraits) :
    emptinessLabel t none = t.emptyLabel.getD t.displayLabel := rfl

private theorem inputMessage?_of_empty {value : Option Json} {collection : Option String}
    (hnoEmpty : t.noEmpty = true) (hempty : Check.isEmpty value = true) :
    inputMessage? t kind value collection = some (emptyMessage (emptinessLabel t collection)) := by
  simp [inputMessage?, hnoEmpty, Check.given?, hempty, emptyMessage]

private theorem StopsAtEmpty.failure?_eq (h : StopsAtEmpty s doc l t kind id) :
    failure? s doc = some ⟨l.access.key id, emptyMessage (emptinessLabel t l.collection)⟩ := by
  obtain ⟨before, after, hwalk, hbefore⟩ := h.first
  have hfailure : Rule.failure? (.input t kind (l.data.get? id) (l.access.key id) l.collection) =
      some ⟨l.access.key id, emptyMessage (emptinessLabel t l.collection)⟩ := by
    rw [Rule.failure?, inputMessage?_of_empty h.noEmpty h.empty, Option.map_some]
  rw [Validation.failure?_eq]
  exact List.findSome?_eq_some_iff.mpr ⟨before, _, after, hwalk, hfailure,
    fun b hb => Rule.failure?_eq_none_iff.mpr (hbefore b hb)⟩

/-- A validation that fails stops at an empty input, or else not because a value is missing. -/
private theorem stopsAtEmpty_or_otherwise {e : Failure} (he : failure? s doc = some e) :
    (∃ innermost direct l t kind id, Lies s doc innermost direct l ∧
        StopsAtEmpty s doc l t kind id) ∨ StopsOtherwise s doc e := by
  rw [failure?_eq, List.findSome?_eq_some_iff] at he
  obtain ⟨before, r, after, hwalk, hfailure, hnone⟩ := he
  have hbefore : ∀ b ∈ before, b.Holds := fun b hb => Rule.failure?_eq_none_iff.mp (hnone b hb)
  have hposed : Posed s doc r := mem_walk_iff.mp (by rw [hwalk]; simp)
  by_cases hmisses : r.Misses
  · cases hposed with
    | @input l t kind id hl hfield hname hid =>
      obtain ⟨innermost, direct, hlies⟩ := hl.lies
      exact .inl ⟨innermost, direct, l, t, kind, id, hlies, hfield, hname, hid, hmisses.1,
        hmisses.2, before, after, hwalk, hbefore⟩
    | unique => exact hmisses.elim
    | custom => exact hmisses.elim
  · exact .inr ⟨before, r, after, hwalk, hbefore, hfailure, hmisses⟩

/-- Where the validation stops at an empty input in a row of a labelled collection, the message
names the collection just if the input is a field of the row itself, or if its own label reads the
same. In nested schemas and outside of labelled collections an input goes by its own label. -/
theorem message_names_collection_iff (s : Schema) (doc : Json) :
    (∀ innermost direct l t kind id, Lies s doc innermost direct l →
      StopsAtEmpty s doc l t kind id →
        ∃ message, failure? s doc = some ⟨l.access.key id, message⟩ ∧
          (∀ collection label, innermost = some collection → collection.label = some label →
            (message = emptyMessage (t.displayLabel ++ " in " ++ label) ↔
              direct = true ∨
                t.emptyLabel.getD t.displayLabel = t.displayLabel ++ " in " ++ label)) ∧
          (direct = false ∨ innermost.bind FieldTraits.label = none →
            message = emptyMessage (t.emptyLabel.getD t.displayLabel))) ∧
      ∀ e, failure? s doc = some e →
        (∃ innermost direct l t kind id, Lies s doc innermost direct l ∧
            StopsAtEmpty s doc l t kind id) ∨ StopsOtherwise s doc e := by
  refine ⟨fun innermost direct l t kind id hl hstops => ?_, fun e => stopsAtEmpty_or_otherwise⟩
  refine ⟨_, hstops.failure?_eq, fun collection label hinnermost hlabel => ?_, fun hown => ?_⟩
  · rw [emptyMessage_inj, hl.collection_eq, hinnermost, Option.bind_some, hlabel]
    cases direct with
    | true => exact iff_of_true (emptinessLabel_some t label) (.inl rfl)
    | false => simp [emptinessLabel_none]
  · have hcollection : l.collection = none := by
      rw [hl.collection_eq]
      rcases hown with rfl | hnone
      · rfl
      · rw [hnone, ite_self]
    rw [hcollection, emptinessLabel_none]

private theorem exists_first_of_head? {r : Rule}
    (h : (Level.ofDocument s doc).walk.head? = some r) :
    ∃ before after, (Level.ofDocument s doc).walk = before ++ r :: after ∧
      ∀ b ∈ before, b.Holds := by
  obtain ⟨after, hwalk⟩ := List.head?_eq_some_iff.mp h
  exact ⟨[], after, hwalk, fun b hb => absurd hb List.not_mem_nil⟩

private def columnName : FieldTraits :=
  { FieldTraits.plain with id := some "name", label := some "Name", noEmpty := true }

private def columns : FieldTraits :=
  { FieldTraits.plain with id := some "columns", label := some "Columns" }

private def tableOf (fields : List Field) : Schema :=
  ⟨[.collection columns fields .plain ⟨[], none, none⟩], .plain⟩

private def unnamed : Json := .object [("name", .text "")]

private def table : Json := .object [("columns", .array [unnamed])]

/-- The fields of the first column, at which the validation of a table arrives first. -/
private def firstColumn (fields : List Field) (collection : Option String) : Level :=
  ⟨fields, .plain, unnamed, ⟨[.key "columns", .index 0]⟩, collection⟩

theorem message_names_collection_iff_direct :
    Lies (tableOf [.input columnName .text]) table (some columns) true
        (firstColumn [.input columnName .text] (some "Columns")) ∧
      StopsAtEmpty (tableOf [.input columnName .text]) table
        (firstColumn [.input columnName .text] (some "Columns")) columnName .text "name" ∧
      failure? (tableOf [.input columnName .text]) table =
        some ⟨⟨[.key "columns", .index 0, .key "name"]⟩, "'Name in Columns' cannot be empty."⟩ := by
  have hlies : Lies (tableOf [.input columnName .text]) table (some columns) true
      (firstColumn [.input columnName .text] (some "Columns")) :=
    Lies.document.row List.mem_cons_self rfl (by decide) rfl
  have hstops : StopsAtEmpty (tableOf [.input columnName .text]) table
      (firstColumn [.input columnName .text] (some "Columns")) columnName .text "name" :=
    ⟨List.mem_cons_self, rfl, by decide, rfl, by decide, exists_first_of_head? rfl⟩
  obtain ⟨message, hfailure, hnames, -⟩ :=
    (message_names_collection_iff (tableOf [.input columnName .text]) table).1 _ _ _ _ _ _ hlies
      hstops
  rw [(hnames columns "Columns" rfl rfl).mpr (.inl rfl)] at hfailure
  exact ⟨hlies, hstops, hfailure⟩

/-- The name of a column that stands in a fieldset is reported without the collection. -/
theorem column_in_fieldset_unnamed :
    columns.label = some "Columns" ∧
      Lies (tableOf [.nested .plain .fieldset [.input columnName .text] .plain]) table
        (some columns) false (firstColumn [.input columnName .text] none) ∧
      StopsAtEmpty (tableOf [.nested .plain .fieldset [.input columnName .text] .plain]) table
        (firstColumn [.input columnName .text] none) columnName .text "name" ∧
      failure? (tableOf [.nested .plain .fieldset [.input columnName .text] .plain]) table =
        some ⟨⟨[.key "columns", .index 0, .key "name"]⟩, "'Name' cannot be empty."⟩ ∧
      "'Name' cannot be empty." ≠ "'Name in Columns' cannot be empty." :=
  ⟨rfl, (Lies.document.row List.mem_cons_self rfl (by decide) rfl).nested List.mem_cons_self nofun,
    ⟨List.mem_cons_self, rfl, by decide, rfl, by decide, exists_first_of_head? rfl⟩,
    by decide, by decide⟩

end Validation

end SchemaForm
