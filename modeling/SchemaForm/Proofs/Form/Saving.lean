import SchemaForm.Proofs.Diff.SkipChange
import SchemaForm.Proofs.Form.Untouched

set_option autoImplicit false
set_option relaxedAutoImplicit false

/-!
What is handed over to be saved. The mark of changes leaves out the fields that do not count as
changes, the payload of a save includes them. So there is something to save whenever a form that
edits a document is marked as changed, and all that the form reports of its changes is in it.
-/

namespace SchemaForm

/-- What an event hands over to be saved: whether the document is new, and the payload. -/
def FormEvent.save? : FormEvent → Option (Bool × Json)
  | .saving isNew payload => some (isNew, payload)
  | _ => none

namespace Form

/-- What was handed over to be saved so far. -/
def saves (f : Form) : List (Bool × Json) := f.journal.filterMap FormEvent.save?

section Saves

variable {f : Form}

private theorem saves_tell (f : Form) (events : List FormEvent) :
    (f.tell events).saves = f.saves ++ events.filterMap FormEvent.save? :=
  List.filterMap_append

private theorem saves_display (f : Form) (ui : Ui) : (f.display ui).saves = f.saves := by
  have hsilent (notices : List Notice) :
      (notices.map (FormEvent.notified .states)).filterMap FormEvent.save? = [] := by
    simp [List.filterMap_map, Function.comp_def, FormEvent.save?]
  rw [display, publish, saves_tell, hsilent, List.append_nil]
  rfl

private theorem saves_save (hready : f.ui.ready = true) (failure : Option String) :
    (f.save failure).1.saves = f.saves ++ [(f.isNew, f.changes true)] := by
  have hbegun : f.beginSave.saves = f.saves ++ [(f.isNew, f.changes true)] := by
    rw [beginSave, saves_tell, saves_display]
    rfl
  simp only [save, if_pos hready]
  cases failure with
  | none => exact (saves_display _ _).trans hbegun
  | some message => exact (saves_display _ _).trans hbegun

end Saves

/-! ### The payload in edit mode -/

section Payload

variable {f : Form}

private theorem payload_of_changes (hedit : f.view.mode = .edit) {changes : Dictionary Json}
    (hchanged : changes ≠ []) : ∃ members, f.payload changes = .object members ∧ members ≠ [] ∧
      ∀ key, Dictionary.get? members key =
        if key = f.schema.traits.idAttribute then
          ((f.initialData.get? key).filter fun id => !id.isNull).or (Dictionary.get? changes key)
        else Dictionary.get? changes key := by
  have hpresent : changes.isEmpty = false := by simpa using hchanged
  simp only [payload, hedit, if_true, hpresent, Bool.false_or]
  cases hheld : f.initialData.get? f.schema.traits.idAttribute with
  | none =>
    refine ⟨changes, rfl, hchanged, fun key => ?_⟩
    split
    · rename_i hsame
      rw [hsame, hheld, Option.filter_none, Option.none_or]
    · rfl
  | some id =>
    cases hnull : id.isNull with
    | true =>
      refine ⟨changes, if_pos hnull, hchanged, fun key => ?_⟩
      split
      · rename_i hsame
        rw [hsame, hheld, Option.filter_some, hnull]
        rfl
      · rfl
    | false =>
      refine ⟨Dictionary.insert changes f.schema.traits.idAttribute id, if_neg (by simp [hnull]),
        Dictionary.insert_ne_nil _ _ _, fun key => ?_⟩
      rw [Dictionary.get?_insert]
      split
      · rename_i hsame
        rw [if_pos hsame.symm, ← hsame, hheld, Option.filter_some, hnull]
        rfl
      · rename_i hother
        rw [if_neg (Ne.symm hother)]

private theorem changes_eq_empty_iff (hedit : f.view.mode = .edit) (includeSkipChange : Bool) :
    f.changes includeSkipChange = .empty ↔ f.diff includeSkipChange = [] := by
  constructor
  · intro hnothing
    by_contra hchanged
    obtain ⟨members, hpayload, hpresent, -⟩ := payload_of_changes hedit hchanged
    rw [changes, hpayload] at hnothing
    exact hpresent (Json.object.inj hnothing)
  · intro hnothing
    rw [changes, hnothing]
    exact payload_nil hedit

private theorem keys_diff_subset (f : Form) :
    Dictionary.keys (f.diff false) ⊆ Dictionary.keys (f.diff true) :=
  f.schema.keys_diff_subset (Diff.widens_skipChange ⟨f.view.mode, f.view.keepRowIds, false, false⟩)
    f.initialData f.session.doc

private theorem changes_covered (hedit : f.view.mode = .edit) (hchanged : f.diff false ≠ []) :
    ∃ members, f.changes true = .object members ∧ members ≠ [] ∧
      (∀ key, ((f.changes false).get? key).isSome = true → Dictionary.has members key = true) ∧
      ∀ id, f.initialData.get? f.schema.traits.idAttribute = some id → id ≠ .null →
        Dictionary.get? members f.schema.traits.idAttribute = some id := by
  have hcovered := keys_diff_subset f
  have hchanged' : f.diff true ≠ [] := by
    intro hnothing
    rw [hnothing] at hcovered
    exact hchanged (List.map_eq_nil_iff.mp (List.subset_nil.mp hcovered))
  obtain ⟨narrow, hreported, -, hvalues⟩ := payload_of_changes hedit hchanged
  obtain ⟨members, hpayload, hpresent, hvalues'⟩ := payload_of_changes hedit hchanged'
  refine ⟨members, hpayload, hpresent, fun key hthere => ?_, fun id hheld hvalue => ?_⟩
  · have hincluded : Dictionary.has (f.diff false) key = true →
        Dictionary.has (f.diff true) key = true := by
      rw [Dictionary.has_iff_mem_keys, Dictionary.has_iff_mem_keys]
      exact fun hmember => hcovered hmember
    rw [changes, hreported, Json.get?, hvalues] at hthere
    rw [Dictionary.has, hvalues']
    -- The id of the document is added to both payloads alike.
    by_cases hsame : key = f.schema.traits.idAttribute
    · rw [if_pos hsame, Option.isSome_or, Bool.or_eq_true] at hthere ⊢
      exact hthere.imp_right hincluded
    · rw [if_neg hsame] at hthere ⊢
      exact hincluded hthere
  · have hshown : id.isNull = false := by
      cases id with
      | null => exact absurd rfl hvalue
      | _ => rfl
    rw [hvalues', if_pos rfl, hheld, Option.filter_some, hshown]
    rfl

end Payload

/-- To include the fields that do not count as changes takes no field away from a change set. So in
every state that a run reaches, a form that edits a document and is ready reports an empty payload
exactly if it is not marked as changed; and if it is, then what it hands over to be saved has all
the fields of the payload that it reports, and the id of the initial document if this has one. -/
theorem saved_changes_cover_reported :
    (∀ (s : Schema) (options : DiffOptions) (original current : Json),
      Dictionary.keys (s.diff { options with includeSkipChange := false } original current) ⊆
        Dictionary.keys (s.diff { options with includeSkipChange := true } original current)) ∧
    ∀ (schema : Schema) (view : View) (registry : OptionRegistry) (fixedData : Json) (ids : RowIds)
      (ops : List FormOp),
      let f := (start schema view registry fixedData ids).run ops
      view.mode = .edit → f.ui.ready = true →
      (f.changes false = .empty ↔ f.ui.dirty = false) ∧
      (f.ui.dirty = true → ∀ failure, ∃ members,
        (f.save failure).1.saves = f.saves ++ [(f.isNew, .object members)] ∧ members ≠ [] ∧
        (∀ key, ((f.changes false).get? key).isSome = true → Dictionary.has members key = true) ∧
        ∀ id, f.initialData.get? schema.traits.idAttribute = some id → id ≠ .null →
          Dictionary.get? members schema.traits.idAttribute = some id) := by
  refine ⟨fun s options original current =>
    s.keys_diff_subset (Diff.widens_skipChange options) original current, ?_⟩
  intro schema view registry fixedData ids ops f hedit hready
  obtain ⟨hsameSchema, hsameView, -⟩ : f.schema = schema ∧ f.view = view ∧ f.registry = registry :=
    made_run schema view registry fixedData ids ops
  have hedits : f.view.mode = .edit := by rw [hsameView, hedit]
  have hdirty : f.ui.dirty = !(f.diff false).isEmpty :=
    dirty_run schema view registry fixedData ids ops hready
  refine ⟨?_, fun hmarked failure => ?_⟩
  · rw [changes_eq_empty_iff hedits, hdirty, Bool.not_eq_false', List.isEmpty_iff]
  · have hchanged : f.diff false ≠ [] := by
      rw [hdirty] at hmarked
      simpa using hmarked
    obtain ⟨members, hpayload, hpresent, hcovered, hid⟩ := changes_covered hedits hchanged
    rw [hsameSchema] at hid
    exact ⟨members, by rw [saves_save hready, hpayload], hpresent, hcovered, hid⟩

private def jotted (id : String) : Field :=
  .input { FieldTraits.plain with id := some id, skipChange := true } .text

private def minutesSchema : Schema :=
  ⟨[.input { FieldTraits.plain with id := some "title" } .text, jotted "note",
    .collection { FieldTraits.plain with id := some "items" } [jotted "note"] .plain
      ⟨[], none, none⟩], .plain⟩

/-- The title of loaded minutes is changed, and so are the notes. -/
private def minutesOps : List FormOp :=
  [.initialise false (some (.ok (.ofPairs [("oid", .ofNat 7), ("title", .text "a"),
    ("items", .array [.ofPairs [("oid", .ofNat 5), ("note", .text "x")]])]))),
    .dispatch (.setValue (.parse "title") (.text "b")),
    .dispatch (.setValue (.parse "note") (.text "late")),
    .dispatch (.setValue (.parse "items.0.note") (.text "y"))]

private def minutes : Form :=
  (start minutesSchema (.ofMode .edit) .empty .empty ⟨0⟩).run minutesOps

/-- The title alone is reported, with the id of the minutes. The notes are saved with it, and with
them the items. -/
theorem saved_changes_cover_reported_minutes :
    let reported : Json := .ofPairs [("oid", .ofNat 7), ("title", .text "b")]
    let saved : Json := .ofPairs [("items", .ofPairs [("changed", .array [
      .ofPairs [("note", .text "y"), ("oid", .ofNat 5)]])]), ("note", .text "late"),
      ("oid", .ofNat 7), ("title", .text "b")]
    (View.ofMode .edit).mode = .edit ∧ minutes.ui.ready = true ∧ minutes.ui.dirty = true ∧
      minutes.changes false = reported ∧
      (minutes.save (some "offline")).1.saves = [(false, saved)] ∧
      ((reported.get? "title").isSome = true → (saved.get? "title").isSome = true) ∧
      saved.get? "oid" = some (.ofNat 7) := by
  intro reported saved
  have hready : minutes.ui.ready = true := by decide +kernel
  have hdirty : minutes.ui.dirty = true := by decide +kernel
  have hshown : minutes.changes false = reported := by decide +kernel
  have hfirst : minutes.saves = [] ∧ minutes.isNew = false := by decide +kernel
  have hpayload : minutes.changes true = saved := by decide +kernel
  have hid : minutes.initialData.get? minutesSchema.traits.idAttribute = some (.ofNat 7) := by
    decide +kernel
  have hmade :
      (start minutesSchema (.ofMode .edit) .empty .empty ⟨0⟩).run minutesOps = minutes := rfl
  have hforms := saved_changes_cover_reported.2 minutesSchema (.ofMode .edit) .empty .empty ⟨0⟩
    minutesOps rfl
  rw [hmade] at hforms
  obtain ⟨members, htold, -, hcovered, hheld⟩ := (hforms hready).2 hdirty (some "offline")
  rw [hfirst.1, hfirst.2, List.nil_append] at htold
  have hsame : Json.object members = saved := by
    have hhanded := saves_save hready (some "offline")
    rw [htold, hfirst.1, hfirst.2, hpayload] at hhanded
    simpa using hhanded
  rw [hshown] at hcovered
  refine ⟨rfl, hready, hdirty, hshown, htold.trans (by rw [hsame]), ?_, ?_⟩
  · rw [← hsame]
    exact hcovered "title"
  · rw [← hsame]
    exact hheld (.ofNat 7) hid (by decide)

end Form

end SchemaForm
