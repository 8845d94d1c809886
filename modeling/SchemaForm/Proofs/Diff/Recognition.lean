import SchemaForm.Proofs.Diff.Exact

set_option autoImplicit false
set_option relaxedAutoImplicit false

/-!
What an entry of a changed row tells about the row. The entry has the changes over the id attribute
of the row, or over the whole row if it has none. So whoever receives the entry can tell which row
it is about, unless the attribute stands there without a value, or is the identity that is taken off
the entry: then the entry has nothing but the changes.
-/

namespace SchemaForm

namespace Diff

/-- The entry of a row keeps the member, so that it is not the identity of a row to be dropped. -/
def Keeps (keepRowIds : Bool) (key : String) : Prop := keepRowIds = true ∨ key ≠ RowId.key

/-- An entry has an id, or every member of the row that it keeps. -/
def Recognizes (keepRowIds : Bool) (schema : SchemaTraits) (row entry : Json) : Prop :=
  (∃ id, entry.get? schema.idAttribute = some id ∧ id ≠ .null) ∨
  ∀ key, (row.get? key).isSome = true → Keeps keepRowIds key → (entry.get? key).isSome = true

/-- The row has its id attribute, but the attribute is null, or an entry does not keep it. -/
def LacksId (keepRowIds : Bool) (schema : SchemaTraits) (row : Json) : Prop :=
  ∃ id, row.get? schema.idAttribute = some id ∧
    (id = .null ∨ ¬ Keeps keepRowIds schema.idAttribute)

section Edit

variable {options : DiffOptions}

private theorem id?_of_reports {atTop : Bool} {original current : Json} {d : Declared}
    (hdata : IsData d.field) {id : String} {v : Json}
    (hreport : d.reports options atTop original current = [(id, v)]) : d.field.id? = some id := by
  rcases Declared.reports_cases hdata with hsilent | ⟨name, w, hnamed, hsingle⟩
  · rw [hsilent] at hreport
    cases hreport
  · rw [hsingle, List.singleton_inj, Prod.mk.injEq] at hreport
    rw [hnamed, hreport.1]

private theorem reports_ne_null (hedit : options.mode = .edit) (hplain : options.stringify = false)
    {original current : Json} {d : Declared} (hdata : IsData d.field) {id : String} {v w : Json}
    (hnamed : d.field.id? = some id) (hvalue : current.get? id = some v) (hpresent : v ≠ .null)
    (hreport : d.reports options false original current = [(id, w)]) : w ≠ .null := by
  unfold Declared.reports at hreport
  split at hreport
  · cases hrows : d.field.rowSchema? with
    | none =>
      rw [fieldReports_scalar hdata hrows hnamed, hvalue] at hreport
      split at hreport
      · cases hreport
      · cases hreport
        rw [reported_of_plain hplain]
        simpa using hpresent
    | some child =>
      obtain ⟨f, traits, around⟩ := d
      cases f with
      | collection t fields child' traits' =>
        have hown : t.id = some id := hnamed
        simp only [fieldReports, hown, hedit, if_true, partitions] at hreport
        -- Of a collection its partitions are reported, which make an object.
        split at hreport
        · cases hreport
        · split at hreport
          · cases hreport
          · cases hreport
            rw [reported_of_plain hplain]
            simp
      | _ => cases hrows
  · cases hreport

private theorem exists_row_of_mem_changed (hedit : options.mode = .edit)
    (hplain : options.stringify = false)
    {l : Level} {d : Declared} {child : Schema} (hrows : d.field.rowSchema? = some child)
    {id : String} {report : Json}
    (hreports : d.reports options l.atTop l.before l.after = [(id, report)]) {entry : Json}
    (hmember : entry ∈ report.rows "changed") :
    ∃ row ∈ l.after.rows id, ∃ old, RowDiff.counterpart? (l.before.rows id) row = some old ∧
      entry = emitted options.keepRowIds (changedRow child.traits row
        (Level.changes options ⟨child, false, old, row⟩)) := by
  obtain ⟨f, traits, around⟩ := d
  cases f with
  | collection t fields child' rows' =>
    obtain rfl : (⟨fields, child'⟩ : Schema) = child := Option.some.inj hrows
    have hown : t.id = some id := id?_of_reports (by simp [IsData]) hreports
    have hvalue := congrArg (Dictionary.get? · id) hreports
    simp only [Declared.reports, fieldReports, hown, hedit, if_true, Dictionary.get?_cons] at hvalue
    split_ifs at hvalue
    · cases hvalue
    · rw [get?_partitions hplain] at hvalue
      rw [rows_changed_of_editReport hvalue, List.mem_map] at hmember
      obtain ⟨whole, hmade, rfl⟩ := hmember
      obtain ⟨row, hupdated, hfound⟩ := List.mem_filterMap.mp hmade
      obtain ⟨old, hbefore, hresult⟩ := Option.bind_eq_some_iff.mp hfound
      have hentry : rowReport? options ⟨fields, child'⟩ old row = _ := rowReport?_eq _ old row
      rw [hresult, rowReport?, Option.ite_none_left_eq_some, Option.some.injEq] at hentry
      exact ⟨row, (List.mem_filter.mp hupdated).1, old, hbefore, by rw [hentry.2]⟩
    · cases hvalue
  | _ => cases hrows

private theorem exists_reports_of_mem_changes {l : Level} {pair : String × Json}
    (hmember : pair ∈ l.changes options) : ∃ d ∈ l.schema.declared,
      d.field.id? = some pair.1 ∧ d.reports options l.atTop l.before l.after = [pair] := by
  rw [Level.changes, levelReports_eq_flatMap_declared] at hmember
  rcases Dictionary.mem_overlay hmember with hnone | hreported
  · cases hnone
  · obtain ⟨d, hdeclared, hinside⟩ := List.mem_flatMap.mp hreported
    rcases Declared.reports_cases (isData_of_mem_declared hdeclared) with
      hsilent | ⟨id, v, hnamed, hsingle⟩
    · rw [hsilent] at hinside
      cases hinside
    · rw [hsingle, List.mem_singleton] at hinside
      subst hinside
      exact ⟨d, hdeclared, hnamed, hsingle⟩

private theorem get?_changes_ne_null (hedit : options.mode = .edit)
    (hplain : options.stringify = false) {child : Schema} {old row : Json} {id : String}
    {v w : Json} (hvalue : row.get? id = some v) (hpresent : v ≠ .null)
    (hchange : Dictionary.get? (Level.changes options ⟨child, false, old, row⟩) id = some w) :
    w ≠ .null := by
  obtain ⟨d, hdeclared, hnamed, hreport⟩ :=
    exists_reports_of_mem_changes (Dictionary.mem_of_get? hchange)
  exact reports_ne_null hedit hplain (isData_of_mem_declared hdeclared) hnamed hvalue hpresent
    hreport

/-! ### The entry of a row -/

section Entry

variable {child : Schema} {old row : Json} {key : String}

private theorem get?_entry (hkept : Keeps options.keepRowIds key) :
    let changes := Level.changes options ⟨child, false, old, row⟩
    (emitted options.keepRowIds (changedRow child.traits row changes)).get? key =
      (Dictionary.get? changes key).or
        (if (row.get? child.traits.idAttribute).isSome ∧ key ≠ child.traits.idAttribute then none
        else row.get? key) := by
  intro changes
  rw [get?_emitted, if_neg, show changes = Dictionary.ofPairs _ from rfl, get?_changedRow]
  rintro ⟨hdropped, rfl⟩
  simp [Keeps, hdropped] at hkept

private theorem keeps_of_get?_emitted {keepRowIds : Bool} {v : Json}
    (hvalue : (emitted keepRowIds row).get? key = some v) : Keeps keepRowIds key := by
  rw [get?_emitted, Option.ite_none_left_eq_some] at hvalue
  cases keepRowIds with
  | true => exact .inl rfl
  | false => exact .inr fun hsame => hvalue.1 ⟨rfl, hsame⟩

private theorem recognizes_of_not_lacksId (hedit : options.mode = .edit)
    (hplain : options.stringify = false)
    (has : ¬ LacksId options.keepRowIds child.traits row) :
    Recognizes options.keepRowIds child.traits row (emitted options.keepRowIds
      (changedRow child.traits row (Level.changes options ⟨child, false, old, row⟩))) := by
  cases hvalue : row.get? child.traits.idAttribute with
  | none =>
    refine .inr fun key hthere hkept => ?_
    rw [get?_entry hkept, hvalue, if_neg (by simp), Option.isSome_or, hthere, Bool.or_true]
  | some id =>
    have hpresent : id ≠ .null := fun hnull => has ⟨id, hvalue, .inl hnull⟩
    have hkept : Keeps options.keepRowIds child.traits.idAttribute :=
      not_not.mp fun hdropped => has ⟨id, hvalue, .inr hdropped⟩
    refine .inl ?_
    rw [get?_entry hkept, if_neg (fun hnamed => hnamed.2 rfl), hvalue]
    cases hchange : Dictionary.get? (Level.changes options ⟨child, false, old, row⟩)
        child.traits.idAttribute with
    | none => exact ⟨id, rfl, hpresent⟩
    | some w => exact ⟨w, rfl, get?_changes_ne_null hedit hplain hvalue hpresent hchange⟩

/-- The entry of a row without id has the changes alone. So it recognizes the row only if they
bring an id, or every other member of the row. -/
private theorem recognizes_iff_of_lacksId (hlacks : LacksId options.keepRowIds child.traits row) :
    let changes := Level.changes options ⟨child, false, old, row⟩
    Recognizes options.keepRowIds child.traits row
        (emitted options.keepRowIds (changedRow child.traits row changes)) ↔
      (∃ id, Dictionary.get? changes child.traits.idAttribute = some id ∧ id ≠ .null ∧
        Keeps options.keepRowIds child.traits.idAttribute) ∨
      ∀ key, (row.get? key).isSome = true → Keeps options.keepRowIds key →
        key ≠ child.traits.idAttribute → (Dictionary.get? changes key).isSome = true := by
  intro changes
  obtain ⟨own, hvalue, hnoId⟩ := hlacks
  have hidPresent : (row.get? child.traits.idAttribute).isSome = true := by
    rw [hvalue, Option.isSome_some]
  -- The two ways to recognize the row correspond to the two ways in which the changes make up.
  refine or_congr (exists_congr fun id => ?_)
    (forall_congr' fun key => forall₂_congr fun hthere hkept => ?_)
  · by_cases hkept : Keeps options.keepRowIds child.traits.idAttribute
    · have hnull : own = .null := hnoId.resolve_right (not_not.mpr hkept)
      rw [get?_entry hkept, if_neg (fun hnamed => hnamed.2 rfl), hvalue, hnull]
      cases hchange : Dictionary.get? changes child.traits.idAttribute with
      | none => simp +contextual [eq_comm]
      | some w => simp [hkept]
    · exact iff_of_false (fun hheld => hkept (keeps_of_get?_emitted hheld.1))
        (fun hheld => hkept hheld.2.2)
  · by_cases hsame : key = child.traits.idAttribute
    · rw [get?_entry hkept, if_neg (fun hnamed => hnamed.2 hsame), Option.isSome_or, hthere]
      simp [hsame]
    · rw [get?_entry hkept, if_pos ⟨hidPresent, hsame⟩, Option.or_none]
      simp [hsame, changes]

end Entry

end Edit

end Diff

open Diff

/-- An entry of a changed row tells which row it is about if that row has an id or no id attribute
at all. But a row whose id attribute is null, or is the identity that is not kept, counts as one
that has an id, so that its entry is made of the changes alone: it tells the row only if they bring
an id, or every other member of the row. This holds at every depth, since the changes of a document
are those of its top level, and the changes of a row those of a level again. -/
theorem Schema.changed_rows_recognized_iff (options : DiffOptions) (hedit : options.mode = .edit)
    (hplain : options.stringify = false) :
    (∀ (s : Schema) (original current : Json),
      s.diff options original current = Level.changes options ⟨s, true, original, current⟩) ∧
    ∀ level : Level,
      (∀ pair ∈ level.changes options, ∃ d ∈ level.schema.declared, d.field.id? = some pair.1 ∧
        d.reports options level.atTop level.before level.after = [pair]) ∧
      ∀ d ∈ level.schema.declared, ∀ child, d.field.rowSchema? = some child → ∀ id report,
      d.reports options level.atTop level.before level.after = [(id, report)] →
      ∀ entry ∈ report.rows "changed", ∃ row ∈ level.after.rows id, ∃ old,
        RowDiff.counterpart? (level.before.rows id) row = some old ∧
        let changes := Level.changes options ⟨child, false, old, row⟩
        entry = emitted options.keepRowIds (changedRow child.traits row changes) ∧
        (¬ LacksId options.keepRowIds child.traits row →
          Recognizes options.keepRowIds child.traits row entry) ∧
        (LacksId options.keepRowIds child.traits row →
          (Recognizes options.keepRowIds child.traits row entry ↔
            (∃ id, Dictionary.get? changes child.traits.idAttribute = some id ∧ id ≠ .null ∧
              Keeps options.keepRowIds child.traits.idAttribute) ∨
            ∀ key, (row.get? key).isSome = true → Keeps options.keepRowIds key →
              key ≠ child.traits.idAttribute → (Dictionary.get? changes key).isSome = true)) := by
  refine ⟨fun s original current => rfl,
    fun level => ⟨fun pair => exists_reports_of_mem_changes, ?_⟩⟩
  intro d _ child hrows id report hreports entry hmember
  obtain ⟨row, hafter, old, hbefore, rfl⟩ :=
    exists_row_of_mem_changed hedit hplain hrows hreports hmember
  exact ⟨row, hafter, old, hbefore, rfl, recognizes_of_not_lacksId hedit hplain,
    recognizes_iff_of_lacksId⟩

namespace Diff

private def basketNote : Field := .input { FieldTraits.plain with id := some "note" } .text

private def basketParts : Field :=
  .collection { FieldTraits.plain with id := some "parts" }
    [.input { FieldTraits.plain with id := some "size" } .text] .plain ⟨[], none, none⟩

private def basketItem : Schema := ⟨[basketNote, basketParts], .plain⟩

private theorem declared_basketItem :
    basketItem.declared = [⟨basketNote, basketItem, []⟩, ⟨basketParts, basketItem, []⟩] := rfl

private def basketSchema : Schema :=
  ⟨[.collection { FieldTraits.plain with id := some "items" } basketItem.fields basketItem.traits
    ⟨[], none, none⟩], .plain⟩

private def basketOptions : DiffOptions := ⟨.edit, false, false, false⟩

private def itemOfSize (size : String) : Json :=
  .ofPairs [("cid", .text "a"), ("note", .text "x"),
    ("parts", .array [.ofPairs [("cid", .text "p"), ("oid", .text "7"), ("size", .text size)]])]

private def basketOfSize (size : String) : Json := .ofPairs [("items", .array [itemOfSize size])]

private def shownPart : Json := .ofPairs [("oid", .text "7"), ("size", .text "2")]

private def shownParts : Json := .ofPairs [("changed", .array [shownPart])]

end Diff

/-- Of a basket the size of a part has changed. The item around it has no id and is told by its
note, the part is told by its id. -/
theorem Schema.changed_rows_recognized_basket :
    basketOptions.mode = .edit ∧ basketOptions.stringify = false ∧
    basketSchema.diff basketOptions (basketOfSize "1") (basketOfSize "2") =
      [("items", .ofPairs [("changed", .array [
        .ofPairs [("note", .text "x"), ("parts", shownParts)]])])] ∧
    ∃ row ∈ (itemOfSize "2").rows "parts", Recognizes false .plain row shownPart := by
  refine ⟨rfl, rfl, by decide +kernel, ?_⟩
  obtain ⟨-, hlevels⟩ := Schema.changed_rows_recognized_iff basketOptions rfl rfl
  obtain ⟨-, hentries⟩ := hlevels ⟨basketItem, false, itemOfSize "1", itemOfSize "2"⟩
  let parts : Declared := ⟨basketParts, basketItem, []⟩
  have hreports : parts.reports basketOptions false (itemOfSize "1") (itemOfSize "2") =
      [("parts", shownParts)] := by decide +kernel
  obtain ⟨row, hmember, -, -, -, hrecognized, -⟩ := hentries parts
    (by simp [declared_basketItem, parts]) _ rfl "parts" shownParts hreports shownPart
    (by decide +kernel)
  have honly : (itemOfSize "2").rows "parts" = [_] := rfl
  refine ⟨row, hmember, hrecognized ?_⟩
  rw [honly, List.mem_singleton] at hmember
  subst hmember
  rintro ⟨id, hvalue, hnull | hdropped⟩
  · subst hnull
    exact absurd hvalue (by decide +kernel)
  · exact hdropped (.inr (by decide +kernel))

namespace Diff

private def cellSchema : Schema :=
  ⟨[.input { FieldTraits.plain with id := some "a" } .text,
    .input { FieldTraits.plain with id := some "note" } .text], .plain⟩

private def tableSchema : Schema :=
  ⟨[.collection { FieldTraits.plain with id := some "rows" } cellSchema.fields cellSchema.traits
    ⟨[], none, none⟩], .plain⟩

private def cellRow (a : String) : Json :=
  .ofPairs [("cid", .text "nn1"), ("oid", .null), ("a", .text a), ("note", .text "x")]

private def cellTable (a : String) : Json := .ofPairs [("rows", .array [cellRow a])]

end Diff

/-- A row whose id attribute is null is new. Yet its entry has nothing but its changes, neither an
id nor the note of the row. -/
theorem Schema.changed_row_unrecognized :
    let entry : Json := .ofPairs [("a", .text "2"), ("oid", .null)]
    RowDiff.Identified ((cellTable "1").rows "rows") ∧
      RowDiff.Identified ((cellTable "2").rows "rows") ∧
      tableSchema.diff basketOptions (cellTable "1") (cellTable "2") =
        [("rows", .ofPairs [("changed", .array [entry])])] ∧
      cellSchema.isNew (cellRow "2") = true ∧
      ¬ Recognizes false cellSchema.traits (cellRow "2") entry := by
  refine ⟨by decide +kernel, by decide +kernel, by decide +kernel, by decide +kernel, ?_⟩
  rintro (⟨id, hvalue, hpresent⟩ | hall)
  · have hnull : Json.get? (.ofPairs [("a", .text "2"), ("oid", .null)]) "oid" = some .null := by
      decide +kernel
    exact hpresent (Option.some.inj (hvalue.symm.trans hnull))
  · exact absurd (hall "note" (by decide +kernel) (.inr (by decide +kernel))) (by decide +kernel)

end SchemaForm
