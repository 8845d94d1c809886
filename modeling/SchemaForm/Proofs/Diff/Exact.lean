import SchemaForm.Proofs.Diff.Collection
import SchemaForm.Proofs.Diff.Declared

set_option autoImplicit false
set_option relaxedAutoImplicit false

/-!
The change set as a patch. For inputs and headings it says exactly which of them differ, and laid
over the original document it leads to the current one, up to tolerant equality. At the top level
a value that was cleared is reported as the empty text; the rows below keep their nulls.
-/

namespace SchemaForm

namespace Diff

/-- A reported row as it is handed over. -/
def emitted (keepRowIds : Bool) (row : Json) : Json :=
  if keepRowIds then row else RowId.dropFromRow row

private theorem drop_array (keepRowIds : Bool) (rows : List Json) :
    RowId.drop keepRowIds (.array rows) = .array (rows.map (emitted keepRowIds)) := by
  have hkept : emitted true = id := rfl
  cases keepRowIds with
  | true => simp [RowId.drop, hkept]
  | false => rfl

theorem get?_emitted (keepRowIds : Bool) (row : Json) (key : String) :
    (emitted keepRowIds row).get? key =
      if keepRowIds = false ∧ key = RowId.key then none else row.get? key := by
  cases keepRowIds with
  | true => simp [emitted]
  | false =>
    cases row with
    | object members =>
      simp only [emitted, RowId.dropFromRow, Bool.false_eq_true, if_false, Json.get?,
        Dictionary.get?_erase, true_and, eq_comm]
    | _ => simp [emitted, RowId.dropFromRow, Json.get?]

theorem rows_changed_of_editReport {keepRowIds : Bool} {added deleted changed : List Json}
    {reported : Json} (hreported : editReport keepRowIds added deleted changed = some reported) :
    reported.rows "changed" = changed.map (emitted keepRowIds) := by
  have hrows (parts : List (String × Json)) : (Json.ofPairs parts).rows "changed" =
      ((Dictionary.get? parts.reverse "changed").bind Json.items?).getD [] := by
    rw [Json.rows, Json.ofPairs, Json.get?, Dictionary.get?_ofPairs]
  simp only [editReport, Option.ite_none_left_eq_some, Option.some.injEq] at hreported
  rw [← hreported.2, hrows]
  simp only [drop_array]
  -- The partition of changed rows is the last one, and is left out if there are none.
  cases changed <;> cases added <;> cases deleted <;> rfl

section Values

variable {options : DiffOptions}

theorem reported_of_plain (hplain : options.stringify = false) (atTop : Bool) (v : Json) :
    reported options atTop v = if atTop && v.isNull then .text "" else v := by
  cases v with
  | null => cases atTop <;> rfl
  | _ => simp [reported, hplain, Json.isNull]

private theorem reported_ne_null (options : DiffOptions) (v : Json) :
    reported options true v ≠ .null := by
  cases v with
  | null => simp [reported]
  | array items => cases hs : options.stringify <;> simp [reported, hs]
  | object members => cases hs : options.stringify <;> simp [reported, hs]
  | _ => simp [reported]

private theorem get?_changes_scalar (hplain : options.stringify = false) {l : Level}
    (hunique : UniqueIds l.schema) {d : Declared} (hd : d ∈ l.schema.declared)
    (hscalar : d.field.rowSchema? = none) {id : String} (hid : d.field.id? = some id) :
    Dictionary.get? (l.changes options) id =
      if d.isTracked options = true ∧ Json.alike? (l.before.get? id) (l.after.get? id) = false then
        some (if l.atTop && ((l.after.get? id).getD .null).isNull then .text ""
          else (l.after.get? id).getD .null)
      else none := by
  rw [get?_changes_of_declared hunique.level hd hid, Declared.reports,
    fieldReports_scalar (isData_of_mem_declared hd) hscalar hid]
  cases d.isTracked options with
  | false => rfl
  | true =>
    cases Json.alike? (l.before.get? id) (l.after.get? id) with
    | true => rfl
    | false => simp [report, reported_of_plain hplain, Dictionary.get?_cons]

private theorem alike?_shown (atTop : Bool) (v : Option Json) :
    Json.alike? (some (if atTop && (v.getD .null).isNull then .text "" else v.getD .null)) v =
      true := by
  unfold Json.alike?
  cases hv : v.getD .null with
  | null => cases atTop <;> rfl
  | _ => simp [Json.alike, Json.isNull, Json.same_refl]

theorem alike?_laid_over (hplain : options.stringify = false) {l : Level}
    (hunique : UniqueIds l.schema) {d : Declared} (hd : d ∈ l.schema.declared)
    (htracked : d.isTracked options = true) (hscalar : d.field.rowSchema? = none) {id : String}
    (hid : d.field.id? = some id) :
    Json.alike? ((Dictionary.get? (l.changes options) id).or (l.before.get? id))
      (l.after.get? id) = true := by
  rw [get?_changes_scalar hplain hunique hd hscalar hid]
  cases halike : Json.alike? (l.before.get? id) (l.after.get? id) with
  | true => simpa using halike
  | false => simpa [htracked] using alike?_shown l.atTop (l.after.get? id)

private theorem changes_ne_null (options : DiffOptions) {l : Level} (htop : l.atTop = true) :
    ∀ pair ∈ l.changes options, pair.2 ≠ .null := by
  intro pair hpair
  rcases Dictionary.mem_overlay hpair with hnone | hreport
  · cases hnone
  · rw [levelReports_eq_flatMap_declared, htop] at hreport
    obtain ⟨d, hd, hreport⟩ := List.mem_flatMap.mp hreport
    have hcases : d.reports options true l.before l.after = [] ∨ _ :=
      Declared.reports_cases (isData_of_mem_declared hd)
    rcases hcases with hsilent | ⟨id, v, -, hsingle⟩
    · rw [hsilent] at hreport
      cases hreport
    · rw [hsingle, List.mem_singleton] at hreport
      rw [hreport]
      exact reported_ne_null options v

private theorem get?_changes_rows (hedit : options.mode = .edit)
    (hplain : options.stringify = false) {l : Level} (hunique : UniqueIds l.schema) {d : Declared}
    (hd : d ∈ l.schema.declared) {child : Schema} (hrows : d.field.rowSchema? = some child)
    {id : String} (hid : d.field.id? = some id) : Dictionary.get? (l.changes options) id =
      if d.isTracked options = false ∨
          Json.same? (l.before.get? id) (l.after.get? id) = true then none
      else
        let diff := RowDiff.of (l.before.rows id) (l.after.rows id)
        editReport options.keepRowIds diff.added diff.removed (diff.updated.filterMap fun row =>
          (RowDiff.counterpart? (l.before.rows id) row).bind fun old =>
            rowReport? options child old row) := by
  rw [get?_changes_of_declared hunique.level hd hid, Declared.reports]
  cases htracked : d.isTracked options with
  | false => rfl
  | true =>
    obtain ⟨f, traits, around⟩ := d
    cases f with
    | collection t fields child' rows =>
      obtain rfl : (⟨fields, child'⟩ : Schema) = child := Option.some.inj hrows
      have ht : t.id = some id := hid
      simp only [fieldReports, ht, hedit, if_true, rowReport?_eq]
      cases Json.same? (l.before.get? id) (l.after.get? id) with
      | true => rfl
      | false => simpa using get?_partitions hplain id _ _
    | _ => cases hrows

private theorem get?_rowReport? (hplain : options.stringify = false) {child : Schema}
    (hunique : UniqueIds child) {old row entry : Json}
    (hentry : rowReport? options child old row = some entry) {e : Declared}
    (he : e ∈ child.declared) (hscalar : e.field.rowSchema? = none) {key : String}
    (hkey : e.field.id? = some key) : entry.get? key =
      if e.isTracked options = true ∧ Json.alike? (old.get? key) (row.get? key) = false then
        some ((row.get? key).getD .null)
      else if (row.get? child.traits.idAttribute).isSome = true ∧
          key ≠ child.traits.idAttribute then none
      else row.get? key := by
  have hvalue := get?_changes_scalar hplain (l := ⟨child, false, old, row⟩) hunique he hscalar hkey
  simp only [rowReport?, Option.ite_none_left_eq_some, Option.some.injEq] at hentry
  rw [← hentry.2, Level.changes, get?_changedRow]
  rw [Level.changes] at hvalue
  rw [hvalue]
  split
  · rfl
  · rfl

private theorem exists_rowReport? (hplain : options.stringify = false) {child : Schema}
    (hunique : UniqueIds child) {old row : Json} {e : Declared} (he : e ∈ child.declared)
    (hscalar : e.field.rowSchema? = none) {key : String} (hkey : e.field.id? = some key)
    (htracked : e.isTracked options = true)
    (hchanged : Json.alike? (old.get? key) (row.get? key) = false) :
    ∃ entry, rowReport? options child old row = some entry := by
  have hvalue := get?_changes_scalar hplain (l := ⟨child, false, old, row⟩) hunique he hscalar hkey
  rw [if_pos ⟨htracked, hchanged⟩] at hvalue
  simp only [rowReport?]
  split
  · rename_i hempty
    rw [List.isEmpty_iff.mp hempty] at hvalue
    cases hvalue
  · exact ⟨_, rfl⟩

end Values

/-- A level is compared if it is the top level, or a pair of rows that correspond in such a level.
-/
inductive Compared (top : Level) : Level → Prop where
  | top : Compared top top
  | row {level : Level} {d : Declared} {id : String} {child : Schema} {old row : Json}
      (hcompared : Compared top level) (hdeclared : d ∈ level.schema.declared)
      (hnamed : d.field.id? = some id) (hrows : d.field.rowSchema? = some child)
      (hafter : row ∈ level.after.rows id)
      (hbefore : RowDiff.counterpart? (level.before.rows id) row = some old) :
      Compared top ⟨child, false, old, row⟩

private theorem Compared.uniqueIds {top level : Level} (h : Compared top level)
    (hunique : UniqueIds top.schema) : UniqueIds level.schema := by
  induction h with
  | top => exact hunique
  | row _ hdeclared _ hrows _ _ ih => exact ih.child hdeclared hrows

end Diff

open Diff

/-- The change set of two documents is exact. It has a value for an input or a heading exactly if
this is tracked, with all that is around it, and the two documents differ there; laid over the
original document it makes all of these as they are in the current one. It has no null, but in the
entries of changed rows, at every depth, the values are those of the row. -/
theorem Schema.diff_exact (s : Schema) (options : DiffOptions) (original current : Json)
    (hplain : options.stringify = false) (hunique : UniqueIds s) :
    let changes := s.diff options original current
    (∀ d ∈ s.declared, ∀ id, d.field.rowSchema? = none → d.field.id? = some id →
      (Dictionary.has changes id = true ↔
        d.isTracked options = true ∧ Json.alike? (original.get? id) (current.get? id) = false) ∧
      (d.isTracked options = true →
        Json.alike? (Dictionary.get? (Dictionary.overlay (original.members?.getD []) changes) id)
          (current.get? id) = true)) ∧
    (∀ pair ∈ changes, pair.2 ≠ .null) ∧
    (options.mode = .edit →
      ∀ level, Compared ⟨s, true, original, current⟩ level → ∀ d ∈ level.schema.declared,
      ∀ id child, d.field.id? = some id → d.field.rowSchema? = some child →
      let diff := RowDiff.of (level.before.rows id) (level.after.rows id)
      (∀ reported, Dictionary.get? (level.changes options) id = some reported →
        reported.rows "changed" = (diff.updated.filterMap fun row =>
          (RowDiff.counterpart? (level.before.rows id) row).bind fun old =>
            rowReport? options child old row).map (emitted options.keepRowIds)) ∧
      ∀ row ∈ level.after.rows id, ∀ old,
        RowDiff.counterpart? (level.before.rows id) row = some old →
        ∀ e ∈ child.declared, ∀ key, e.field.rowSchema? = none → e.field.id? = some key →
        (e.isTracked options = true → Json.alike? (old.get? key) (row.get? key) = false →
          ∃ entry, rowReport? options child old row = some entry) ∧
        ∀ entry, rowReport? options child old row = some entry →
          (emitted options.keepRowIds entry).get? key =
            if options.keepRowIds = false ∧ key = RowId.key then none
            else if e.isTracked options = true ∧
                Json.alike? (old.get? key) (row.get? key) = false then
              some ((row.get? key).getD .null)
            else if (row.get? child.traits.idAttribute).isSome = true ∧
                key ≠ child.traits.idAttribute then none
            else row.get? key) := by
  intro changes
  have htop : changes = Level.changes options ⟨s, true, original, current⟩ := rfl
  have hnonnull := changes_ne_null options (l := ⟨s, true, original, current⟩) rfl
  refine ⟨fun d hd id hscalar hid => ⟨?_, fun htracked => ?_⟩, hnonnull,
    fun hedit level hlevel => ?_⟩
  · have hvalue := get?_changes_scalar hplain (l := ⟨s, true, original, current⟩) hunique hd hscalar
      hid
    rw [Dictionary.has, htop, hvalue]
    split <;> simp [*]
  · have hlaid : Dictionary.get? (Dictionary.overlay (original.members?.getD []) changes) id =
        (Dictionary.get? changes id).or (original.get? id) := by
      have hbase : Dictionary.get? (original.members?.getD []) id = original.get? id := by
        cases original <;> rfl
      rw [← hbase]
      exact Dictionary.get?_overlay_ofPairs _ _ id
    rw [hlaid, htop]
    exact alike?_laid_over hplain (l := ⟨s, true, original, current⟩) hunique hd htracked hscalar
      hid
  · intro d hd id child hid hrows diff
    have hunique' := hlevel.uniqueIds hunique
    have hchild := hunique'.child hd hrows
    refine ⟨fun reported hreported => ?_, ?_⟩
    · rw [get?_changes_rows hedit hplain hunique' hd hrows hid] at hreported
      split at hreported
      · cases hreported
      · exact rows_changed_of_editReport hreported
    · intro row _ old _ e he key hscalar hkey
      refine ⟨exists_rowReport? hplain hchild he hscalar hkey, fun entry hentry => ?_⟩
      rw [get?_emitted, get?_rowReport? hplain hchild hentry he hscalar hkey]

namespace Diff

private def lineSchema : Schema :=
  ⟨[.input { FieldTraits.plain with id := some "note" } .text], .plain⟩

private def nameField : Field := .input { FieldTraits.plain with id := some "name" } .text

private def linesField : Field :=
  .collection { FieldTraits.plain with id := some "lines" } lineSchema.fields lineSchema.traits
    ⟨[], none, none⟩

private def remarkField : Field := .input { FieldTraits.plain with id := some "remark" } .multiline

private def remarkTab : Schema := ⟨[remarkField], .plain⟩

private def invoiceSchema : Schema :=
  ⟨[nameField, .nested .plain .tab remarkTab.fields remarkTab.traits, linesField], .plain⟩

private def invoice (name remark note : Json) : Json :=
  .ofPairs [("name", name), ("remark", remark),
    ("lines", .array [.ofPairs [("cid", .text "nn1"), ("note", note)]])]

private theorem declared_invoiceSchema :
    invoiceSchema.declared = [⟨nameField, invoiceSchema, []⟩, ⟨remarkField, remarkTab, [.plain]⟩,
      ⟨linesField, invoiceSchema, []⟩] := rfl

private theorem uniqueIds_invoiceSchema : UniqueIds invoiceSchema := by
  have hline : UniqueIds lineSchema := by
    refine ⟨by decide, fun d hd child hchild => ?_⟩
    rcases List.mem_singleton.mp hd with rfl
    cases hchild
  refine ⟨by decide, fun d hd child hchild => ?_⟩
  simp only [declared_invoiceSchema, List.mem_cons, List.not_mem_nil, or_false] at hd
  rcases hd with rfl | rfl | rfl
  · cases hchild
  · cases hchild
  · rw [← Option.some.inj hchild]
    exact hline

end Diff

theorem Schema.diff_exact_invoice :
    let options : DiffOptions := ⟨.edit, false, false, false⟩
    let before := invoice (.text "a") .null (.text "x")
    let after := invoice .null (.text "late") .null
    let changes := invoiceSchema.diff options before after
    options.stringify = false ∧ UniqueIds invoiceSchema ∧
      changes = [("lines", .ofPairs [("changed", .array [.ofPairs [("note", .null)]])]),
        ("name", .text ""), ("remark", .text "late")] ∧
      Dictionary.has changes "remark" = true ∧
      Json.alike? (Dictionary.get? (Dictionary.overlay (before.members?.getD []) changes) "name")
        (after.get? "name") = true := by
  intro options before after changes
  obtain ⟨hscalars, -⟩ :=
    invoiceSchema.diff_exact options before after rfl uniqueIds_invoiceSchema
  have hremark := hscalars ⟨remarkField, remarkTab, [.plain]⟩ (by simp [declared_invoiceSchema])
    "remark" rfl rfl
  have hname := hscalars ⟨nameField, invoiceSchema, []⟩ (by simp [declared_invoiceSchema])
    "name" rfl rfl
  exact ⟨rfl, uniqueIds_invoiceSchema, by decide +kernel, hremark.1.mpr (by decide +kernel),
    hname.2 (by decide +kernel)⟩

end SchemaForm
