import SchemaForm.Proofs.Form.Published
import SchemaForm.Proofs.Grid.Calls
import SchemaForm.Proofs.Grid.Finding
import SchemaForm.Proofs.Options.Locked
import SchemaForm.Proofs.Path.Reading

set_option autoImplicit false
set_option relaxedAutoImplicit false

/-!
Grids of a form that only shows its document. Every attempt to change it through a grid is refused,
with one exception: the flags of a row stand among the options of its cells, and a flag does not
refuse what a cell would.
-/

namespace SchemaForm

open Dictionary
open OptionName

namespace OptionRegistry

section Tree

variable {s : Schema} {doc : Json} {view : View} {p : Path} {name : String} {v : Json}

private theorem eq_of_get?_evaluate_row {node : OptionNode} (hkind : node.kind = .row)
    (hfound : get? (builtin.evaluate node) name = some v) :
    name = canEditRow ∨ name = canDeleteRow := by
  obtain ⟨rule, hrule, rfl, hmem⟩ :=
    isSome_get?_evaluate_iff.mp (Option.isSome_iff_exists.mpr ⟨v, hfound⟩)
  have hrules : ∀ rule ∈ builtin.rules, NodeKind.row ∈ rule.kinds →
      rule.name = canEditRow ∨ rule.name = canDeleteRow := by
    decide
  exact hrules rule hrule (hkind ▸ hmem)

private theorem NodeAt.cases_get?_members_row {node : OptionNode}
    (hnode : NodeAt builtin s doc view p node) (hkind : node.kind = .row)
    (hlocked : view.isLocked = true) (hfound : get? (builtin.members node) name = some v) :
    (∃ members, v = .object members ∧ get? members readonly = some (.bool true)) ∨
      ((∃ b, v = .bool b) ∧ (name = canEditRow ∨ name = canDeleteRow)) := by
  rcases hnode.get?_members name with ⟨step, cell, -, hcell, hmember, -⟩ | hoption
  · have heven := hnode.even_length_iff.mpr hkind
    have hother : cell.kind ≠ .row := by
      rw [Ne, ← hcell.even_length_iff, Path.length_child]
      omega
    have hoption := hcell.get?_members_option builtin_names_ne_repr
      (fun hrow => absurd hrow hother) (show readonly ∈ builtin.names by decide)
    have hview : cell.view.isLocked = true := by
      rw [hcell.view_eq]
      exact hlocked
    rw [hfound] at hmember
    exact .inl ⟨_, Option.some.inj hmember, hoption.trans (get?_readonly hview hother)⟩
  · rw [hfound] at hoption
    exact .inr ⟨exists_bool_of_get?_builtin hoption.symm,
      eq_of_get?_evaluate_row hkind hoption.symm⟩

variable (hodd : p.segments.length % 2 = 1)

include hodd

private theorem flag_tree_eq_false (hprops : view.isProperties = true) (hname : name ∈ actions) :
    ((builtin.tree s doc view).valueAtOrNull p).flag name = false := by
  have hfalse (v : Json) (hv : (builtin.tree s doc view).option? p name = some v) :
      v = .bool false :=
    eq_false_of_option?_tree (.inl ⟨hprops, hname⟩) (Path.ne_root_of_odd hodd) (by omega) hv
  unfold Json.valueAtOrNull Json.flag
  unfold Json.option? at hfalse
  cases hnode : (builtin.tree s doc view).valueAt? p with
  | none => rfl
  | some node =>
    rw [hnode, Option.bind_some] at hfalse
    cases hmember : node.get? name with
    | none => simp [hmember]
    | some v => simp [hmember, hfalse v hmember, Json.truthy]

private theorem cases_get?_rowOptions (hlocked : view.isLocked = true) {n : Nat}
    (hfound : (Grid.rowOptions ((builtin.tree s doc view).valueAtOrNull p) n).get? name = some v) :
    (∃ members, v = .object members ∧ get? members readonly = some (.bool true)) ∨
      ((∃ b, v = .bool b) ∧ (name = canEditRow ∨ name = canDeleteRow)) := by
  have hflags (node : OptionNode) (name : String) (v : Json)
      (hfound : get? (builtin.evaluate node) name = some v) : ∃ b, v = .bool b :=
    exists_bool_of_get?_builtin hfound
  unfold Json.valueAtOrNull Grid.rowOptions at hfound
  cases hvalue : (builtin.tree s doc view).valueAt? p with
  | none =>
    rw [hvalue] at hfound
    cases hfound
  | some above =>
    rw [hvalue, Option.getD_some] at hfound
    rcases exists_nodeAt_of_valueAt?_tree hflags hvalue (Path.ne_root_of_odd hodd) with
      ⟨q, node, hlength, hnode, rfl⟩ | ⟨b, rfl⟩
    · rcases hnode.get?_members (Nat.repr n) with ⟨step, row, -, hrow, hmember, -⟩ | hoption
      · have hkind : row.kind = .row := by
          rw [← hrow.even_length_iff, Path.length_child]
          omega
        have hmember' : (Json.object (builtin.members node)).get? (Nat.repr n) =
            some (.object (builtin.members row)) := hmember
        rw [hmember', Option.getD_some] at hfound
        exact hrow.cases_get?_members_row hkind hlocked hfound
      · have hnone : (Json.object (builtin.members node)).get? (Nat.repr n) = none :=
          hoption.trans (get?_evaluate_repr builtin_names_ne_repr n)
        rw [hnone] at hfound
        cases hfound
    · cases hfound

end Tree

end OptionRegistry

/-- Nothing may be done with the rows of the table. -/
structure TableSettings.Closed (t : TableSettings) : Prop where
  reorderable : t.reorderable = false
  expandable : t.expandable = false
  deletable : t.deletable = false

private theorem GridFeature.closed_setUp {ctx : TableContext}
    (hflags : ∀ name ∈ actions, ctx.options.flag name = false) (feature : GridFeature)
    {t : TableSettings} (h : t.Closed) : (feature.setUp ctx t).Closed := by
  cases feature with
  | reorder => exact ⟨hflags canReorder (by decide), h.expandable, h.deletable⟩
  | expandableEdit => exact ⟨h.reorderable, hflags canEdit (by decide), h.deletable⟩
  | deleteRow => exact ⟨h.reorderable, h.expandable, hflags canDelete (by decide)⟩
  | fixedRows => exact ⟨h.reorderable, h.expandable, h.deletable⟩
  | globalSearch => exact ⟨h.reorderable, h.expandable, h.deletable⟩
  | inert => exact h

private theorem FeatureEntry.closed_foldl {ctx : TableContext}
    (hflags : ∀ name ∈ actions, ctx.options.flag name = false) (features : List FeatureEntry)
    {t : TableSettings} (h : t.Closed) :
    (features.foldl (fun t e => e.feature.setUp ctx t) t).Closed := by
  induction features generalizing t with
  | nil => exact h
  | cons e features ih => exact ih (e.feature.closed_setUp hflags h)

/-- The form publishes the options of a document that is only shown. -/
def Form.OnlyShown (f : Form) : Prop :=
  ∃ s doc view, view.isProperties = true ∧
    f.options.state.same (OptionRegistry.builtin.tree s doc view) = true

private theorem Form.Published.onlyShown {f : Form} (h : f.Published)
    (hregistry : f.registry = .builtin) (hprops : f.view.isProperties = true) : f.OnlyShown := by
  rcases h with hempty | htree
  · refine ⟨⟨[], .plain⟩, .null, f.view, hprops, ?_⟩
    rw [hempty]
    rfl
  · rw [hregistry] at htree
    exact ⟨f.schema, f.session.doc, f.view, hprops, htree⟩

namespace Grid

variable {f : Form} {g : Grid} {n : Nat} {column : String} {v : Json}

private theorem collectionOptions_flag (h : f.OnlyShown) (hodd : g.path.segments.length % 2 = 1)
    {name : String} (hname : name ∈ actions) : (g.collectionOptions f).flag name = false := by
  obtain ⟨s, doc, view, hprops, htree⟩ := h
  have hsame := Json.flag_eq_of_same (Json.same_valueAtOrNull htree g.path) name
  exact hsame.trans (OptionRegistry.flag_tree_eq_false hodd hprops hname)

private theorem readonly_or_bool_of_rowOptions (h : f.OnlyShown)
    (hodd : g.path.segments.length % 2 = 1)
    (hfound : (rowOptions (g.collectionOptions f) n).get? column = some v) :
    v.flag readonly = true ∨
      ((∃ b, v = .bool b) ∧ (column = canEditRow ∨ column = canDeleteRow)) := by
  obtain ⟨s, doc, view, hprops, htree⟩ := h
  have hlocked : view.isLocked = true := Bool.or_eq_true_iff.mpr (.inr hprops)
  have hrow := Json.same_getD_null
    (Json.same?_get? (Json.same_valueAtOrNull htree g.path) (Nat.repr n))
  have hmember : Json.same? (some v)
      ((rowOptions ((OptionRegistry.builtin.tree s doc view).valueAtOrNull g.path) n).get? column) =
        true := by
    rw [← hfound]
    exact Json.same?_get? hrow column
  cases hfound' : (rowOptions ((OptionRegistry.builtin.tree s doc view).valueAtOrNull g.path)
      n).get? column with
  | none =>
    rw [hfound'] at hmember
    cases hmember
  | some w =>
    rw [hfound'] at hmember
    rcases OptionRegistry.cases_get?_rowOptions hodd hlocked hfound' with
      ⟨members, rfl, hreadonly⟩ | ⟨⟨b, rfl⟩, hname⟩
    · refine .inl ((Json.flag_eq_of_same hmember readonly).trans ?_)
      simp [Json.flag, Json.get?, hreadonly, Json.truthy]
    · refine .inr ⟨⟨b, ?_⟩, hname⟩
      cases v with
      | bool b' =>
        have hb : b' = b := by simpa [Json.same?, Json.same] using hmember
        rw [hb]
      | _ => cases hmember

private theorem changeCell_of_refused {value : Json}
    (hrefused : (g.changeCell f n column value).1 = false) :
    g.changeCell f n column value = (false, f) := by
  simp only [changeCell] at hrefused ⊢
  split
  · rfl
  · rename_i hallowed
    rw [if_neg hallowed] at hrefused
    cases hrefused

private theorem changeCell_succeeds_iff (h : f.OnlyShown) (hodd : g.path.segments.length % 2 = 1)
    (value : Json) : (g.changeCell f n column value).1 = true ↔
      ∃ b, (rowOptions (g.collectionOptions f) n).get? column = some (.bool b) := by
  constructor
  · intro hwritten
    unfold changeCell at hwritten
    cases hfound : (rowOptions (g.collectionOptions f) n).get? column with
    | none => simp [hfound, Json.isNull] at hwritten
    | some v =>
      rcases readonly_or_bool_of_rowOptions h hodd hfound with hreadonly | ⟨⟨b, rfl⟩, -⟩
      · simp [hfound, hreadonly] at hwritten
      · exact ⟨b, rfl⟩
  · rintro ⟨b, hfound⟩
    -- A flag has no options of its own, so what is absent there counts in its favour.
    have hreadonly : (Json.bool b).flag readonly = false := rfl
    have heditable : (Json.bool b).flagOr editable true = true := rfl
    have hthere : (Json.bool b).isNull = false := rfl
    simp [changeCell, hfound, hthere, hreadonly, heditable]

/-! ### Sequences of calls -/

/-- Given the options of its collection, a call writes a cell where the row has a flag. -/
def WritesFlag (options : Json) : GridCall → Prop
  | .changeCell position column _ => ∃ b, (rowOptions options position).get? column = some (.bool b)
  | _ => False

section Calls

variable (h : f.OnlyShown) (hodd : g.path.segments.length % 2 = 1)

include h hodd

private theorem closed_refresh : (g.refresh f).settings.Closed :=
  FeatureEntry.closed_foldl (fun _ hname => collectionOptions_flag h hodd hname) g.features
    ⟨rfl, rfl, rfl⟩

/-- A call succeeds exactly if it writes where the row has a flag, and otherwise nothing changes. -/
private theorem attempt_of_onlyShown (call : GridCall) :
    ((g.attempt f call).succeeded = true ↔ WritesFlag (g.collectionOptions f) call) ∧
      (¬WritesFlag (g.collectionOptions f) call → (g.attempt f call).form = f) ∧
      (g.attempt f call).grid.path = g.path := by
  have hclosed := closed_refresh h hodd
  cases call with
  | addRow =>
    have hadd : (g.collectionOptions f).flag canAddRow = false :=
      collectionOptions_flag h hodd (by decide)
    simp [attempt, addRow, hadd, WritesFlag]
  | deleteRow position =>
    simp only [attempt, deleteRow, hclosed.deletable, WritesFlag]
    split <;> simp [refresh_path]
  | moveRow source target =>
    simp [attempt, moveRow, hclosed.reorderable, WritesFlag, refresh_path]
  | toggleExpanded position =>
    simp only [attempt, toggleExpanded, hclosed.expandable, WritesFlag]
    split <;> simp [refresh_path]
  | changeCell position column value =>
    refine ⟨changeCell_succeeds_iff h hodd value, fun hother => ?_, rfl⟩
    have hfails : (g.changeCell f position column value).1 = false := by
      rw [← Bool.not_eq_true, changeCell_succeeds_iff h hodd]
      exact hother
    simp only [attempt, changeCell_of_refused hfails]

private theorem answers_of_onlyShown {calls : List GridCall}
    (hflags : ∀ call ∈ calls, ¬WritesFlag (g.collectionOptions f) call) :
    g.answers f calls = (List.replicate calls.length false, f) := by
  induction calls generalizing g with
  | nil => rfl
  | cons call calls ih =>
    obtain ⟨hsucceeds, hform, hpath⟩ := attempt_of_onlyShown h hodd call
    have hflag := hflags call List.mem_cons_self
    have hrefused : (g.attempt f call).succeeded = false := by
      rw [← Bool.not_eq_true, hsucceeds]
      exact hflag
    have hoptions : (g.attempt f call).grid.collectionOptions f = g.collectionOptions f := by
      rw [collectionOptions, hpath, collectionOptions]
    have hlater := ih (g := (g.attempt f call).grid) (by rw [hpath]; exact hodd) (by
      rw [hoptions]
      exact fun other hother => hflags other (List.mem_cons_of_mem call hother))
    simp only [answers, hform hflag, hlater, hrefused]
    rfl

end Calls

/-- In every state that a run of a form reaches which only shows its document, a call of a grid on
one of its collections succeeds exactly if it writes a cell where the row has a flag, which is the
case only under the names of the two flags of a row. All other calls are refused, one after the
other, and leave the form as it is. -/
theorem calls_refused_in_properties (schema : Schema) (view : View) (fixedData : Json)
    (ids : RowIds) (ops : List FormOp) (hmode : view.mode = .properties) (g : Grid)
    (hcollection : CollectionField.find? schema.fields g.path.segments = some g.collection) :
    let f := (Form.start schema view .builtin fixedData ids).run ops
    (∀ calls : List GridCall, (∀ call ∈ calls, ¬WritesFlag (g.collectionOptions f) call) →
      g.answers f calls = (List.replicate calls.length false, f)) ∧
    (∀ call, (g.attempt f call).succeeded = true ↔ WritesFlag (g.collectionOptions f) call) ∧
    (∀ n column value, WritesFlag (g.collectionOptions f) (.changeCell n column value) →
      column = canEditRow ∨ column = canDeleteRow) := by
  intro f
  have hodd := CollectionField.odd_length_of_find? hcollection
  obtain ⟨-, hsetting⟩ := Form.sound_run schema view .builtin fixedData ids ops
  simp only [Form.setting, Form.Setting.mk.injEq] at hsetting
  obtain ⟨-, hview, hregistry, -⟩ := hsetting
  have hprops : f.view.isProperties = true := by
    rw [hview, View.isProperties, hmode]
    rfl
  have hshown : f.OnlyShown :=
    (Form.published_run schema view .builtin fixedData ids ops).onlyShown hregistry hprops
  refine ⟨fun calls hflags => answers_of_onlyShown hshown hodd hflags,
    fun call => (attempt_of_onlyShown hshown hodd call).1, fun n column value hflag => ?_⟩
  obtain ⟨b, hfound⟩ := hflag
  rcases readonly_or_bool_of_rowOptions hshown hodd hfound with hreadonly | ⟨-, hname⟩
  · cases hreadonly
  · exact hname

private def columnsField : CollectionField where
  traits := { FieldTraits.plain with id := some "columns" }
  fields := [.input { FieldTraits.plain with id := some "name" } .text]
  schema := .plain
  rows := ⟨[], none, none⟩

private def tableSchema : Schema :=
  ⟨[.collection columnsField.traits columnsField.fields columnsField.schema columnsField.rows],
    .plain⟩

private def shownTable : Form :=
  (Form.start tableSchema (.ofMode .properties) .builtin .empty ⟨0⟩).run [.initialise false
    (some (.ok (.ofPairs [("columns", .array [.ofPairs [("name", .text "id")]])])))]

private def columnsGrid : Grid where
  path := Path.root.key "columns"
  collection := columnsField
  features := FeatureRegistry.builtin.entries
  columns := columnsField.columns
  settings := .plain
  search := ""
  expanded := []

theorem calls_refused_in_properties_table :
    let calls : List GridCall := [.addRow, .deleteRow 0, .moveRow 0 1, .toggleExpanded 0,
      .changeCell 0 "name" (.text "key"), .changeCell 7 canEditRow .null]
    (View.ofMode .properties).mode = .properties ∧
      CollectionField.find? tableSchema.fields columnsGrid.path.segments =
        some columnsGrid.collection ∧
      (∀ call ∈ calls, ¬WritesFlag (columnsGrid.collectionOptions shownTable) call) ∧
      shownTable.ui.ready = true ∧
      columnsGrid.answers shownTable calls = (List.replicate 6 false, shownTable) := by
  intro calls
  obtain ⟨hrefused, hsucceeds, -⟩ := calls_refused_in_properties tableSchema (.ofMode .properties)
    .empty ⟨0⟩ [.initialise false
      (some (.ok (.ofPairs [("columns", .array [.ofPairs [("name", .text "id")]])])))]
    rfl columnsGrid rfl
  have hflags : ∀ call ∈ calls, ¬WritesFlag (columnsGrid.collectionOptions shownTable) call := by
    have hfails : ∀ call ∈ calls, (columnsGrid.attempt shownTable call).succeeded ≠ true := by
      decide +kernel
    exact fun call hcall hflag => hfails call hcall ((hsucceeds call).mpr hflag)
  exact ⟨rfl, rfl, hflags, by decide +kernel, hrefused calls hflags⟩

/-- Under the name of a flag a cell is written, though the document is only shown. -/
theorem flag_of_row_written_in_properties :
    let written := columnsGrid.changeCell shownTable 0 canEditRow (.text "key")
    shownTable.ui.ready = true ∧ shownTable.view.mode = .properties ∧ written.1 = true ∧
      written.2.session.doc ≠ shownTable.session.doc ∧
      written.2.session.changeId = shownTable.session.changeId + 1 := by
  decide +kernel

end Grid

end SchemaForm
