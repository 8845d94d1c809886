import SchemaForm.Proofs.Form.Lifecycle
import SchemaForm.Proofs.Form.Published
import SchemaForm.Proofs.Form.Untouched
import SchemaForm.Proofs.Grid.Buttons
import SchemaForm.Proofs.Grid.Calls
import SchemaForm.Proofs.Options.Standing
import SchemaForm.Proofs.Path.Reading

set_option autoImplicit false
set_option relaxedAutoImplicit false

/-!
What a grid shows against what it permits. The features decorate a row from the settings of the
table and the options of the row; a call looks at both again. A cell is shown and written from its
own options, and these are there just when the options have followed the document to the row.
-/

namespace SchemaForm

open Dictionary
open Diff (UniqueIds)
open OptionName

theorem FeatureRegistry.builtin_ordered : builtin.ordered = builtin.entries := by
  have hsorted : builtin.entries.Pairwise fun a b => a.notAfter b = true := by decide
  exact List.mergeSort_of_pairwise hsorted

namespace Grid

variable {g : Grid} {f : Form}

/-- How many rows the built-in features keep in their places. -/
def pinned (g : Grid) (f : Form) : Nat :=
  match g.collection.rows.fixedRows, f.view.mode with
  | some rows, .create => min rows.length (g.rows f).length
  | _, _ => 0

/-- The text in lower case that the built-in features search for. -/
def needle? (g : Grid) (f : Form) : Option String :=
  if (g.collectionOptions f).flag canSearch && Text.trim g.search != "" then
    some (Text.toLower (Text.trim g.search))
  else
    none

section Builtin

variable (hfeatures : g.features = FeatureRegistry.builtin.ordered)

include hfeatures

theorem settings_refresh : (g.refresh f).settings =
    { reorderable := (g.collectionOptions f).flag canReorder
      expandable := (g.collectionOptions f).flag canEdit
      deletable := (g.collectionOptions f).flag canDelete
      fixedRows := g.pinned f
      search := g.needle? f } := by
  rw [FeatureRegistry.builtin_ordered] at hfeatures
  simp only [refresh, hfeatures]
  rfl

private theorem decoration_of_builtin (ctx : RowContext) :
    let d := g.features.foldl (fun d e => e.feature.decorate ctx d) .plain
    d.canDelete = (ctx.settings.deletable && decide (ctx.settings.fixedRows ≤ ctx.position) &&
      ctx.allows canDeleteRow) ∧
    d.draggable = (ctx.settings.reorderable && decide (ctx.settings.fixedRows ≤ ctx.position)) ∧
    d.dropTarget = (ctx.settings.reorderable && decide (ctx.settings.fixedRows ≤ ctx.position)) ∧
    d.canEdit = (ctx.settings.expandable && ctx.allows canEditRow) ∧
    d.expanded = (ctx.settings.expandable && ctx.isExpanded) := by
  rw [hfeatures, FeatureRegistry.builtin_ordered]
  simp only [FeatureRegistry.builtin, List.foldl, GridFeature.decorate]
  simp only [← Nat.not_le]
  by_cases hfixed : ctx.settings.fixedRows ≤ ctx.position <;> cases ctx.settings.reorderable <;>
    cases ctx.settings.expandable <;> cases ctx.isExpanded <;> cases ctx.settings.search <;>
    simp [hfixed, RowDecoration.plain, RowDecoration.withClass]

end Builtin

/-! ### Rows and calls -/

private theorem refresh_refresh (g : Grid) (f : Form) : (g.refresh f).refresh f = g.refresh f := rfl

private theorem exists_of_mem_rendered {row : GridRow} (hrow : row ∈ g.rendered f) :
    ∃ value, (g.rows f)[row.position]? = some value ∧ row.id = RowId.of? value ∧
      row.cells = (g.columns.filterMap Column.fieldId?).map
        (cell value (rowOptions (g.collectionOptions f) row.position)) ∧
      row.decoration = g.features.foldl (fun d e => e.feature.decorate
        ⟨row.position, value, rowOptions (g.collectionOptions f) row.position, g.settings,
          g.columns, g.expanded⟩ d) .plain := by
  obtain ⟨⟨value, n⟩, hvalue, hshown⟩ := List.mem_filterMap.mp hrow
  rw [List.mem_zipIdx_iff_getElem?] at hvalue
  simp only [renderRow?] at hshown
  split at hshown
  · cases hshown
  · cases hshown
    exact ⟨value, hvalue, rfl, rfl, rfl⟩

private theorem deleteRow_succeeds {n : Nat} (hn : n < (g.rows f).length) :
    (g.deleteRow f n).succeeded =
      ((g.refresh f).settings.deletable && decide ((g.refresh f).settings.fixedRows ≤ n) &&
        rowAllows (g.collectionOptions f) n canDeleteRow) := by
  have hrow : ((g.refresh f).rows f)[n]? = some (g.rows f)[n] := List.getElem?_eq_getElem hn
  have hoptions : (g.refresh f).collectionOptions f = g.collectionOptions f := rfl
  simp only [deleteRow, hrow, hoptions]
  cases (g.refresh f).settings.deletable && decide ((g.refresh f).settings.fixedRows ≤ n) &&
    rowAllows (g.collectionOptions f) n canDeleteRow <;> rfl

private theorem moveRow_succeeds {m n : Nat} (hm : m < (g.rows f).length)
    (hn : n < (g.rows f).length) (hne : m ≠ n) :
    (g.moveRow f m n).succeeded =
      ((g.refresh f).settings.reorderable && decide ((g.refresh f).settings.fixedRows ≤ m) &&
        decide ((g.refresh f).settings.fixedRows ≤ n)) := by
  have hm' : m < ((g.refresh f).rows f).length := hm
  have hn' : n < ((g.refresh f).rows f).length := hn
  have hne' : (m != n) = true := by simpa using hne
  simp [moveRow, hm', hn', hne']

private theorem contains_expand (g : Grid) (id : String) :
    (g.expand id).expanded.contains id = true := by
  unfold expand
  split
  · assumption
  · simp

private theorem isExpanded_eq {n : Nat} {value : Json} {id : String}
    (hrow : (g.rows f)[n]? = some value) (hid : RowId.of? value = some id) (h : Grid)
    (hpath : h.path = g.path) :
    h.isExpanded f n = h.expanded.contains id := by
  have hrows : (h.rows f)[n]? = some value := by
    rw [rows, hpath]
    exact hrow
  rw [isExpanded, hrows, Option.bind_some, hid]
  rfl

private theorem toggleExpanded_flips {n : Nat} {value : Json} {id : String}
    (hrow : (g.rows f)[n]? = some value) (hid : RowId.of? value = some id) :
    (g.toggleExpanded f n).2.isExpanded f n = !g.isExpanded f n ↔
      ((g.refresh f).settings.expandable && rowAllows (g.collectionOptions f) n canEditRow) =
        true := by
  have hthere : (((g.refresh f).rows f)[n]?).bind RowId.of? = some id := by
    show ((g.rows f)[n]?).bind RowId.of? = some id
    rw [hrow, Option.bind_some, hid]
  have hoptions : (g.refresh f).collectionOptions f = g.collectionOptions f := rfl
  have hbefore : g.isExpanded f n = (g.refresh f).expanded.contains id :=
    isExpanded_eq hrow hid g rfl
  simp only [toggleExpanded, hthere, hoptions]
  cases (g.refresh f).settings.expandable && rowAllows (g.collectionOptions f) n canEditRow with
  | false =>
    have hsame : (g.refresh f).isExpanded f n = g.isExpanded f n := rfl
    simp [hsame]
  | true =>
    refine iff_of_true ?_ rfl
    cases hopen : (g.refresh f).expanded.contains id with
    | true =>
      have hclosed : ((g.refresh f).collapse id).expanded.contains id = false := by simp [collapse]
      rw [← isExpanded_eq hrow hid ((g.refresh f).collapse id) rfl] at hclosed
      simp only [if_true, hbefore, hopen]
      exact hclosed
    | false =>
      have hopened := contains_expand (g.refresh f) id
      rw [← isExpanded_eq hrow hid ((g.refresh f).expand id) (expand_frame _ id).1] at hopened
      simp only [if_true, hbefore, hopen, Bool.false_eq_true, if_false]
      exact hopened

section Rendered

variable {row other : GridRow} (hfeatures : g.features = FeatureRegistry.builtin.ordered)
  (hrow : row ∈ (g.refresh f).rendered f)

include hfeatures hrow

private theorem exists_decorated : ∃ value, (g.rows f)[row.position]? = some value ∧
    row.id = RowId.of? value ∧
    row.decoration.canDelete = ((g.refresh f).settings.deletable &&
      decide ((g.refresh f).settings.fixedRows ≤ row.position) &&
      rowAllows (g.collectionOptions f) row.position canDeleteRow) ∧
    row.decoration.draggable = ((g.refresh f).settings.reorderable &&
      decide ((g.refresh f).settings.fixedRows ≤ row.position)) ∧
    row.decoration.dropTarget = ((g.refresh f).settings.reorderable &&
      decide ((g.refresh f).settings.fixedRows ≤ row.position)) ∧
    row.decoration.canEdit = ((g.refresh f).settings.expandable &&
      rowAllows (g.collectionOptions f) row.position canEditRow) ∧
    row.decoration.expanded = ((g.refresh f).settings.expandable &&
      (RowId.of? value).any fun id => g.expanded.contains id) := by
  obtain ⟨value, hvalue, hid, -, hdecoration⟩ := exists_of_mem_rendered hrow
  have hfeatures' : (g.refresh f).features = FeatureRegistry.builtin.ordered := hfeatures
  refine ⟨value, hvalue, hid, ?_⟩
  rw [hdecoration]
  exact decoration_of_builtin hfeatures' _

private theorem canDelete_eq_succeeds :
    row.decoration.canDelete = ((g.refresh f).deleteRow f row.position).succeeded := by
  obtain ⟨value, hvalue, -, hcanDelete, -⟩ := exists_decorated hfeatures hrow
  obtain ⟨hn, -⟩ := List.getElem?_eq_some_iff.mp hvalue
  rw [hcanDelete]
  exact (deleteRow_succeeds (g := g.refresh f) hn).symm

private theorem draggable_dropTarget_eq_succeeds (hother : other ∈ (g.refresh f).rendered f)
    (hne : row.position ≠ other.position) :
    (row.decoration.draggable && other.decoration.dropTarget) =
      ((g.refresh f).moveRow f row.position other.position).succeeded := by
  obtain ⟨value, hvalue, -, -, hdraggable, -⟩ := exists_decorated hfeatures hrow
  obtain ⟨value', hvalue', -, -, -, hdropTarget, -⟩ := exists_decorated hfeatures hother
  obtain ⟨hm, -⟩ := List.getElem?_eq_some_iff.mp hvalue
  obtain ⟨hn, -⟩ := List.getElem?_eq_some_iff.mp hvalue'
  rw [hdraggable, hdropTarget, moveRow_succeeds (g := g.refresh f) hm hn hne, refresh_refresh]
  cases (g.refresh f).settings.reorderable <;> simp

private theorem canEdit_iff_flips {id : String} (hid : row.id = some id) :
    (row.decoration.canEdit = true ↔
      ((g.refresh f).toggleExpanded f row.position).2.isExpanded f row.position =
        !(g.refresh f).isExpanded f row.position) ∧
    ((g.refresh f).settings.expandable = true →
      row.decoration.expanded = (g.refresh f).isExpanded f row.position) := by
  obtain ⟨value, hvalue, hid', -, -, -, hcanEdit, hexpanded⟩ := exists_decorated hfeatures hrow
  rw [hid] at hid'
  constructor
  · rw [hcanEdit, toggleExpanded_flips (g := g.refresh f) hvalue hid'.symm]
    rfl
  · intro hexpandable
    have hopen : (g.refresh f).isExpanded f row.position = g.expanded.contains id :=
      isExpanded_eq (g := g) hvalue hid'.symm (g.refresh f) rfl
    rw [hexpanded, hexpandable, hopen, ← hid']
    rfl

end Rendered

/-! ### Cells -/

private theorem changeCell_succeeds (g : Grid) (f : Form) (n : Nat) (column : String)
    (value : Json) :
    let own := ((rowOptions (g.collectionOptions f) n).get? column).getD .null
    (g.changeCell f n column value).1 =
      (!own.isNull && (own.flagOr editable true && !own.flag readonly)) := by
  intro own
  simp only [changeCell]
  cases hnull : own.isNull <;> cases hreadonly : own.flag readonly <;>
    cases heditable : own.flagOr editable true <;> simp_all [own]

end Grid

theorem Grid.filterMap_columns_refresh (g : Grid) (f : Form) :
    (g.refresh f).columns.filterMap Column.fieldId? =
      g.collection.columns.filterMap Column.fieldId? := by
  have hbuttons : (g.features.filterMap fun e =>
      e.feature.button? (g.collectionOptions f)).filterMap Column.fieldId? = [] := by
    rw [List.filterMap_eq_nil_iff]
    exact fun c hc => GridFeature.fieldId?_of_mem_buttons hc
  rw [columns_refresh, List.filterMap_append, hbuttons, List.nil_append]

private theorem mem_declared_of_isInput {schema : Schema} {around : List FieldTraits} {f : Field}
    (hinput : f.isInput = true) {fields : List Field} (hf : f ∈ fields) :
    ⟨f, schema, around⟩ ∈ Diff.declared schema around fields := by
  induction fields with
  | nil => cases hf
  | cons first rest ih =>
    rw [Diff.declared]
    rcases List.mem_cons.mp hf with rfl | hf
    · cases f with
      | input t kind => exact List.mem_append_left _ (List.mem_singleton_self _)
      | _ => cases hinput
    · exact List.mem_append_right _ (ih hf)

private theorem CollectionField.exists_declared_of_column {c : CollectionField} {id : String}
    (hid : id ∈ c.columns.filterMap Column.fieldId?) :
    ∃ d ∈ (⟨c.fields, c.schema⟩ : Schema).declared, d.field.id? = some id := by
  have hinput {f : Field} (hf : f ∈ c.fields) {column : Column} (hcolumn : column? f = some column)
      (hfieldId : column.fieldId? = some id) :
      ∃ d ∈ (⟨c.fields, c.schema⟩ : Schema).declared, d.field.id? = some id := by
    unfold column? at hcolumn
    split at hcolumn
    · rename_i hisInput
      obtain ⟨name, hname, rfl⟩ := Option.map_eq_some_iff.mp hcolumn
      cases hfieldId
      exact ⟨_, mem_declared_of_isInput hisInput hf, hname⟩
    · cases hcolumn
  obtain ⟨column, hmem, hfieldId⟩ := List.mem_filterMap.mp hid
  unfold columns at hmem
  split at hmem
  · obtain ⟨wanted, -, hfound⟩ := List.mem_filterMap.mp hmem
    obtain ⟨f, hf, hcolumn⟩ := Option.bind_eq_some_iff.mp hfound
    exact hinput (List.mem_of_find?_eq_some hf) hcolumn hfieldId
  · obtain ⟨f, hf, hcolumn⟩ := List.mem_filterMap.mp hmem
    exact hinput hf hcolumn hfieldId

namespace OptionRegistry

variable {r : OptionRegistry} {s : Schema} {doc : Json} {view : View} {p : Path}

private theorem get?_rowOptions_tree {tree : Json} {members row : Dictionary Json} {n : Nat}
    {column : String} (hat : tree.valueAt? p = some (.object members))
    (hrow : tree.valueAt? (p.index n) = some (.object row)) :
    (Grid.rowOptions (tree.valueAtOrNull p) n).get? column =
      tree.valueAt? ((p.index n).key column) := by
  have hmember : get? members (Nat.repr n) = some (.object row) := by
    rw [Path.index, Json.valueAt?_child, hat, Option.bind_some, Json.child?_object] at hrow
    exact hrow
  rw [Json.valueAtOrNull, hat, Option.getD_some, Grid.rowOptions, Path.key, Json.valueAt?_child,
    hrow, Option.bind_some, Json.child?_object, Segment.text_key, Json.get?, hmember]
  rfl

private theorem exists_cellOptions (hunique : UniqueIds s) {c : CollectionField} {rows : List Json}
    (hfind : CollectionField.find? s.fields p.segments = some c)
    (hat : doc.at? p.steps = some (.array rows)) {n : Nat} (hn : n < rows.length) {column : String}
    (hcolumn : column ∈ c.columns.filterMap Column.fieldId?) :
    ∃ members, (Grid.rowOptions ((r.tree s doc view).valueAtOrNull p) n).get? column =
      some (.object members) := by
  obtain ⟨node, hnode, hkind, hfield, hrows⟩ :=
    (levelAt_root r s doc view).exists_nodeAt hfind hat
  have hnode : NodeAt r s doc view p node := hnode
  have hchild : node.field.rowSchema? = some ⟨c.fields, c.schema⟩ := by
    rw [hfield]
    rfl
  have hthere : node.rows[n]? = some rows[n] := by rw [hrows, List.getElem?_eq_getElem hn]
  have hrow := hnode.row hkind hchild hthere
  obtain ⟨d, hd, hid⟩ := CollectionField.exists_declared_of_column hcolumn
  have hcell := hrow.cell rfl hchild hd hid
  rw [get?_rowOptions_tree (hnode.valueAt? hunique) (hrow.valueAt? hunique)]
  exact ⟨_, hcell.valueAt? hunique⟩

private theorem exists_array_of_cellOptions (hflags : r.TruthValued) (hturns : p.TakesTurns)
    (hodd : p.segments.length % 2 = 1) {n : Nat} {column : String} {v : Json}
    (hfound : (Grid.rowOptions ((r.tree s doc view).valueAtOrNull p) n).get? column = some v) :
    ∃ items, doc.at? p.steps = some (.array items) := by
  have hp := Path.ne_root_of_odd hodd
  cases hvalue : (r.tree s doc view).valueAt? p with
  | none =>
    rw [Json.valueAtOrNull, hvalue] at hfound
    cases hfound
  | some above =>
    rw [Json.valueAtOrNull, hvalue, Option.getD_some] at hfound
    rcases exists_nodeAt_of_takesTurns hflags hturns hp hvalue with ⟨node, hnode, rfl⟩ | ⟨b, rfl⟩
    · rw [Grid.rowOptions, Json.get?] at hfound
      rcases hnode.get?_members (Nat.repr n) with ⟨turn, below, htext, hbelow, -, -⟩ | hoption
      · have hkind : below.kind = .row := by
          rw [← hbelow.even_length_iff, Path.length_child]
          omega
        have hturn : turn = .index n :=
          Segment.eq_of_text_eq htext (by rw [hbelow.isIndex_iff.mpr hkind]; rfl)
        have hat := hbelow.stands.1 hkind
        rw [hturn, Path.steps_child, Json.at?_append] at hat
        obtain ⟨held, hat, hitem⟩ := Option.bind_eq_some_iff.mp hat
        obtain ⟨row, hitem, -⟩ := Option.bind_eq_some_iff.mp hitem
        cases held with
        | array items => exact ⟨items, hat⟩
        | _ => cases hitem
      · rw [hoption] at hfound
        cases hoptions : get? (r.evaluate node) (Nat.repr n) with
        | none =>
          rw [hoptions] at hfound
          cases hfound
        | some w =>
          obtain ⟨b, rfl⟩ := hflags node _ w hoptions
          rw [hoptions] at hfound
          cases hfound
    · cases hfound

end OptionRegistry

private theorem Json.exists_object_of_same? {a : Option Json} {members : Dictionary Json}
    (h : same? a (some (.object members)) = true) : ∃ members', a = some (.object members') := by
  cases a with
  | none => cases h
  | some v =>
    cases v with
    | object members' => exact ⟨members', rfl⟩
    | _ => cases h

theorem Json.forall₂_rowsAt_of_same {a b : Json} {p : Path} {items : List Json}
    (h : a.same b = true) (hb : b.valueAt? p = some (.array items)) :
    List.Forall₂ (fun u v => u.same v = true) (a.rowsAt p) items := by
  have hvalues : same? (a.valueAt? p) (b.valueAt? p) = true := same?_valueAtSegments? h p.segments
  rw [hb] at hvalues
  unfold rowsAt
  cases ha : a.valueAt? p with
  | none =>
    rw [ha] at hvalues
    cases hvalues
  | some v =>
    rw [ha] at hvalues
    cases v with
    | array items' =>
      have hitems : sameItems items' items = true := by simpa [same?, same] using hvalues
      exact sameItems_iff.mp hitems
    | _ => cases hvalues

namespace Form

variable {schema : Schema} {view : View} {registry : OptionRegistry} {fixedData : Json}
  {ids : RowIds}

private theorem exists_cellOptions (hunique : UniqueIds schema) (ops : List FormOp) {p : Path}
    {c : CollectionField} {items : List Json} {n : Nat} {column : String}
    (hfind : CollectionField.find? schema.fields p.segments = some c)
    (hcolumn : column ∈ c.columns.filterMap Column.fieldId?) :
    let f := (start schema view registry fixedData ids).run ops
    f.ui.ready = true → f.session.doc.at? p.steps = some (.array items) →
      n < (f.data.state.rowsAt p).length →
        ∃ members, (Grid.rowOptions (f.options.state.valueAtOrNull p) n).get? column =
          some (.object members) := by
  intro f hready hat hn
  obtain ⟨hsound, -⟩ : f.Sound ∧ f.setting = ⟨schema, view, registry, fixedData⟩ :=
    sound_run schema view registry fixedData ids ops
  obtain ⟨hschema, hview, hregistry⟩ : f.schema = schema ∧ f.view = view ∧ f.registry = registry :=
    made_run schema view registry fixedData ids ops
  by_cases hreduced : f.session.changeId = 0
  · -- An empty document has nothing below it.
    have hempty : f.session.doc = .empty := session_of_unreduced ops hreduced
    have hodd := CollectionField.odd_length_of_find? hfind
    have hvalue := Json.valueAt?_of_at?_steps hat
    rw [hempty, Json.valueAt?_empty (Path.ne_root_of_odd hodd)] at hvalue
    cases hvalue
  · have hinStep := hsound.inStep hready hreduced
    have hlength :=
      (Json.forall₂_rowsAt_of_same hinStep.data (Json.valueAt?_of_at?_steps hat)).length_eq
    have hoptions : f.options.state.same (registry.tree schema f.session.doc view) = true := by
      have htree := hinStep.options
      rwa [hschema, hview, hregistry] at htree
    have hcell : ∃ members,
        (Grid.rowOptions ((registry.tree schema f.session.doc view).valueAtOrNull p) n).get?
          column = some (.object members) :=
      OptionRegistry.exists_cellOptions hunique hfind hat (hlength ▸ hn) hcolumn
    obtain ⟨members, hmembers⟩ := hcell
    have hrow := Json.same_getD_null
      (Json.same?_get? (Json.same_valueAtOrNull hoptions p) (Nat.repr n))
    exact Json.exists_object_of_same? (hmembers ▸ Json.same?_get? hrow column)

theorem exists_array_of_cellOptions (hflags : registry.TruthValued) (ops : List FormOp) {p : Path}
    {c : CollectionField} {n : Nat} {column : String} {v : Json}
    (hfind : CollectionField.find? schema.fields p.segments = some c) :
    let f := (start schema view registry fixedData ids).run ops
    (Grid.rowOptions (f.options.state.valueAtOrNull p) n).get? column = some v →
      ∃ items, f.session.doc.at? p.steps = some (.array items) := by
  intro f hfound
  have hturns := CollectionField.takesTurns_of_find? hfind
  have hodd := CollectionField.odd_length_of_find? hfind
  have hpublished : f.Published := published_run schema view registry fixedData ids ops
  obtain ⟨hschema, hview, hregistry⟩ : f.schema = schema ∧ f.view = view ∧ f.registry = registry :=
    made_run schema view registry fixedData ids ops
  rcases hpublished with hempty | htree
  · rw [hempty, Json.valueAtOrNull, Json.valueAt?_empty (Path.ne_root_of_odd hodd)] at hfound
    cases hfound
  · rw [hschema, hview, hregistry] at htree
    have hrow := Json.same_getD_null
      (Json.same?_get? (Json.same_valueAtOrNull htree p) (Nat.repr n))
    have hcell := Json.same?_get? hrow column
    cases hfound' : (Grid.rowOptions ((registry.tree schema f.session.doc view).valueAtOrNull p)
        n).get? column with
    | none =>
      have hnone : Json.same? (some v) none = true := hfound ▸ hfound' ▸ hcell
      cases hnone
    | some w => exact OptionRegistry.exists_array_of_cellOptions hflags hturns hodd hfound'

end Form

namespace Grid

/-- In every ready state a grid with the built-in features shows what it permits. -/
theorem shows_what_it_permits (schema : Schema) (view : View) (registry : OptionRegistry)
    (fixedData : Json) (ids : RowIds) (ops : List FormOp) (hunique : UniqueIds schema) (g : Grid)
    (hcollection : CollectionField.find? schema.fields g.path.segments = some g.collection)
    (hfeatures : g.features = FeatureRegistry.builtin.ordered) :
    let f := (Form.start schema view registry fixedData ids).run ops
    let shown := g.refresh f
    f.ui.ready = true →
    (∀ row ∈ shown.rendered f,
      row.decoration.canDelete = (shown.deleteRow f row.position).succeeded ∧
      (∀ other ∈ shown.rendered f, row.position ≠ other.position →
        (row.decoration.draggable && other.decoration.dropTarget) =
          (shown.moveRow f row.position other.position).succeeded) ∧
      (∀ id, row.id = some id →
        (row.decoration.canEdit = true ↔
          (shown.toggleExpanded f row.position).2.isExpanded f row.position =
            !shown.isExpanded f row.position) ∧
        (shown.settings.expandable = true →
          row.decoration.expanded = shown.isExpanded f row.position)) ∧
      ∀ cell ∈ row.cells, ∀ value,
        let written := (shown.changeCell f row.position cell.column value).1
        (written = true → cell.editable = true ∧ cell.readonly = false) ∧
        ((∃ items, f.session.doc.at? g.path.steps = some (.array items)) →
          (written = true ↔ cell.editable = true ∧ cell.readonly = false)) ∧
        (registry.TruthValued → written = true →
          ∃ items, f.session.doc.at? g.path.steps = some (.array items))) ∧
    ∀ call, ((shown.attempt f call).succeeded = false → (shown.attempt f call).form = f) ∧
      ((shown.attempt f call).succeeded = true → (∀ n, call ≠ .toggleExpanded n) →
        ∃ action, (shown.attempt f call).form = f.dispatch action ∧
          (f.dispatch action).session.changeId = f.session.changeId + 1) := by
  intro f shown hready
  refine ⟨fun row hrow => ⟨canDelete_eq_succeeds hfeatures hrow,
    fun other hother hne => draggable_dropTarget_eq_succeeds hfeatures hrow hother hne,
    fun id hid => canEdit_iff_flips hfeatures hrow hid, fun cell hcell value => ?_⟩,
    fun call => ?_⟩
  · obtain ⟨v, hv, -, hcells, -⟩ := exists_of_mem_rendered hrow
    obtain ⟨hn, -⟩ := List.getElem?_eq_some_iff.mp hv
    rw [hcells] at hcell
    obtain ⟨column, hcolumn, rfl⟩ := List.mem_map.mp hcell
    rw [filterMap_columns_refresh] at hcolumn
    intro written
    let own := ((rowOptions (g.collectionOptions f) row.position).get? column).getD .null
    have hwritten : written =
        (!own.isNull && (own.flagOr editable true && !own.flag readonly)) :=
      changeCell_succeeds shown f row.position column value
    show (written = true → own.flagOr editable true = true ∧ own.flag readonly = false) ∧
      (_ → (written = true ↔ own.flagOr editable true = true ∧ own.flag readonly = false)) ∧ _
    refine ⟨fun hallowed => ?_, fun harray => ?_, fun hflags hallowed => ?_⟩
    · simp_all
    · obtain ⟨items, hat⟩ := harray
      obtain ⟨members, hmembers⟩ :=
        Form.exists_cellOptions hunique ops hcollection hcolumn hready hat hn
      have hthere : own.isNull = false := by
        have hown : own = .object members := congrArg (fun o => o.getD .null) hmembers
        rw [hown]
        rfl
      simp [hwritten, hthere]
    · cases hfound : (rowOptions (g.collectionOptions f) row.position).get? column with
      | none => simp [hwritten, own, hfound, Json.isNull] at hallowed
      | some w => exact Form.exists_array_of_cellOptions hflags ops hcollection hfound
  · rcases attempt_cases shown f call with ⟨hform, hanswer⟩ | ⟨hsucceeded, action, -, hform⟩
    · refine ⟨fun _ => hform, fun hsucceeded hother => ?_⟩
      rcases hanswer with hrefused | ⟨n, rfl⟩
      · rw [hrefused] at hsucceeded
        cases hsucceeded
      · exact absurd rfl (hother n)
    · refine ⟨fun hrefused => ?_, fun _ _ => ⟨action, hform, ?_⟩⟩
      · rw [hsucceeded] at hrefused
        cases hrefused
      · obtain ⟨hsound, -⟩ := Form.sound_run schema view registry fixedData ids ops
        rw [Form.dispatch_released (hsound.ready_iff.mp hready), Form.apply_session,
          reduce_changeId]

private def partsGrid : Grid where
  path := OptionRegistry.partsPath
  collection :=
    { traits := { FieldTraits.plain with id := some "parts" }
      fields := [.input { FieldTraits.plain with id := some "code" } .text]
      schema := .plain
      rows := ⟨[], none, none⟩ }
  features := FeatureRegistry.builtin.entries
  columns := [.ofField "code" "code"]
  settings := .plain
  search := ""
  expanded := []

private def orderForm (doc : Json) : Form :=
  (Form.start OptionRegistry.orderSchema (.ofMode .edit) .builtin .empty ⟨0⟩).run
    [.initialise false (some (.ok doc))]

theorem shows_what_it_permits_order :
    let f := orderForm OptionRegistry.order
    let shown := partsGrid.refresh f
    UniqueIds OptionRegistry.orderSchema ∧
      CollectionField.find? OptionRegistry.orderSchema.fields partsGrid.path.segments =
        some partsGrid.collection ∧
      partsGrid.features = FeatureRegistry.builtin.ordered ∧ f.ui.ready = true ∧
      (shown.rendered f).length = 2 ∧
      ∀ row ∈ shown.rendered f, ∀ cell ∈ row.cells,
        ((shown.changeCell f row.position cell.column .null).1 = true ↔
          cell.editable = true ∧ cell.readonly = false) := by
  intro f shown
  have hunique := OptionRegistry.orderSchema_apart.1
  have hready : f.ui.ready = true := by decide +kernel
  obtain ⟨hrows, -⟩ := shows_what_it_permits OptionRegistry.orderSchema (.ofMode .edit) .builtin
    .empty ⟨0⟩ [.initialise false (some (.ok OptionRegistry.order))] hunique partsGrid rfl
    FeatureRegistry.builtin_ordered.symm hready
  have harray : ∃ items, f.session.doc.at? partsGrid.path.steps = some (.array items) := by
    have hitems : ((f.session.doc.at? partsGrid.path.steps).bind Json.items?).isSome = true := by
      decide +kernel
    obtain ⟨items, hitems⟩ := Option.isSome_iff_exists.mp hitems
    obtain ⟨v, hat, hv⟩ := Option.bind_eq_some_iff.mp hitems
    cases v with
    | array held => exact ⟨held, hat⟩
    | _ => cases hv
  refine ⟨hunique, rfl, FeatureRegistry.builtin_ordered.symm, hready, by decide +kernel, ?_⟩
  intro row hrow cell hcell
  obtain ⟨-, -, -, hcells⟩ := hrows row hrow
  exact (hcells cell hcell .null).2.1 harray

/-- Where the document has an object in place of the lines, the code of a part is shown as one that
can be written, and is not. -/
theorem cell_shown_editable_not_written :
    let lines : Json := .ofPairs [("0", .ofPairs [("parts", .array [.ofPairs
      [("code", .text "a")]])])]
    let f := orderForm (.ofPairs [("lines", lines)])
    let shown := partsGrid.refresh f
    UniqueIds OptionRegistry.orderSchema ∧
      CollectionField.find? OptionRegistry.orderSchema.fields partsGrid.path.segments =
        some partsGrid.collection ∧
      partsGrid.features = FeatureRegistry.builtin.ordered ∧ f.ui.ready = true ∧
      ∃ row ∈ shown.rendered f, ∃ cell ∈ row.cells,
        cell.editable = true ∧ cell.readonly = false ∧
          (shown.changeCell f row.position cell.column (.text "b")).1 = false := by
  intro lines f shown
  refine ⟨OptionRegistry.orderSchema_apart.1, rfl, FeatureRegistry.builtin_ordered.symm,
    by decide +kernel, ?_⟩
  decide +kernel

end Grid

end SchemaForm
