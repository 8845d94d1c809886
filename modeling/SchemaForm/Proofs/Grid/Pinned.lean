import SchemaForm.Proofs.Diff.Rows
import SchemaForm.Proofs.Form.RowIdentity
import SchemaForm.Proofs.Grid.Permitted
import SchemaForm.Proofs.Path.Writing

set_option autoImplicit false
set_option relaxedAutoImplicit false

/-!
The rows that a collection keeps. While a document is made, a collection that declares fixed rows
takes no others, and its first rows, as many as it declares, are neither deleted nor moved. How many
they are is made out before every act from the rows there are then, so what is followed through the
acts of a grid is any number of rows that is there and declared.
-/

namespace SchemaForm

open Dictionary
open Diff (UniqueIds)
open OptionName

/-! ### The first rows of a list -/

namespace RowId

/-- The first rows are there still, under the same identities. -/
structure KeepsFirst (k : Nat) (rows rows' : List Json) : Prop where
  enough : k ≤ rows'.length
  named : ∀ n < k, rows'[n]?.map of? = rows[n]?.map of?

section

variable {k n : Nat} {rows rows' rows'' : List Json}

private theorem KeepsFirst.refl (hk : k ≤ rows.length) :
    KeepsFirst k rows rows := ⟨hk, fun _ _ => rfl⟩

private theorem KeepsFirst.trans (h : KeepsFirst k rows rows') (h' : KeepsFirst k rows' rows'') :
    KeepsFirst k rows rows'' :=
  ⟨h'.enough, fun n hn => (h'.named n hn).trans (h.named n hn)⟩

private theorem KeepsFirst.of_map_eq (h : KeepsFirst k rows rows') {shown shown' : List Json}
    (hbefore : shown.map of? = rows.map of?) (hafter : shown'.map of? = rows'.map of?) :
    KeepsFirst k shown shown' := by
  have hlength : shown'.length = rows'.length := by
    simpa using congrArg List.length hafter
  refine ⟨hlength ▸ h.enough, fun n hn => ?_⟩
  rw [← List.getElem?_map, ← List.getElem?_map, hbefore, hafter, List.getElem?_map,
    List.getElem?_map]
  exact h.named n hn

private theorem keepsFirst_eraseIdx (hk : k ≤ n) (hn : n < rows.length) :
    KeepsFirst k rows (rows.eraseIdx n) := by
  constructor
  · rw [List.length_eraseIdx_of_lt hn]
    omega
  · intro m hm
    rw [List.getElem?_eraseIdx, if_pos (by omega)]

private theorem keepsFirst_move {m : Nat} (hm : k ≤ m) (hn : k ≤ n)
    (hmoved : Rows.move? rows m n = some rows') : KeepsFirst k rows rows' := by
  unfold Rows.move? at hmoved
  split at hmoved
  · rename_i hboth
    obtain ⟨row, -, rfl⟩ := Option.map_eq_some_iff.mp hmoved
    have hlength := List.length_eraseIdx_of_lt hboth.1
    constructor
    · rw [List.length_insertIdx]
      split <;> omega
    · intro i hi
      rw [List.getElem?_insertIdx, if_pos (by omega), List.getElem?_eraseIdx, if_pos (by omega)]
  · cases hmoved

private theorem keepsFirst_clearColumn {column : String} (hcolumn : column ≠ key)
    (hrows : k ≤ rows.length) : KeepsFirst k rows (rows.map (Rows.clearColumn column)) := by
  refine ⟨by rwa [List.length_map], fun n _ => ?_⟩
  rw [List.getElem?_map, Option.map_map]
  exact congrArg (fun f => rows[n]?.map f) (funext fun row => of?_clearColumn hcolumn)

private theorem keepsFirst_setItem {row' : Json} (hrows : k ≤ rows.length)
    (hname : ∀ row, rows[n]? = some row → of? row' = of? row) :
    KeepsFirst k rows (Json.setItem rows n row') := by
  unfold Json.setItem
  split
  · rename_i hn
    refine ⟨by rwa [List.length_set], fun m _ => ?_⟩
    by_cases hsame : m = n
    · subst hsame
      rw [List.getElem?_set_self hn, List.getElem?_eq_getElem hn, Option.map_some, Option.map_some,
        hname _ (List.getElem?_eq_getElem hn)]
    · rw [List.getElem?_set_ne (Ne.symm hsame)]
  · refine ⟨by simp only [List.length_append]; omega, fun m hm => ?_⟩
    rw [List.append_assoc, List.getElem?_append_left (by omega)]

end

private theorem of?_writtenCell {column : String} (hcolumn : column ≠ key) {rows : List Json}
    {n : Nat} {row : Json} (hrow : rows[n]? = some row) (value : Json) :
    of? ((((Json.array rows).container? (.index n)).getD (.object [])).putChild (.key column)
      value) = of? row := by
  have hfresh : of? (.object [(column, value)]) = none := by
    simp [of?, Json.get?, get?, hcolumn]
  simp only [Json.container?, hrow]
  cases row with
  | object members =>
    simp only [Option.getD_some, Json.putChild, Segment.text_key, of?, Json.get?, get?_insert,
      if_neg hcolumn]
  | array items =>
    simp only [Option.getD_some, Json.putChild, Segment.text_key]
    exact hfresh
  | _ =>
    simp only [Option.getD_none, Json.putChild, Segment.text_key]
    exact hfresh

end RowId

/-! ### The first rows of a document -/

/-- The collection at a path keeps its first rows, and the path goes on to write where it reads. -/
structure Pins (p : Path) (k : Nat) (doc doc' : Json) : Prop where
  rows : RowId.KeepsFirst k (doc.rowsAt p) (doc'.rowsAt p)
  writes : doc.WritesWhereRead p.segments → doc'.WritesWhereRead p.segments

namespace Pins

open RowId

variable {p : Path} {k n : Nat} {column : String} {doc doc' doc'' : Json} {ids : RowIds}
  {s : Session}

private theorem refl (hk : k ≤ (doc.rowsAt p).length) : Pins p k doc doc := ⟨.refl hk, id⟩

private theorem trans (h : Pins p k doc doc') (h' : Pins p k doc' doc'') : Pins p k doc doc'' :=
  ⟨h.rows.trans h'.rows, fun hwrites => h'.writes (h.writes hwrites)⟩

private theorem setAt {rows : List Json} (hrows : KeepsFirst k (doc.rowsAt p) rows) :
    Pins p k doc (doc.setAt p (.array rows)) := by
  refine ⟨?_, fun _ => Json.writesWhereRead_setAt doc p _⟩
  rw [Json.rowsAt_setAt]
  exact hrows

private theorem deleteRow (hk : k ≤ n) (hn : n < (s.doc.rowsAt p).length) :
    Pins p k s.doc (reduce .empty ids s (.deleteRow p n)).session.doc :=
  .setAt (keepsFirst_eraseIdx hk hn)

private theorem moveRow {m : Nat} (hm : k ≤ m) (hn : k ≤ n) (hk : k ≤ (s.doc.rowsAt p).length) :
    Pins p k s.doc (reduce .empty ids s (.moveRow p m n)).session.doc := by
  simp only [reduce]
  split
  · rename_i rows hmoved
    exact .setAt (keepsFirst_move hm hn hmoved)
  · exact .refl hk

section Held

variable {rows : List Json} (hheld : s.doc.valueAt? p = some (.array rows))

include hheld

private theorem exists_bulkUpdate (ids : RowIds) (column : String) : ∃ doc',
    (reduce .empty ids s (.bulkUpdate p column)).session.doc = doc' ∧
      doc'.valueAt? p = some (.array (rows.map (Rows.clearColumn column))) ∧
      (doc'.WritesWhereRead p.segments ↔ s.doc.WritesWhereRead p.segments) := by
  obtain ⟨doc', hmodified, hread, hwrites⟩ :=
    Json.exists_modifyAtSegments? hheld (Rows.clearColumns column)
  refine ⟨doc', ?_, hread, hwrites⟩
  have hdoc : s.doc.modifyAt? p (Rows.clearColumns column) = some doc' := hmodified
  simp only [reduce, hdoc, Option.getD_some]

private theorem bulkUpdate (hcolumn : column ≠ key) (hk : k ≤ rows.length) :
    Pins p k s.doc (reduce .empty ids s (.bulkUpdate p column)).session.doc := by
  obtain ⟨doc', hdoc, hread, hwrites⟩ := exists_bulkUpdate hheld ids column
  rw [hdoc]
  refine ⟨?_, hwrites.mpr⟩
  rw [Action.rowsAt_of_held hheld, Action.rowsAt_of_held hread]
  exact keepsFirst_clearColumn hcolumn hk

private theorem setCell (hwrites : s.doc.WritesWhereRead p.segments) (hcolumn : column ≠ key)
    (hk : k ≤ rows.length) (value : Json) : Pins p k s.doc
      (reduce .empty ids s (.setValue ((p.index n).key column) value)).session.doc := by
  show Pins p k s.doc (s.doc.setAt ((p.index n).key column) value)
  rw [Path.cell_eq]
  constructor
  · rw [Action.rowsAt_of_held hheld,
      Action.rowsAt_of_held (Json.valueAt?_setAt_below hwrites hheld value [.index n, .key column])]
    exact keepsFirst_setItem hk fun row hrow => of?_writtenCell hcolumn hrow value
  · exact fun _ => Json.writesWhereRead_setAtSegments value s.doc p.segments _

/-- Where a write does not go on from what is read, it takes the place of all rows. -/
theorem rowsAt_setCell_of_not (hwrites : ¬ s.doc.WritesWhereRead p.segments) (value : Json) :
    (reduce .empty ids s (.setValue ((p.index n).key column) value)).session.doc.rowsAt p =
      List.replicate n .null ++ [.object [(column, value)]] := by
  show (s.doc.setAt ((p.index n).key column) value).rowsAt p = _
  have hread := Json.valueAtSegments?_setAtSegments_of_not hwrites hheld value
    [.index n, .key column]
  rw [Json.setAtSegments_emptyFor_cons] at hread
  simp only [Json.setAtSegments_emptyFor_cons] at hread
  rw [Path.cell_eq]
  exact Action.rowsAt_of_held hread

end Held

end Pins

/-! ### Rows are not added -/

namespace OptionRegistry

variable {s : Schema} {doc : Json} {view : View} {p : Path}

private theorem flag_canAddRow_of_fixedRows (hunique : UniqueIds s) {c : CollectionField}
    (hfind : CollectionField.find? s.fields p.segments = some c)
    (hfixed : c.rows.fixedRows.isSome = true) :
    ((builtin.tree s doc view).valueAtOrNull p).flag canAddRow = false := by
  have hodd := CollectionField.odd_length_of_find? hfind
  have hturns : p.TakesTurns := CollectionField.takesTurns_of_find? hfind
  rw [← Bool.not_eq_true]
  intro hflag
  -- The document has the level of the collection, so its own field has a node there, too.
  obtain ⟨q, id, level, rfl, hlevel⟩ :=
    exists_level_of_flag truthValued_builtin hturns hodd hflag
  have hfront : (q.key id).segments.dropLast = q.segments := List.dropLast_concat
  have hat : doc.at? ((q.key id).segments.dropLast.map Segment.step) = some level := by
    rw [hfront]
    exact hlevel
  obtain ⟨own, hown, hkind, hfield, -⟩ :=
    (levelAt_root builtin s doc view).exists_nodeAt_of_level hfind hat
  have hown : NodeAt builtin s doc view (q.key id) own := hown
  have hshut : own.field.fixedRows?.isSome = true := by
    rw [hfield]
    exact hfixed
  have hoption : (builtin.tree s doc view).option? (q.key id) canAddRow =
      get? (builtin.evaluate own) canAddRow := by
    refine hown.option? hunique (fun hrow => ?_) (by decide)
    rw [hkind] at hrow
    cases hrow
  rw [(get?_canAdd_of_shut hkind (.inr hshut)).2] at hoption
  obtain ⟨v, hvalue, hget⟩ := Option.bind_eq_some_iff.mp hoption
  rw [Json.valueAtOrNull, hvalue, Option.getD_some, Json.flag, hget] at hflag
  cases hflag

end OptionRegistry

/-! ### Forms without recomputations -/

namespace Form

/-- The form is ready, in the course of a run. -/
structure ReadyIn (schema : Schema) (view : View) (registry : OptionRegistry) (fixedData : Json)
    (ids : RowIds) (f : Form) : Prop where
  ready : f.ui.ready = true
  reached : ∃ ops, f = (start schema view registry fixedData ids).run ops

section ReadyIn

variable {schema : Schema} {view : View} {registry : OptionRegistry} {fixedData : Json}
  {ids : RowIds} {f : Form} (h : f.ReadyIn schema view registry fixedData ids)

include h

private theorem ReadyIn.sound : f.Sound := by
  obtain ⟨ops, rfl⟩ := h.reached
  exact (sound_run schema view registry fixedData ids ops).1

private theorem ReadyIn.made : f.schema = schema ∧ f.view = view ∧ f.registry = registry := by
  obtain ⟨ops, rfl⟩ := h.reached
  exact made_run schema view registry fixedData ids ops

private theorem ReadyIn.published : f.Published := by
  obtain ⟨ops, rfl⟩ := h.reached
  exact published_run schema view registry fixedData ids ops

theorem ReadyIn.dispatch (action : Action) :
    (f.dispatch action).ReadyIn schema view registry fixedData ids := by
  constructor
  · rw [dispatch_released (h.sound.ready_iff.mp h.ready), apply_ready]
    exact h.ready
  · obtain ⟨ops, rfl⟩ := h.reached
    exact ⟨ops ++ [.dispatch action], by rw [run_append]; rfl⟩

private theorem ReadyIn.graph (hstatic : Field.areStatic schema.fields = true) :
    f.graph = .empty := by
  obtain ⟨ops, rfl⟩ := h.reached
  have hreaches := reaches_run (start schema view registry fixedData ids) ops
  have hunwired : (start schema view registry fixedData ids).Unwired := ⟨rfl, rfl⟩
  have hwiring := hunwired.reaches hreaches
  split at hwiring
  · rw [hwiring.graph, Schema.graph_of_areStatic]
    rw [hreaches.schema_eq]
    exact hstatic
  · exact hwiring.graph

theorem ReadyIn.dispatch_session (hstatic : Field.areStatic schema.fields = true)
    (action : Action) :
    (f.dispatch action).session = (reduce .empty f.ids f.session action).session := by
  rw [dispatch_released (h.sound.ready_iff.mp h.ready), apply_session, h.graph hstatic]

theorem ReadyIn.dispatch_ids (hstatic : Field.areStatic schema.fields = true) (action : Action) :
    (f.dispatch action).ids = (reduce .empty f.ids f.session action).ids := by
  rw [dispatch_released (h.sound.ready_iff.mp h.ready), apply_ids, h.graph hstatic]

theorem ReadyIn.flag_of_published {p : Path} (hp : p ≠ .root) {name : String}
    (hflag : (f.options.state.valueAtOrNull p).flag name = true) :
    ((registry.tree schema f.session.doc view).valueAtOrNull p).flag name = true := by
  obtain ⟨hschema, hview, hregistry⟩ := h.made
  rcases h.published with hempty | htree
  · rw [Json.valueAtOrNull, hempty, Json.valueAt?_empty hp] at hflag
    cases hflag
  · rw [hschema, hview, hregistry] at htree
    rw [← hflag]
    exact (Json.flag_eq_of_same (Json.same_valueAtOrNull htree p) name).symm

theorem ReadyIn.flag_eq (hreduced : f.session.changeId ≠ 0) (p : Path) (name : String) :
    (f.options.state.valueAtOrNull p).flag name =
      ((registry.tree schema f.session.doc view).valueAtOrNull p).flag name := by
  obtain ⟨hschema, hview, hregistry⟩ := h.made
  have htree := (h.sound.inStep h.ready hreduced).options
  rw [hschema, hview, hregistry] at htree
  exact Json.flag_eq_of_same (Json.same_valueAtOrNull htree p) name

theorem ReadyIn.forall₂_rows {p : Path} (hrows : 0 < (f.session.doc.rowsAt p).length) :
    List.Forall₂ (fun u v => u.same v = true) (f.data.state.rowsAt p) (f.session.doc.rowsAt p) := by
  have hreduced : f.session.changeId ≠ 0 := by
    intro hunreduced
    obtain ⟨ops, rfl⟩ := h.reached
    rw [session_of_unreduced ops hunreduced, Json.rowsAt_empty] at hrows
    exact Nat.lt_irrefl 0 hrows
  exact Json.forall₂_rowsAt_of_same (h.sound.inStep h.ready hreduced).data
    (Json.valueAt?_of_rowsAt_pos hrows)

end ReadyIn

end Form

/-! ### Acts of a grid -/

/-- What is done through a grid: a call, or a column is made exclusive to a row. -/
inductive GridAct where
  | call (call : GridCall)
  | exclusive (position : Nat) (column : String)

namespace Grid

def act (g : Grid) (f : Form) : GridAct → Grid × Form
  | .call call => ((g.attempt f call).grid, (g.attempt f call).form)
  | .exclusive position column => (g, g.setExclusive f position column)

/-- The act does not write identities, and a column is only made exclusive to a row that is
there. -/
def Spares (g : Grid) (f : Form) : GridAct → Prop
  | .call (.changeCell _ column _) => column ≠ RowId.key
  | .call _ => True
  | .exclusive position column => position < (g.rows f).length ∧ column ≠ RowId.key

/-- The acts lead from one state of a grid and a form to another. -/
inductive Leads : Grid → Form → List GridAct → Grid → Form → Prop where
  | stay (g : Grid) (f : Form) : Leads g f [] g f
  | act {g h : Grid} {f f' : Form} {act : GridAct} {acts : List GridAct} (hspares : g.Spares f act)
      (hlater : Leads (g.act f act).1 (g.act f act).2 acts h f') : Leads g f (act :: acts) h f'

/-- A grid with the built-in features, on a collection of the schema that declares fixed rows. -/
structure Fixes (g : Grid) (schema : Schema) (fixed : List Json) : Prop where
  collection : CollectionField.find? schema.fields g.path.segments = some g.collection
  features : g.features = FeatureRegistry.builtin.ordered
  fixedRows : g.collection.rows.fixedRows = some fixed

section Acts

variable {schema : Schema} {view : View} {fixedData : Json} {ids : RowIds} {fixed : List Json}
  {g : Grid} {f : Form} {k : Nat}

private theorem act_frame (g : Grid) (f : Form) (a : GridAct) : (g.act f a).1.path = g.path ∧
    (g.act f a).1.collection = g.collection ∧ (g.act f a).1.features = g.features := by
  cases a with
  | call call => exact attempt_grid g f call
  | exclusive n column => exact ⟨rfl, rfl, rfl⟩

private theorem Fixes.act (h : g.Fixes schema fixed) (f : Form) (a : GridAct) :
    (g.act f a).1.Fixes schema fixed := by
  obtain ⟨hpath, hcollection, hfeatures⟩ := act_frame g f a
  constructor
  · rw [hpath, hcollection]
    exact h.collection
  · exact hfeatures.trans h.features
  · rw [hcollection]
    exact h.fixedRows

variable (hf : f.ReadyIn schema view .builtin fixedData ids)

include hf

private theorem readyIn_act (g : Grid) (a : GridAct) :
    (g.act f a).2.ReadyIn schema view .builtin fixedData ids := by
  cases a with
  | call call =>
    show (g.attempt f call).form.ReadyIn schema view .builtin fixedData ids
    rcases attempt_cases g f call with ⟨hform, -⟩ | ⟨-, action, -, hform⟩
    · rw [hform]
      exact hf
    · rw [hform]
      exact hf.dispatch action
  | exclusive n column => exact (hf.dispatch _).dispatch _

private theorem collectionOptions_canAddRow (hg : g.Fixes schema fixed)
    (hunique : UniqueIds schema) :
    (g.collectionOptions f).flag canAddRow = false := by
  have hp := Path.ne_root_of_odd (CollectionField.odd_length_of_find? hg.collection)
  have hshut : ((OptionRegistry.builtin.tree schema f.session.doc view).valueAtOrNull
      g.path).flag canAddRow = false :=
    OptionRegistry.flag_canAddRow_of_fixedRows hunique hg.collection (by rw [hg.fixedRows]; rfl)
  rw [← Bool.not_eq_true]
  intro hflag
  rw [hf.flag_of_published hp hflag] at hshut
  cases hshut

variable (hrows : k ≤ (f.session.doc.rowsAt g.path).length) (hpos : 0 < k)

include hrows hpos

private theorem length_rows : (g.rows f).length = (f.session.doc.rowsAt g.path).length :=
  (hf.forall₂_rows (Nat.lt_of_lt_of_le hpos hrows)).length_eq

private theorem le_fixedRows (hmode : view.mode = .create) (hg : g.Fixes schema fixed)
    (hfixed : k ≤ fixed.length) : k ≤ (g.refresh f).settings.fixedRows := by
  have hview : f.view.mode = .create := by rw [hf.made.2.1, hmode]
  have hlength := length_rows hf hrows hpos
  rw [settings_refresh hg.features]
  simp only [pinned, hg.fixedRows, hview]
  omega

variable (hstatic : Field.areStatic schema.fields = true)

include hstatic

private theorem pins_setExclusive {n : Nat} {column : String} (hcolumn : column ≠ RowId.key)
    (hwrites : f.session.doc.WritesWhereRead g.path.segments) :
    Pins g.path k f.session.doc (g.setExclusive f n column).session.doc := by
  have hheld := Json.valueAt?_of_rowsAt_pos (Nat.lt_of_lt_of_le hpos hrows)
  have hcleared : Pins g.path k f.session.doc
      (f.dispatch (.bulkUpdate g.path column)).session.doc := by
    rw [hf.dispatch_session hstatic]
    exact .bulkUpdate hheld hcolumn hrows
  have hrows' := hcleared.rows.enough
  have hheld' := Json.valueAt?_of_rowsAt_pos (Nat.lt_of_lt_of_le hpos hrows')
  refine hcleared.trans ?_
  rw [setExclusive, (hf.dispatch _).dispatch_session hstatic]
  exact .setCell hheld' (hcleared.writes hwrites) hcolumn hrows' (.bool true)

variable (hmode : view.mode = .create) (hg : g.Fixes schema fixed) (hfixed : k ≤ fixed.length)

include hmode hg hfixed

private theorem pins_dispatch {call : GridCall} {action : Action} (h : g.Dispatches f call action)
    (hspares : g.Spares f (.call call)) (hunique : call = .addRow → UniqueIds schema) :
    Pins g.path k f.session.doc (f.dispatch action).session.doc := by
  have hle := le_fixedRows hf hrows hpos hmode hg hfixed
  have hlength := length_rows hf hrows hpos
  rw [hf.dispatch_session hstatic]
  cases h with
  | addRow hflag =>
    rw [collectionOptions_canAddRow hf hg (hunique rfl)] at hflag
    cases hflag
  | deleteRow hn hpinned => exact .deleteRow (Nat.le_trans hle hpinned) (hlength ▸ hn)
  | moveRow hm hn hpinned hpinned' =>
    exact .moveRow (Nat.le_trans hle hpinned) (Nat.le_trans hle hpinned') hrows
  | @changeCell n column value own hown hthere =>
    -- Only the cells of an array at the named place have options.
    obtain ⟨ops, rfl⟩ := hf.reached
    obtain ⟨items, hat⟩ := Form.exists_array_of_cellOptions OptionRegistry.truthValued_builtin ops
      hg.collection hown
    have hheld := Json.valueAt?_of_at?_steps hat
    rw [Action.rowsAt_of_held hheld] at hrows
    exact .setCell hheld (Json.writesWhereRead_of_at?_steps hat) hspares hrows value

private theorem pins_act {a : GridAct} (hspares : g.Spares f a)
    (hunique : a = .call .addRow → UniqueIds schema)
    (hwrites : (∃ n column, a = .exclusive n column) →
      f.session.doc.WritesWhereRead g.path.segments) :
    Pins g.path k f.session.doc (g.act f a).2.session.doc := by
  cases a with
  | call call =>
    show Pins g.path k f.session.doc (g.attempt f call).form.session.doc
    rcases attempt_cases g f call with ⟨hform, -⟩ | ⟨-, action, hdispatches, hform⟩
    · rw [hform]
      exact .refl hrows
    · rw [hform]
      exact pins_dispatch hf hrows hpos hstatic hmode hg hfixed hdispatches hspares
        fun hcall => hunique (congrArg GridAct.call hcall)
  | exclusive n column =>
    exact pins_setExclusive hf hrows hpos hstatic hspares.2 (hwrites ⟨n, column, rfl⟩)

end Acts

private theorem Leads.pins {schema : Schema} {view : View} {fixedData : Json} {ids : RowIds}
    {fixed : List Json} {g h : Grid} {f f' : Form} {k : Nat} {acts : List GridAct}
    (hleads : g.Leads f acts h f') (hstatic : Field.areStatic schema.fields = true)
    (hmode : view.mode = .create) (hf : f.ReadyIn schema view .builtin fixedData ids)
    (hg : g.Fixes schema fixed) (hfixed : k ≤ fixed.length)
    (hrows : k ≤ (f.session.doc.rowsAt g.path).length) (hpos : 0 < k)
    (hunique : .call .addRow ∈ acts → UniqueIds schema)
    (hwrites : (∃ n column, .exclusive n column ∈ acts) →
      f.session.doc.WritesWhereRead g.path.segments) :
    f'.ReadyIn schema view .builtin fixedData ids ∧ h.path = g.path ∧
      Pins g.path k f.session.doc f'.session.doc := by
  induction hleads with
  | stay g f => exact ⟨hf, rfl, .refl hrows⟩
  | @act g h f f' a acts hspares hlater ih =>
    have hpath := (act_frame g f a).1
    have hfirst : Pins g.path k f.session.doc (g.act f a).2.session.doc := by
      refine pins_act hf hrows hpos hstatic hmode hg hfixed hspares ?_ ?_
      · rintro rfl
        exact hunique List.mem_cons_self
      · rintro ⟨n, column, rfl⟩
        exact hwrites ⟨n, column, List.mem_cons_self⟩
    obtain ⟨hf', hpath', hpins⟩ := ih (readyIn_act hf g a) (hg.act f a)
      (by rw [hpath]; exact hfirst.rows.enough)
      (fun hadd => hunique (List.mem_cons_of_mem a hadd))
      (fun ⟨n, column, hexclusive⟩ => by
        rw [hpath]
        exact hfirst.writes (hwrites ⟨n, column, List.mem_cons_of_mem a hexclusive⟩))
    rw [hpath] at hpath' hpins
    exact ⟨hf', hpath', hfirst.trans hpins⟩

/-- Without recomputations and in the create mode, a collection keeps its first rows, as many as it
declares, under their identities, through all acts of a grid with the built-in features: in the
document and as the grid shows it. Adding a row is refused as long as no two fields of a level have
one id. Making a column exclusive asks for a path that writes where it reads; on any other path it
puts nulls and a bare row in the place of all rows. -/
theorem pinned_rows_stay (schema : Schema) (view : View) (fixedData : Json) (ids : RowIds)
    (ops : List FormOp) (hstatic : Field.areStatic schema.fields = true)
    (hmode : view.mode = .create) (g : Grid)
    (hcollection : CollectionField.find? schema.fields g.path.segments = some g.collection)
    (hfeatures : g.features = FeatureRegistry.builtin.ordered) (fixed : List Json)
    (hfixed : g.collection.rows.fixedRows = some fixed) :
    let f := (Form.start schema view .builtin fixedData ids).run ops
    let rows := f.session.doc.rowsAt g.path
    let kept := min fixed.length rows.length
    f.ui.ready = true →
    (∀ acts h f', g.Leads f acts h f' →
      (.call .addRow ∈ acts → UniqueIds schema) →
      ((∃ n column, .exclusive n column ∈ acts) →
        f.session.doc.WritesWhereRead g.path.segments) →
      RowId.KeepsFirst kept rows (f'.session.doc.rowsAt g.path) ∧
        RowId.KeepsFirst kept (g.rows f) (h.rows f')) ∧
    ∀ n column, n < rows.length → ¬ f.session.doc.WritesWhereRead g.path.segments →
      (g.setExclusive f n column).session.doc.rowsAt g.path =
        List.replicate n .null ++ [.object [(column, .bool true)]] := by
  intro f rows kept hready
  have hf : f.ReadyIn schema view .builtin fixedData ids := ⟨hready, ops, rfl⟩
  refine ⟨fun acts h f' hleads hunique hwrites => ?_, fun n column hn hwrites => ?_⟩
  · by_cases hpos : 0 < kept
    · obtain ⟨hf', hpath, hpins⟩ := hleads.pins hstatic hmode hf
        ⟨hcollection, hfeatures, hfixed⟩ (Nat.min_le_left _ _) (Nat.min_le_right _ _) hpos hunique
        hwrites
      have hshown := hf.forall₂_rows (Nat.lt_of_lt_of_le hpos (Nat.min_le_right _ _))
      have hshown' := hf'.forall₂_rows (Nat.lt_of_lt_of_le hpos hpins.rows.enough)
      refine ⟨hpins.rows, hpins.rows.of_map_eq (RowDiff.map_of?_eq_of_same hshown) ?_⟩
      rw [Grid.rows, hpath]
      exact RowDiff.map_of?_eq_of_same hshown'
    · have hnone : kept = 0 := Nat.eq_zero_of_not_pos hpos
      rw [hnone]
      exact ⟨⟨Nat.zero_le _, fun n hn => by omega⟩, ⟨Nat.zero_le _, fun n hn => by omega⟩⟩
  · have hheld := Json.valueAt?_of_rowsAt_pos (Nat.zero_lt_of_lt hn)
    obtain ⟨doc', hdoc, hread, hsame⟩ := Pins.exists_bulkUpdate hheld f.ids column
    have hcleared : (f.dispatch (.bulkUpdate g.path column)).session.doc = doc' := by
      rw [hf.dispatch_session hstatic, hdoc]
    rw [← hcleared] at hread hsame
    rw [setExclusive, (hf.dispatch _).dispatch_session hstatic]
    exact Pins.rowsAt_setCell_of_not hread (fun hgoes => hwrites (hsame.mp hgoes)) (.bool true)

private def keptRow (name : String) : Json := .ofPairs [("name", .text name)]

private def keptCollection (id : String) : CollectionField where
  traits := { FieldTraits.plain with id := some id }
  fields := [.input { FieldTraits.plain with id := some "name" } .text,
    .input { FieldTraits.plain with id := some "main" } .switch]
  schema := .plain
  rows := ⟨[], some [keptRow "a", keptRow "b"], none⟩

private def keptSchema (id : String) : Schema := ⟨[(keptCollection id).field], .plain⟩

private def keptGrid (id : String) : Grid where
  path := Path.root.key id
  collection := keptCollection id
  features := FeatureRegistry.builtin.entries
  columns := (keptCollection id).columns
  settings := .plain
  search := ""
  expanded := []

private def namedRow (id name : String) : Json :=
  .ofPairs [(RowId.key, .text id), ("name", .text name)]

private def madeOf (doc : Json) : List FormOp :=
  [.initialise false none, .dispatch (.setValue .root doc)]

private theorem uniqueIds_keptSchema (id : String) : UniqueIds (keptSchema id) := by
  have hrows : UniqueIds ⟨(keptCollection id).fields, .plain⟩ := by
    refine ⟨(by decide : ["name", "main"].Nodup), fun d hd child hchild => ?_⟩
    rcases List.mem_cons.mp hd with rfl | hd
    · cases hchild
    · rw [List.mem_singleton.mp hd] at hchild
      cases hchild
  refine ⟨List.nodup_singleton id, fun d hd child hchild => ?_⟩
  rw [List.mem_singleton.mp hd] at hchild
  cases hchild
  exact hrows

/-- The second row is made the main one, and then another row is asked for in vain. -/
theorem pinned_rows_stay_lines :
    let ops := madeOf (.ofPairs [("lines", .array [namedRow "c1" "a", namedRow "c2" "b",
      namedRow "c3" "c"])])
    let f := (Form.start (keptSchema "lines") (.ofMode .create) .builtin .empty ⟨0⟩).run ops
    let g := keptGrid "lines"
    let main := g.act f (.exclusive 1 "main")
    let last := main.1.act main.2 (.call .addRow)
    Field.areStatic (keptSchema "lines").fields = true ∧ UniqueIds (keptSchema "lines") ∧
      f.ui.ready = true ∧ f.session.doc.WritesWhereRead g.path.segments ∧
      RowId.KeepsFirst 2 (f.session.doc.rowsAt g.path) (last.2.session.doc.rowsAt g.path) := by
  intro ops f g main last
  have hready : f.ui.ready = true := by decide +kernel
  have hwrites : f.session.doc.WritesWhereRead g.path.segments :=
    ⟨.inr (by decide +kernel), by split <;> trivial⟩
  have hleads : g.Leads f [.exclusive 1 "main", .call .addRow] last.1 last.2 :=
    .act ⟨by decide +kernel, by decide⟩ (.act trivial (.stay _ _))
  obtain ⟨hkept, -⟩ := pinned_rows_stay (keptSchema "lines") (.ofMode .create) .empty ⟨0⟩ ops
    (by decide) rfl g rfl FeatureRegistry.builtin_ordered.symm [keptRow "a", keptRow "b"] rfl hready
  have hcount : min [keptRow "a", keptRow "b"].length (f.session.doc.rowsAt g.path).length = 2 := by
    decide +kernel
  obtain ⟨hrows, -⟩ := hkept _ _ _ hleads (fun _ => uniqueIds_keptSchema "lines") fun _ => hwrites
  exact ⟨by decide, uniqueIds_keptSchema "lines", hready, hwrites, hcount ▸ hrows⟩

/-- A numeral is read as a position where the document has an array around the collection. There
making a column exclusive loses the rows that are to stay. -/
theorem fixed_rows_lost_under_numeral :
    let f := (Form.start (keptSchema "0") (.ofMode .create) .builtin .empty ⟨0⟩).run
      (madeOf (.array [.array [namedRow "c1" "a", namedRow "c2" "b"]]))
    let g := keptGrid "0"
    UniqueIds (keptSchema "0") ∧ Field.areStatic (keptSchema "0").fields = true ∧
      CollectionField.find? (keptSchema "0").fields g.path.segments = some g.collection ∧
      g.features = FeatureRegistry.builtin.ordered ∧ f.ui.ready = true ∧
      g.Spares f (.exclusive 1 "main") ∧
      (g.rows f).map RowId.of? = [some "c1", some "c2"] ∧
      (g.rows (g.act f (.exclusive 1 "main")).2).map RowId.of? = [none, none] := by
  intro f g
  exact ⟨uniqueIds_keptSchema "0", by decide, rfl, FeatureRegistry.builtin_ordered.symm,
    by decide +kernel, ⟨by decide +kernel, by decide⟩, by decide +kernel, by decide +kernel⟩

end Grid

end SchemaForm
