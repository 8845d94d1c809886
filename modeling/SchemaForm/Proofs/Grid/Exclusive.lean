import SchemaForm.Proofs.Grid.Pinned
import SchemaForm.Proofs.Path.Lens

set_option autoImplicit false
set_option relaxedAutoImplicit false

/-!
Making a column exclusive to a row. The column is cleared in all rows by a change in place, and then
the cell of the row is written. The change finds the rows where reading finds them; the write goes
on from there just if the path enters arrays by indices, and otherwise takes the place of all rows.
-/

namespace SchemaForm

open Dictionary

namespace Rows

/-- The rows of a table that are objects, as before but for a column, which is true in one row and
false in all others. -/
structure Exclusive (n : Nat) (column : String) (rows rows' : List Json) : Prop where
  length_eq : rows'.length = rows.length
  row : ∀ (m : Nat) (members : Dictionary Json), rows[m]? = some (.object members) →
    ∃ members', rows'[m]? = some (.object members') ∧
      get? members' column = some (.bool (decide (m = n))) ∧
      ∀ key, key ≠ column → get? members' key = get? members key

/-- The rows with a cleared column and one cell of it written. -/
def markExclusive (n : Nat) (column : String) (rows : List Json) : List Json :=
  let cleared := rows.map (clearColumn column)
  Json.setItem cleared n
    ((((Json.array cleared).container? (.index n)).getD (.object [])).putChild (.key column)
      (.bool true))

variable {n : Nat} {column : String} {rows : List Json}

private theorem getElem?_clearColumn {m : Nat} {members : Dictionary Json} (column : String)
    (hrow : rows[m]? = some (.object members)) :
    (rows.map (clearColumn column))[m]? = some (.object (insert members column (.bool false))) := by
  rw [List.getElem?_map, hrow]
  rfl

private theorem exclusive_markExclusive (hn : n < rows.length) :
    Exclusive n column rows (markExclusive n column rows) := by
  have hcleared : n < (rows.map (clearColumn column)).length := by rwa [List.length_map]
  constructor
  · rw [markExclusive, Json.setItem, if_pos hcleared, List.length_set, List.length_map]
  · intro m members hrow
    have hthere := getElem?_clearColumn column hrow
    -- Only the row that is written has the column set a second time.
    by_cases hm : m = n
    · subst hm
      refine ⟨insert (insert members column (.bool false)) column (.bool true), ?_, ?_, ?_⟩
      · simp only [markExclusive, Json.setItem, if_pos hcleared, List.getElem?_set_self hcleared,
          Json.container?, hthere, Option.getD_some, Json.putChild, Segment.text_key]
      · rw [get?_insert, if_pos rfl, decide_eq_true rfl]
      · intro key hkey
        rw [get?_insert, if_neg (Ne.symm hkey), get?_insert, if_neg (Ne.symm hkey)]
    · refine ⟨insert members column (.bool false), ?_, ?_, ?_⟩
      · rw [markExclusive, Json.setItem, if_pos hcleared, List.getElem?_set_ne (Ne.symm hm), hthere]
      · rw [get?_insert, if_pos rfl, decide_eq_false hm]
      · intro key hkey
        rw [get?_insert, if_neg (Ne.symm hkey)]

end Rows

namespace Json

variable {doc doc' old : Json} {p : Path} {n : Nat} {column : String} {rows : List Json}

/-- A column has been made exclusive to a row of the array at a path, and the document is the same
but for this array. -/
structure MadeExclusive (doc : Json) (p : Path) (n : Nat) (column : String) (doc' : Json) :
    Prop where
  exclusive : Rows.Exclusive n column (doc.rowsAt p) (doc'.rowsAt p)
  replaced : doc' = replaceAt (.array (doc'.rowsAt p)) doc (doc.readPlace p.segments)

private theorem replaceAt_readPlace (hheld : doc.valueAt? p = some old) (new : Json) :
    let doc' := replaceAt new doc (doc.readPlace p.segments)
    doc'.valueAt? p = some new ∧
      (doc'.WritesWhereRead p.segments ↔ doc.WritesWhereRead p.segments) := by
  have hleads : doc.valueAtSegments? p.segments = some old := hheld
  obtain ⟨doc', hmodified, hread, hwrites⟩ := exists_modifyAtSegments? hleads fun _ => new
  rw [modifyAtSegments?_eq_map, hleads] at hmodified
  cases hmodified
  exact ⟨hread, hwrites⟩

/-- The document with a column cleared in the rows at a path and one cell of it written. -/
def withExclusive (doc : Json) (p : Path) (n : Nat) (column : String) : Json :=
  ((doc.modifyAt? p (Rows.clearColumns column)).getD doc).setAt ((p.index n).key column)
    (.bool true)

private theorem writesWhereRead_withExclusive (doc : Json) (p : Path) (n : Nat) (column : String) :
    (doc.withExclusive p n column).WritesWhereRead p.segments := by
  rw [withExclusive, Path.cell_eq]
  exact writesWhereRead_setAtSegments _ _ _ _

variable (hheld : doc.valueAt? p = some (.array rows))

include hheld

private theorem modifyAt?_clearColumns : doc.modifyAt? p (Rows.clearColumns column) =
    some (replaceAt (.array (rows.map (Rows.clearColumn column))) doc
      (doc.readPlace p.segments)) := by
  have hleads : doc.valueAtSegments? p.segments = some (.array rows) := hheld
  rw [modifyAt?, modifyAtSegments?_eq_map, hleads]
  rfl

private theorem withExclusive_eq (hwrites : doc.WritesWhereRead p.segments) (n : Nat)
    (column : String) :
    doc.withExclusive p n column =
      replaceAt (.array (Rows.markExclusive n column rows)) doc (doc.readPlace p.segments) := by
  have hleads : doc.valueAtSegments? p.segments = some (.array rows) := hheld
  have hplace : doc.at? (doc.readPlace p.segments) = some (.array rows) := by
    rw [at?_readPlace, hleads]
  obtain ⟨hread, hwritten⟩ :=
    replaceAt_readPlace hheld (.array (rows.map (Rows.clearColumn column)))
  rw [withExclusive, modifyAt?_clearColumns hheld, Option.getD_some, Path.cell_eq, setAt,
    setAtSegments_append_eq (hwritten.mpr hwrites) hread (.inl ⟨_, rfl⟩),
    readPlace_replaceAt hleads, replaceAt_replaceAt hplace]
  rfl

private theorem rowsAt_withExclusive_of_not (hwrites : ¬ doc.WritesWhereRead p.segments) :
    (doc.withExclusive p n column).rowsAt p =
      List.replicate n .null ++ [.object [(column, .bool true)]] := by
  obtain ⟨hread, hwritten⟩ :=
    replaceAt_readPlace hheld (.array (rows.map (Rows.clearColumn column)))
  rw [withExclusive, modifyAt?_clearColumns hheld, Option.getD_some]
  let s : Session := ⟨replaceAt (.array (rows.map (Rows.clearColumn column))) doc
    (doc.readPlace p.segments), 0⟩
  show (reduce .empty ⟨0⟩ s (.setValue ((p.index n).key column)
    (.bool true))).session.doc.rowsAt p = _
  exact Pins.rowsAt_setCell_of_not (s := s) hread (fun hgoes => hwrites (hwritten.mp hgoes))
    (.bool true)

private theorem madeExclusive_withExclusive_iff (hn : n < rows.length) :
    doc.MadeExclusive p n column (doc.withExclusive p n column) ↔
      doc.WritesWhereRead p.segments := by
  constructor
  · intro hmade
    have hwritten := writesWhereRead_withExclusive doc p n column
    obtain ⟨-, hreplaced⟩ := hmade
    generalize (doc.withExclusive p n column).rowsAt p = rows' at hreplaced
    rw [hreplaced] at hwritten
    exact (replaceAt_readPlace hheld _).2.mp hwritten
  · intro hwrites
    have hafter := withExclusive_eq hheld hwrites n column
    have hrows : (doc.withExclusive p n column).rowsAt p = Rows.markExclusive n column rows := by
      rw [hafter]
      exact Action.rowsAt_of_held (replaceAt_readPlace hheld _).1
    refine ⟨?_, ?_⟩
    · rw [hrows, Action.rowsAt_of_held hheld]
      exact Rows.exclusive_markExclusive hn
    · rw [hrows, hafter]

end Json

namespace Grid

private theorem session_setExclusive {schema : Schema} {view : View} {registry : OptionRegistry}
    {fixedData : Json} {ids : RowIds} {f : Form}
    (h : f.ReadyIn schema view registry fixedData ids)
    (hstatic : Field.areStatic schema.fields = true) (g : Grid) (n : Nat) (column : String) :
    (g.setExclusive f n column).session.doc = f.session.doc.withExclusive g.path n column ∧
      (g.setExclusive f n column).session.changeId = f.session.changeId + 2 := by
  have hcleared := h.dispatch_session hstatic (.bulkUpdate g.path column)
  rw [setExclusive, (h.dispatch _).dispatch_session hstatic, hcleared]
  constructor
  · rfl
  · rw [reduce_changeId, reduce_changeId]

/-- A column becomes exclusive to a row of a table, with all else as before, exactly if the path of
the table writes where it reads. A path without keys that are numerals always does. On any other
path nulls and a bare row take the place of all rows. -/
theorem exclusive_column_iff (schema : Schema) (view : View) (registry : OptionRegistry)
    (fixedData : Json) (ids : RowIds) (ops : List FormOp)
    (hstatic : Field.areStatic schema.fields = true) (g : Grid) (rows : List Json) (n : Nat)
    (column : String) :
    let f := (Form.start schema view registry fixedData ids).run ops
    let doc := f.session.doc
    let after := g.setExclusive f n column
    f.ui.ready = true → doc.valueAt? g.path = some (.array rows) → n < rows.length →
    after.session.changeId = f.session.changeId + 2 ∧
      (doc.MadeExclusive g.path n column after.session.doc ↔
        doc.WritesWhereRead g.path.segments) ∧
      (Segment.AllRead g.path.segments → doc.WritesWhereRead g.path.segments) ∧
      (¬ doc.WritesWhereRead g.path.segments → after.session.doc.rowsAt g.path =
        List.replicate n .null ++ [.object [(column, .bool true)]]) ∧
      List.Forall₂ (fun u v => u.same v = true) (g.rows after)
        (after.session.doc.rowsAt g.path) := by
  intro f doc after hready hheld hn
  have hf : f.ReadyIn schema view registry fixedData ids := ⟨hready, ops, rfl⟩
  have hafter : after.ReadyIn schema view registry fixedData ids := (hf.dispatch _).dispatch _
  obtain ⟨hdoc, hchangeId⟩ := session_setExclusive hf hstatic g n column
  have hmade : doc.MadeExclusive g.path n column after.session.doc ↔
      doc.WritesWhereRead g.path.segments := by
    rw [hdoc]
    exact Json.madeExclusive_withExclusive_iff hheld hn
  have hlost (hwrites : ¬ doc.WritesWhereRead g.path.segments) :
      after.session.doc.rowsAt g.path =
        List.replicate n .null ++ [.object [(column, .bool true)]] := by
    rw [hdoc]
    exact Json.rowsAt_withExclusive_of_not hheld hwrites
  refine ⟨hchangeId, hmade, fun hread => Json.writesWhereRead_of_allRead hread hheld, hlost, ?_⟩
  refine hafter.forall₂_rows ?_
  -- There are rows in either case.
  by_cases hwrites : doc.WritesWhereRead g.path.segments
  · rw [(hmade.mpr hwrites).exclusive.length_eq, Action.rowsAt_of_held hheld]
    exact Nat.zero_lt_of_lt hn
  · simp [hlost hwrites]

theorem exclusive_column_iff_parts :
    let f := (Form.start OptionRegistry.orderSchema (.ofMode .edit) .builtin .empty ⟨0⟩).run
      [.initialise false (some (.ok OptionRegistry.order))]
    ∃ g, Grid.ofPath OptionRegistry.orderSchema OptionRegistry.partsPath .builtin = .ok g ∧
      Field.areStatic OptionRegistry.orderSchema.fields = true ∧ f.ui.ready = true ∧
      (f.session.doc.rowsAt g.path).length = 2 ∧
      f.session.doc.MadeExclusive g.path 1 "main" (g.setExclusive f 1 "main").session.doc := by
  intro f
  obtain ⟨g, hg, hpath⟩ : ∃ g, Grid.ofPath OptionRegistry.orderSchema OptionRegistry.partsPath
      .builtin = .ok g ∧ g.path = OptionRegistry.partsPath := ⟨_, rfl, rfl⟩
  have hready : f.ui.ready = true := by decide +kernel
  have hcount : (f.session.doc.rowsAt g.path).length = 2 := by
    rw [hpath]
    decide +kernel
  have hheld := Json.valueAt?_of_rowsAt_pos (hcount ▸ Nat.zero_lt_two)
  obtain ⟨-, hmade, hread, -⟩ := exclusive_column_iff OptionRegistry.orderSchema (.ofMode .edit)
    .builtin .empty ⟨0⟩ [.initialise false (some (.ok OptionRegistry.order))] (by decide) g _ 1
    "main" hready hheld (hcount ▸ Nat.one_lt_two)
  refine ⟨g, hg, by decide, hready, hcount, hmade.mpr (hread fun name hname => ?_)⟩
  have hkeys : name = "lines" ∨ name = "parts" := by
    simpa [hpath, OptionRegistry.partsPath, Path.root, Path.key, Path.index, Path.child] using hname
  rcases hkeys with rfl | rfl <;> decide

private def personsField (id : String) : Field :=
  .collection { FieldTraits.plain with id := some id }
    [.input { FieldTraits.plain with id := some "name" } .text,
      .input { FieldTraits.plain with id := some "main" } .switch] .plain ⟨[], none, none⟩

/-- Where the document has an array around a collection whose id is a numeral, the rows are lost. -/
theorem column_not_exclusive_under_numeral :
    let schema : Schema := ⟨[personsField "0"], .plain⟩
    let person (name : String) : Json := .ofPairs [("name", .text name)]
    let f := (Form.start schema (.ofMode .create) .builtin .empty ⟨0⟩).run
      [.initialise false none,
        .dispatch (.setValue .root (.array [.array [person "a", person "b"]]))]
    ∃ g, Grid.ofPath schema (Path.root.key "0") .builtin = .ok g ∧
      Field.areStatic schema.fields = true ∧ f.ui.ready = true ∧
      f.session.doc.valueAt? g.path = some (.array [person "a", person "b"]) ∧
      (g.setExclusive f 1 "main").session.doc.rowsAt g.path =
        [.null, .ofPairs [("main", .bool true)]] ∧
      ¬ Rows.Exclusive 1 "main" (f.session.doc.rowsAt g.path)
        ((g.setExclusive f 1 "main").session.doc.rowsAt g.path) := by
  intro schema person f
  obtain ⟨g, hg, hpath⟩ : ∃ g, Grid.ofPath schema (Path.root.key "0") .builtin = .ok g ∧
      g.path = Path.root.key "0" := ⟨_, rfl, rfl⟩
  have hheld : f.session.doc.valueAt? g.path = some (.array [person "a", person "b"]) := by
    rw [hpath]
    decide +kernel
  have hlost : (g.setExclusive f 1 "main").session.doc.rowsAt g.path =
      [.null, .ofPairs [("main", .bool true)]] := by
    simp only [setExclusive, setCell, hpath]
    decide +kernel
  refine ⟨g, hg, by decide, by decide +kernel, hheld, hlost, fun hexclusive => ?_⟩
  rw [hlost, Action.rowsAt_of_held hheld] at hexclusive
  obtain ⟨members, hrow, -⟩ := hexclusive.row 0 _ rfl
  cases hrow

end Grid

end SchemaForm
