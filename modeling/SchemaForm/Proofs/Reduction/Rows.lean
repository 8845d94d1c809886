import Mathlib.Data.List.InsertIdx
import SchemaForm.Proofs.Dependency.Frame
import SchemaForm.Proofs.RowId.Naming

set_option autoImplicit false
set_option relaxedAutoImplicit false

/-!
What actions on rows do to a document. They put another list of rows in the place of the one that
their path addresses: one in which a row was moved, added or taken out, or in which a column was
cleared. No other row is touched, and nothing outside the array. A move that names a missing row
changes nothing, and neither does clearing a column where there is no array; a deletion writes the
rows back even if it has none to delete.
-/

namespace SchemaForm

open Dictionary (get?)

/-! ### Lists of rows -/

namespace Rows

section Moving

variable {rows rows' : List Json} {i j : Nat}

private theorem move?_of_lt (hi : i < rows.length) (hj : j < rows.length) :
    move? rows i j = some ((rows.eraseIdx i).insertIdx j rows[i]) := by
  rw [move?, if_pos ⟨hi, hj⟩, List.getElem?_eq_getElem hi, Option.map_some]

private theorem move?_eq_none (hmissing : ¬ (i < rows.length ∧ j < rows.length)) :
    move? rows i j = none := if_neg hmissing

private theorem length_of_move? (hmoved : move? rows i j = some rows') :
    rows'.length = rows.length := by
  unfold move? at hmoved
  split at hmoved
  · rename_i hboth
    obtain ⟨row, -, rfl⟩ := Option.map_eq_some_iff.mp hmoved
    have herased := List.length_eraseIdx_of_lt hboth.1
    rw [List.length_insertIdx, if_pos (by omega)]
    omega
  · cases hmoved

private theorem getElem?_of_move? (hi : i < rows.length) (hj : j < rows.length)
    (hmoved : move? rows i j = some rows') : rows'[j]? = rows[i]? := by
  rw [move?_of_lt hi hj] at hmoved
  cases hmoved
  have herased := List.length_eraseIdx_of_lt hi
  rw [List.getElem?_insertIdx_self, if_pos (by omega), List.getElem?_eq_getElem hi]

private theorem eraseIdx_of_move? (hi : i < rows.length) (hj : j < rows.length)
    (hmoved : move? rows i j = some rows') : rows'.eraseIdx j = rows.eraseIdx i := by
  rw [move?_of_lt hi hj] at hmoved
  cases hmoved
  exact List.eraseIdx_insertIdx_self _

private theorem move?_of_move? (hi : i < rows.length) (hj : j < rows.length)
    (hmoved : move? rows i j = some rows') : move? rows' j i = some rows := by
  have hlength := length_of_move? hmoved
  have hj' : j < rows'.length := hlength ▸ hj
  have hrow : rows'[j] = rows[i] := by
    have hthere := getElem?_of_move? hi hj hmoved
    rwa [List.getElem?_eq_getElem hj', List.getElem?_eq_getElem hi, Option.some.injEq] at hthere
  rw [move?_of_lt hj' (hlength ▸ hi), hrow, eraseIdx_of_move? hi hj hmoved,
    List.insertIdx_eraseIdx_getElem hi]

end Moving

private theorem eraseIdx_add (rows : List Json) (row : Json) (onTop : Bool) :
    (add rows row onTop).eraseIdx (if onTop then 0 else rows.length) = rows := by
  cases onTop with
  | true => rfl
  | false => simp [add, List.eraseIdx_append_of_length_le]

/-- A value, and the same one with a column cleared: if it is an object the column is false and all
else as before, any other value is the same. -/
inductive Cleared (column : String) : Json → Json → Prop where
  | object {members members' : Dictionary Json}
      (hcolumn : get? members' column = some (.bool false))
      (hothers : ∀ key, key ≠ column → get? members' key = get? members key) :
      Cleared column (.object members) (.object members')
  | other {v : Json} (hother : v.members? = none) : Cleared column v v

private theorem cleared_clearColumn (column : String) (row : Json) :
    Cleared column row (clearColumn column row) := by
  cases row with
  | object members =>
    refine .object ?_ fun key hkey => ?_
    · rw [Dictionary.get?_insert, if_pos rfl]
    · rw [Dictionary.get?_insert, if_neg (Ne.symm hkey)]
  | _ => exact .other rfl

end Rows

/-! ### One array of a document -/

namespace Json

/-- The path leads to an array that has a row at the position. -/
def HasRow (doc : Json) (p : Path) (n : Nat) : Prop :=
  ∃ rows, doc.valueAt? p = some (.array rows) ∧ n < rows.length

/-- The rows at a path are others, and nothing else has changed: what is read apart from the path is
as before, and with the old rows put back the document is the old one. -/
structure RowsReplaced (doc : Json) (p : Path) (rows' : List Json) (doc' : Json) : Prop where
  held : doc'.valueAt? p = some (.array rows')
  beside : ∀ q : Path, q.IsCanonical → q.Apart p → doc'.valueAt? q = doc.valueAt? q
  restored : doc'.setAt p (.array (doc.rowsAt p)) = doc

variable {doc : Json} {p : Path}

private theorem hasRow_iff {n : Nat} : doc.HasRow p n ↔ n < (doc.rowsAt p).length := by
  constructor
  · rintro ⟨rows, hheld, hn⟩
    rwa [rowsAt, hheld]
  · intro hn
    exact ⟨_, valueAt?_of_rowsAt_pos (Nat.zero_lt_of_lt hn), hn⟩

private theorem rowsReplaced_setAt (hp : p.IsCanonical) {rows : List Json}
    (hheld : doc.valueAt? p = some (.array rows)) (rows' : List Json) :
    doc.RowsReplaced p rows' (doc.setAt p (.array rows')) where
  held := Path.valueAt?_setAt hp.allRead hheld _
  beside _ hq hapart := Path.valueAt?_setAt_apart hp hq hheld hapart _
  restored := by
    rw [Action.rowsAt_of_held hheld, Path.setAt_setAt hp hheld, Path.setAt_self hp hheld]

private theorem RowsReplaced.undone {rows rows' : List Json} {doc' : Json}
    (h : doc.RowsReplaced p rows' doc') (hheld : doc.valueAt? p = some (.array rows)) :
    doc'.setAt p (.array rows) = doc := by
  rw [← Action.rowsAt_of_held hheld, h.restored]

end Json

namespace DependencyGraph

/-- A change at the path sets off no listener. -/
def SilentAt (g : DependencyGraph) (p : Path) : Prop :=
  ∀ l ∈ g.listeners, l.listensTo p = false

variable {g : DependencyGraph} {p : Path}

private theorem SilentAt.settle (h : g.SilentAt p) (ctx : ActionContext) (doc : Json) :
    g.settle p ctx doc = doc := by
  have hnone : g.concerned p = [] := by
    refine List.filter_eq_nil_iff.mpr fun l hl => ?_
    simp [h l hl]
  rw [DependencyGraph.settle, hnone]
  rfl

end DependencyGraph

namespace Action

open Json Rows

variable {g : DependencyGraph} {ids : RowIds} {s : Session}

private theorem reduce_deleteRow_doc {p : Path} (hsilent : g.SilentAt p) (n : Nat) :
    (reduce g ids s (.deleteRow p n)).session.doc =
      s.doc.setAt p (.array ((s.doc.rowsAt p).eraseIdx n)) :=
  hsilent.settle _ _

private theorem reduce_moveRow_doc {p : Path} {i j : Nat} {rows : List Json}
    (hmoved : move? (s.doc.rowsAt p) i j = some rows) :
    (reduce g ids s (.moveRow p i j)).session.doc = s.doc.setAt p (.array rows) := by
  simp only [reduce, hmoved]

private theorem reduce_moveRow_of_missing {p : Path} {i j : Nat}
    (hmissing : ¬ (i < (s.doc.rowsAt p).length ∧ j < (s.doc.rowsAt p).length)) :
    (reduce g ids s (.moveRow p i j)).session.doc = s.doc := by
  simp only [reduce, move?_eq_none hmissing]

section Held

variable {p : Path} {rows : List Json} (hp : p.IsCanonical)
  (hheld : s.doc.valueAt? p = some (.array rows))

include hp hheld

private theorem rowsReplaced_deleteRow (hsilent : g.SilentAt p) (n : Nat) :
    s.doc.RowsReplaced p (rows.eraseIdx n) (reduce g ids s (.deleteRow p n)).session.doc := by
  rw [reduce_deleteRow_doc hsilent, rowsAt_of_held hheld]
  exact rowsReplaced_setAt hp hheld _

private theorem rowsReplaced_moveRow {i j : Nat} {rows' : List Json}
    (hmoved : move? rows i j = some rows') :
    s.doc.RowsReplaced p rows' (reduce g ids s (.moveRow p i j)).session.doc := by
  rw [← rowsAt_of_held hheld] at hmoved
  rw [reduce_moveRow_doc hmoved]
  exact rowsReplaced_setAt hp hheld _

private theorem rowsReplaced_addRow (hsilent : g.SilentAt p) (row : Json) (onTop : Bool) :
    s.doc.RowsReplaced p (add rows (stamped ids row).1 onTop)
      (reduce g ids s (.addRow p row onTop)).session.doc := by
  have hdoc : (reduce g ids s (.addRow p row onTop)).session.doc =
      s.doc.setAt p (.array (add (s.doc.rowsAt p) (stamped ids row).1 onTop)) :=
    hsilent.settle _ _
  rw [hdoc, rowsAt_of_held hheld]
  exact rowsReplaced_setAt hp hheld _

private theorem rowsReplaced_bulkUpdate (column : String) :
    s.doc.RowsReplaced p (rows.map (clearColumn column))
      (reduce g ids s (.bulkUpdate p column)).session.doc := by
  have hdoc : (reduce g ids s (.bulkUpdate p column)).session.doc =
      s.doc.setAt p (clearColumns column (.array rows)) := by
    rw [Path.setAt_eq_replaceAt hp.allRead hheld]
    simp only [reduce, Path.modifyAt?_eq_replaceAt hp.allRead hheld, Option.getD_some]
  rw [hdoc]
  exact rowsReplaced_setAt hp hheld _

private theorem moveRow_moveRow {i j : Nat} {rows' : List Json} (hi : i < rows.length)
    (hj : j < rows.length) (hmoved : move? rows i j = some rows') {g' : DependencyGraph}
    {ids' : RowIds} : (reduce g' ids' (reduce g ids s (.moveRow p i j)).session
      (.moveRow p j i)).session.doc = s.doc := by
  have hreplaced : s.doc.RowsReplaced p rows' (reduce g ids s (.moveRow p i j)).session.doc :=
    rowsReplaced_moveRow hp hheld hmoved
  have hback : move? ((reduce g ids s (.moveRow p i j)).session.doc.rowsAt p) j i =
      some rows := by rw [rowsAt_of_held hreplaced.held, move?_of_move? hi hj hmoved]
  rw [reduce_moveRow_doc hback, hreplaced.undone hheld]

private theorem deleteRow_addRow (hsilent : g.SilentAt p) (row : Json) (onTop : Bool)
    {ids' : RowIds} :
    (reduce g ids' (reduce g ids s (.addRow p row onTop)).session
      (.deleteRow p (if onTop then 0 else rows.length))).session.doc = s.doc := by
  have hreplaced : s.doc.RowsReplaced p (add rows (stamped ids row).1 onTop)
      (reduce g ids s (.addRow p row onTop)).session.doc :=
    rowsReplaced_addRow hp hheld hsilent row onTop
  rw [reduce_deleteRow_doc hsilent, rowsAt_of_held hreplaced.held, eraseIdx_add,
    hreplaced.undone hheld]

end Held

/-- Actions on the rows that a path read from its flat form leads to lose none and double none, if
no listener is set off. A row that is moved stands at its target, the others keep their order, and
the move back undoes it; a move from or to a position that is not there changes nothing. One row is
added, on top or at the end, which is the given object but for new identities of it and the rows
below it, and deleting it restores the document. Deleting takes out the row at the position.
Clearing a column sets it to false in the rows that are objects, and does nothing else. Never is
anything changed but the array. -/
theorem rows_neither_lost_nor_doubled {flat : String} {rows : List Json}
    (hheld : s.doc.valueAt? (.parse flat) = some (.array rows))
    (hsilent : g.SilentAt (.parse flat)) :
    let p := Path.parse flat
    let after (action : Action) : Reduction := reduce g ids s action
    let next (r : Reduction) (action : Action) : Reduction := reduce g r.ids r.session action
    (∀ i j, i < rows.length → j < rows.length → ∃ rows', let moved := after (.moveRow p i j)
      s.doc.RowsReplaced p rows' moved.session.doc ∧
      rows'.length = rows.length ∧ rows'[j]? = rows[i]? ∧ rows'.eraseIdx j = rows.eraseIdx i ∧
      (next moved (.moveRow p j i)).session.doc = s.doc) ∧
    (∀ i j, ¬ (i < rows.length ∧ j < rows.length) →
      (after (.moveRow p i j)).session.doc = s.doc) ∧
    (∀ members onTop, ∃ row' names, let added := after (.addRow p (.object members) onTop)
      s.doc.RowsReplaced p (if onTop then row' :: rows else rows ++ [row']) added.session.doc ∧
      RowId.NamesItems names [.object members] [row'] ∧ names.Nodup ∧
      (∀ name ∈ names, ∃ n, ids.last < n ∧ n ≤ added.ids.last ∧ name = RowId.named true n) ∧
      (next added (.deleteRow p (if onTop then 0 else rows.length))).session.doc = s.doc) ∧
    (∀ i, i < rows.length → s.doc.RowsReplaced p (rows.take i ++ rows.drop (i + 1))
      (after (.deleteRow p i)).session.doc) ∧
    ∀ column, ∃ rows', s.doc.RowsReplaced p rows' (after (.bulkUpdate p column)).session.doc ∧
      List.Forall₂ (Cleared column) rows rows' := by
  intro p after next
  have hp : p.IsCanonical := Path.isCanonical_parse flat
  refine ⟨fun i j hi hj => ?_, fun i j hmissing => ?_, fun members onTop => ?_, fun i _ => ?_,
    fun column => ?_⟩
  · have hmoved := move?_of_lt hi hj
    exact ⟨_, rowsReplaced_moveRow hp hheld hmoved, length_of_move? hmoved,
      getElem?_of_move? hi hj hmoved, eraseIdx_of_move? hi hj hmoved,
      moveRow_moveRow hp hheld hi hj hmoved⟩
  · exact reduce_moveRow_of_missing (by rwa [rowsAt_of_held hheld])
  · exact ⟨_, _, rowsReplaced_addRow hp hheld hsilent (.object members) onTop,
      RowId.namesItems_stamped ids members, RowId.nodup_drawn _ _ _,
      fun name => RowId.mem_drawn, deleteRow_addRow hp hheld hsilent (.object members) onTop⟩
  · have hdeleted : s.doc.RowsReplaced p (rows.eraseIdx i) (after (.deleteRow p i)).session.doc :=
      rowsReplaced_deleteRow hp hheld hsilent i
    rwa [List.eraseIdx_eq_take_drop_succ] at hdeleted
  · refine ⟨_, rowsReplaced_bulkUpdate hp hheld column, ?_⟩
    rw [List.forall₂_map_right_iff, List.forall₂_same]
    exact fun row _ => cleared_clearColumn column row

/-- A line is moved, another one with a part is added, a third one deleted and a column cleared, all
in an order with a listener on its title. -/
theorem rows_neither_lost_nor_doubled_order :
    let line (item : String) := Json.ofPairs [("item", .text item), ("main", .bool true)]
    let rows := [line "a", line "b", line "c"]
    let g : DependencyGraph := ⟨[⟨.parse "title", .parse "note", none, none⟩]⟩
    let s : Session := ⟨.ofPairs [("lines", .array rows), ("title", .text "t")], 4⟩
    let p := Path.parse "lines"
    let members : Dictionary Json := [("parts", .array [.empty])]
    let after (action : Action) : Json := (reduce g ⟨7⟩ s action).session.doc
    s.doc.valueAt? p = some (.array rows) ∧ g.SilentAt p ∧
      (∃ rows', s.doc.RowsReplaced p rows' (after (.moveRow p 0 2)) ∧ rows'[2]? = some (line "a") ∧
        rows'.eraseIdx 2 = [line "b", line "c"]) ∧
      after (.moveRow p 0 3) = s.doc ∧
      (∃ row' names,
        s.doc.RowsReplaced p (rows ++ [row']) (after (.addRow p (.object members) false)) ∧
        RowId.NamesItems names [.object members] [row'] ∧ names.Nodup ∧
        ∀ name ∈ names, ∃ n, 7 < n ∧ n ≤ 9 ∧ name = RowId.named true n) ∧
      s.doc.RowsReplaced p [line "a", line "c"] (after (.deleteRow p 1)) ∧
      ∃ rows', s.doc.RowsReplaced p rows' (after (.bulkUpdate p "main")) ∧
        List.Forall₂ (Cleared "main") rows rows' := by
  intro line rows g s p members after
  have hheld : s.doc.valueAt? p = some (.array rows) := by decide +kernel
  have hsilent : g.SilentAt p := by
    intro l hl
    cases List.mem_singleton.mp hl
    decide +kernel
  obtain ⟨hmove, hmissing, hadd, hdelete, hclear⟩ :=
    @rows_neither_lost_nor_doubled g ⟨7⟩ s _ _ hheld hsilent
  obtain ⟨rows', hmoved, -, hthere, hothers, -⟩ := hmove 0 2 (by decide) (by decide)
  obtain ⟨row', names, hadded, hnames, hnodup, hnew, -⟩ := hadd members false
  have hlast : (reduce g ⟨7⟩ s (.addRow p (.object members) false)).ids.last = 9 := by
    decide +kernel
  refine ⟨hheld, hsilent, ⟨rows', hmoved, hthere, hothers⟩, hmissing 0 3 (by decide),
    ⟨row', names, hadded, hnames, hnodup, fun name hname => ?_⟩, hdelete 1 (by decide),
    hclear "main"⟩
  obtain ⟨n, habove, hbelow, hname⟩ := hnew name hname
  exact ⟨n, habove, hlast ▸ hbelow, hname⟩

/-! ### Rows that are not there -/

/-- Where a path leads to no row at a position, moving a row from or to it leaves the document as it
is, and where the path leads to no array clearing a column does. A deletion writes back what rows
there are. So it leaves the document as it is exactly if there is an array, and the path writes
where it reads, as every path does that was read from its flat form; where there is no array, it
puts an empty one. -/
theorem missing_row_left_alone_iff {p : Path} (hsilent : g.SilentAt p) :
    let after (action : Action) : Json := (reduce g ids s action).session.doc
    (∀ i j, ¬ (s.doc.HasRow p i ∧ s.doc.HasRow p j) → after (.moveRow p i j) = s.doc) ∧
    (∀ column, (∀ rows, s.doc.valueAt? p ≠ some (.array rows)) →
      after (.bulkUpdate p column) = s.doc) ∧
    (∀ n, ¬ s.doc.HasRow p n →
      (after (.deleteRow p n)).valueAt? p = some (.array (s.doc.rowsAt p)) ∧
      (after (.deleteRow p n) = s.doc ↔
        (∃ rows, s.doc.valueAt? p = some (.array rows)) ∧ s.doc.WritesWhereRead p.segments)) ∧
    ∀ flat rows, p = .parse flat → s.doc.valueAt? p = some (.array rows) →
      s.doc.WritesWhereRead p.segments := by
  intro after
  refine ⟨fun i j hmissing => ?_, fun column hnone => ?_, fun n hmissing => ?_, ?_⟩
  · rw [hasRow_iff, hasRow_iff] at hmissing
    exact reduce_moveRow_of_missing hmissing
  · refine modifyAt?_getD_of_same fun v hv => ?_
    cases v with
    | array rows => exact absurd hv (hnone rows)
    | _ => rfl
  · rw [hasRow_iff, Nat.not_lt] at hmissing
    have hdoc : after (.deleteRow p n) = s.doc.setAt p (.array (s.doc.rowsAt p)) := by
      rw [← List.eraseIdx_of_length_le hmissing]
      exact reduce_deleteRow_doc hsilent n
    have hread : (after (.deleteRow p n)).valueAt? p = some (.array (s.doc.rowsAt p)) := by
      rw [hdoc]
      exact valueAtSegments?_setAtSegments _ _ _
    refine ⟨hread, ⟨fun hsame => ?_, ?_⟩⟩
    · have hheld : s.doc.valueAt? p = some (.array (s.doc.rowsAt p)) := by rwa [hsame] at hread
      rw [hdoc] at hsame
      exact ⟨⟨_, hheld⟩, (setAt_self_iff hheld).mp hsame⟩
    · rintro ⟨⟨rows, hheld⟩, hwrites⟩
      rw [hdoc, rowsAt_of_held hheld]
      exact (setAt_self_iff hheld).mpr hwrites
  · rintro flat rows rfl hheld
    exact writesWhereRead_of_allRead (Path.allRead_parse flat) hheld

theorem missing_row_left_alone_iff_order :
    let s : Session := ⟨.ofPairs [("lines", .array [.ofPairs [("item", .text "a")]])], 4⟩
    let g : DependencyGraph := ⟨[⟨.parse "title", .parse "note", none, none⟩]⟩
    let p := Path.parse "lines"
    let after (action : Action) : Json := (reduce g ⟨7⟩ s action).session.doc
    g.SilentAt p ∧ ¬ s.doc.HasRow p 1 ∧ after (.moveRow p 0 1) = s.doc ∧
      after (.deleteRow p 1) = s.doc := by
  intro s g p after
  have hsilent : g.SilentAt p := by
    intro l hl
    cases List.mem_singleton.mp hl
    decide +kernel
  have hmissing : ¬ s.doc.HasRow p 1 := by
    rw [hasRow_iff]
    decide +kernel
  have hheld : s.doc.valueAt? p = some (.array [.ofPairs [("item", .text "a")]]) := by
    decide +kernel
  obtain ⟨hmove, -, hdelete, hwrites⟩ := @missing_row_left_alone_iff g ⟨7⟩ s p hsilent
  exact ⟨hsilent, hmissing, hmove 0 1 fun hboth => hmissing hboth.2,
    (hdelete 1 hmissing).2.mpr ⟨⟨_, hheld⟩, hwrites "lines" _ rfl hheld⟩⟩

/-- A deletion where there are no rows replaces a name by an empty array, and makes an array where
there was nothing. -/
theorem deletion_of_missing_row_writes :
    let doc := Json.ofPairs [("name", .text "t")]
    let after (action : Action) : Json := (reduce .empty ⟨0⟩ ⟨doc, 0⟩ action).session.doc
    after (.deleteRow (.parse "name") 0) = .ofPairs [("name", .array [])] ∧
      after (.deleteRow (.parse "lines") 0) = .ofPairs [("lines", .array []), ("name", .text "t")] ∧
      after (.moveRow (.parse "name") 0 0) = doc ∧
      after (.bulkUpdate (.parse "name") "x") = doc := by
  decide +kernel

end Action

end SchemaForm
