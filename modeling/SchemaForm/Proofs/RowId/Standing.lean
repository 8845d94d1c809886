import SchemaForm.Proofs.Path.Collection
import SchemaForm.Proofs.RowId.Actions

set_option autoImplicit false
set_option relaxedAutoImplicit false

/-!
Where one row stands. Actions on a collection add, delete and move its rows and write their cells.
A row with an identity of its own stands at one position of the collection or is gone, and where it
stands after an action is decided by the action and the position alone.
-/

namespace SchemaForm

namespace Json

/-- The identities of the rows of the collection at a path, if there is one. -/
def rowIds? (doc : Json) (p : Path) : Option (List (Option String)) :=
  ((doc.valueAt? p).bind items?).map fun rows => rows.map RowId.of?

private theorem rowIds?_of_held {doc : Json} {p : Path} {rows : List Json}
    (hheld : doc.valueAt? p = some (.array rows)) : doc.rowIds? p = some (rows.map RowId.of?) := by
  rw [rowIds?, hheld]
  rfl

theorem exists_of_rowIds? {doc : Json} {p : Path} {ids : List (Option String)}
    (hnamed : doc.rowIds? p = some ids) :
    ∃ rows, doc.valueAt? p = some (.array rows) ∧ rows.map RowId.of? = ids := by
  obtain ⟨rows, hfound, hsame⟩ := Option.map_eq_some_iff.mp hnamed
  obtain ⟨v, hheld, hisArray⟩ := Option.bind_eq_some_iff.mp hfound
  cases v with
  | array items =>
    cases hisArray
    exact ⟨rows, hheld, hsame⟩
  | _ => cases hisArray

private theorem exists_of_rowsAt {doc row : Json} {p : Path} {n : Nat}
    (hthere : (doc.rowsAt p)[n]? = some row) :
    ∃ rows, doc.valueAt? p = some (.array rows) ∧ rows[n]? = some row := by
  cases hfound : (doc.valueAt? p).bind items? with
  | none =>
    rw [rowsAt, hfound] at hthere
    cases hthere
  | some rows =>
    have hnamed : doc.rowIds? p = some (rows.map RowId.of?) := by rw [rowIds?, hfound]; rfl
    obtain ⟨rows', hheld, -⟩ := exists_of_rowIds? hnamed
    rw [rowsAt, hheld] at hthere
    exact ⟨rows', hheld, hthere⟩

private theorem rowIds?_setRow {doc row row' : Json} {p : Path} (hread : Segment.AllRead p.segments)
    {rows : List Json} (hheld : doc.valueAt? p = some (.array rows)) {n : Nat}
    (hthere : rows[n]? = some row) (hsame : RowId.of? row' = RowId.of? row) :
    (doc.setAt p (.array (rows.set n row'))).rowIds? p = doc.rowIds? p := by
  have hkept : (rows.map RowId.of?)[n]? = some (RowId.of? row') := by
    rw [List.getElem?_map, hthere, hsame]
    rfl
  obtain ⟨hbound, hvalue⟩ := List.getElem?_eq_some_iff.mp hkept
  rw [rowIds?_of_held (Path.valueAt?_setAt hread hheld _), rowIds?_of_held hheld, List.map_set,
    ← hvalue, List.set_getElem_self]

end Json

namespace RowId

/-- The row with an identity stands at a position of the collection at a path and nowhere else in
it, or, if there is no position, nowhere. -/
def StandsAt (p : Path) (id : String) (position : Option Nat) (doc : Json) : Prop :=
  ∃ ids, doc.rowIds? p = some ids ∧ ∀ k, ids[k]? = some (some id) ↔ position = some k

section Stands

variable {p : Path} {id : String} {position : Option Nat} {doc doc' : Json}

theorem StandsAt.of_rowIds? (hstands : StandsAt p id position doc)
    (hsame : doc'.rowIds? p = doc.rowIds? p) : StandsAt p id position doc' := by
  obtain ⟨ids, hnamed, honly⟩ := hstands
  exact ⟨ids, hsame.trans hnamed, honly⟩

private theorem StandsAt.shifted (hread : Segment.AllRead p.segments)
    (hstands : StandsAt p id position doc) {rows rows' : List Json}
    (hheld : doc.valueAt? p = some (.array rows)) {shift : Nat → Option Nat} {made : Nat → Prop}
    (hshifted : Shifted shift made rows rows')
    (hfresh : ∀ m row, made m → rows'[m]? = some row → of? row ≠ some id) :
    StandsAt p id (position.bind shift) (doc.setAt p (.array rows')) := by
  obtain ⟨ids, hnamed, honly⟩ := hstands
  rw [Json.rowIds?_of_held hheld, Option.some.injEq] at hnamed
  subst hnamed
  refine ⟨_, Json.rowIds?_of_held (Path.valueAt?_setAt hread hheld _), fun k => ?_⟩
  rw [List.getElem?_map, Option.map_eq_some_iff, Option.bind_eq_some_iff]
  constructor
  · rintro ⟨row, hthere, hname⟩
    obtain ⟨hbound, -⟩ := List.getElem?_eq_some_iff.mp hthere
    rcases hshifted.origin k hbound with hnew | ⟨n, hsends, hsame⟩
    · exact absurd hname (hfresh k row hnew hthere)
    · refine ⟨n, (honly n).mp ?_, hsends⟩
      rw [List.getElem?_map, hsame, hthere, Option.map_some, hname]
  · rintro ⟨n, hstood, hsends⟩
    have hbefore := (honly n).mpr hstood
    rw [List.getElem?_map, Option.map_eq_some_iff] at hbefore
    obtain ⟨row, hthere, hname⟩ := hbefore
    obtain ⟨hbound, -⟩ := List.getElem?_eq_some_iff.mp hthere
    exact ⟨row, (hshifted.kept n k hbound hsends).trans hthere, hname⟩

end Stands

/-! ### The supply of identities -/

mutual

theorem last_le_stamp (creating : Bool) (ids : RowIds) :
    (v : Json) → ids.last ≤ (stamp creating ids v).2.last
  | .object members => last_le_stampMembers creating false ids members
  | .array items => last_le_stampItems creating ids items
  | .null | .bool _ | .number _ | .text _ => Nat.le_refl _

theorem last_le_stampMembers (creating inRow : Bool) (ids : RowIds) :
    (members : List (String × Json)) → ids.last ≤ (stampMembers creating inRow ids members).2.last
  | [] => Nat.le_refl _
  | (k, v) :: rest => by
    rw [stampMembers]
    split
    · exact last_le_stampMembers creating inRow ids rest
    · exact Nat.le_trans (last_le_stamp creating ids v)
        (last_le_stampMembers creating inRow _ rest)

theorem last_le_stampItems (creating : Bool) (ids : RowIds) :
    (items : List Json) → ids.last ≤ (stampItems creating ids items).2.last
  | [] => Nat.le_refl _
  | .object members :: rest =>
    Nat.le_trans (Nat.le_trans (Nat.le_succ ids.last)
      (last_le_stampMembers creating true (ids.draw (letters creating)).2 members))
      (last_le_stampItems creating _ rest)
  | .array _ :: rest | .null :: rest | .bool _ :: rest | .number _ :: rest | .text _ :: rest =>
    last_le_stampItems creating ids rest

end

private theorem of?_stamped {ids : RowIds} {row : Json} {id : String}
    (hname : of? (Rows.stamped ids row).1 = some id) : id = named true (ids.last + 1) := by
  cases row with
  | object members =>
    simp only [Rows.stamped, stampItems] at hname
    rw [of?_insert_key, Option.some.injEq] at hname
    exact hname.symm
  | _ => cases hname

private theorem last_le_stamped (ids : RowIds) (row : Json) :
    ids.last ≤ (Rows.stamped ids row).2.last := by
  have hwhole := last_le_stampItems true ids [row]
  unfold Rows.stamped
  split
  · rename_i hsame
    rwa [hsame] at hwhole
  · rename_i hsame
    rwa [hsame] at hwhole

end RowId

/-! ### Where actions leave a row -/

namespace Action

open RowId

/-- The actions on the rows of the collection at a path and on their cells, except on the
identities. -/
inductive OnRows (p : Path) (doc : Json) : Action → Prop where
  | setCell {n : Nat} {members : Dictionary Json} {name : String}
      (hthere : (doc.rowsAt p)[n]? = some (.object members)) (hother : name ≠ key) (value : Json) :
      OnRows p doc (.setValue ((p.index n).key name) value)
  | addRow (row : Json) (onTop : Bool) : OnRows p doc (.addRow p row onTop)
  | deleteRow (position : Nat) : OnRows p doc (.deleteRow p position)
  | moveRow (source target : Nat) : OnRows p doc (.moveRow p source target)

/-- Where an action on a collection of so many rows leaves the row at a position. -/
def rowAfter (count : Nat) : Action → Nat → Option Nat
  | .addRow _ _ onTop => Rows.afterAdd onTop
  | .deleteRow _ position => Rows.afterDelete position
  | .moveRow _ source target => Rows.afterMove count source target
  | _ => some

variable {p : Path} {id : String} {position : Option Nat} {ids : RowIds} {s : Session}
  {action : Action}

private theorem rowIds?_setCell (hread : Segment.AllRead p.segments) {doc : Json} {n : Nat}
    {members : Dictionary Json} {name : String}
    (hthere : (doc.rowsAt p)[n]? = some (.object members)) (hother : name ≠ key) (value : Json) :
    (doc.setAt ((p.index n).key name) value).rowIds? p = doc.rowIds? p := by
  obtain ⟨rows, hheld, hthere⟩ := Json.exists_of_rowsAt hthere
  have hsame : of? (.object (Dictionary.insert members name value)) = of? (.object members) := by
    rw [of?, of?, Json.get?, Json.get?, Dictionary.get?_insert, if_neg hother]
  rw [Path.setAt_cell hheld hread hthere]
  exact Json.rowIds?_setRow hread hheld hthere hsame

theorem OnRows.standsAt (hon : OnRows p s.doc action) (hread : Segment.AllRead p.segments)
    (hundrawn : ∀ n, ids.last < n → id ≠ named true n) (hstands : StandsAt p id position s.doc) :
    StandsAt p id (position.bind (action.rowAfter (s.doc.rowsAt p).length))
      (reduce .empty ids s action).session.doc := by
  obtain ⟨rows, hheld, -⟩ := Json.exists_of_rowIds? hstands.choose_spec.1
  have hrowsAt : s.doc.rowsAt p = rows := rowsAt_of_held hheld
  cases hon with
  | setCell hthere hother value =>
    have hsame := rowIds?_setCell hread hthere hother value
    have hstays : (position.bind fun n => some n) = position := Option.bind_fun_some position
    exact (hstays.symm ▸ hstands).of_rowIds? hsame
  | addRow row onTop =>
    have hadded : (reduce .empty ids s (.addRow p row onTop)).session.doc =
        s.doc.setAt p (.array (Rows.add rows (Rows.stamped ids row).1 onTop)) := by
      rw [← hrowsAt]
      rfl
    rw [hadded]
    refine hstands.shifted hread hheld (Rows.shifted_add rows (Rows.stamped ids row).1 onTop) ?_
    intro m new hplace hthere hname
    rw [hplace, Rows.getElem?_added, Option.some.injEq] at hthere
    rw [← hthere] at hname
    exact hundrawn (ids.last + 1) (Nat.lt_succ_self _) (of?_stamped hname)
  | deleteRow k =>
    have hdeleted : (reduce .empty ids s (.deleteRow p k)).session.doc =
        s.doc.setAt p (.array (rows.eraseIdx k)) := by
      rw [← hrowsAt]
      rfl
    rw [hdeleted]
    exact hstands.shifted hread hheld (Rows.shifted_delete rows k) fun _ _ hno => hno.elim
  | moveRow source target =>
    rw [hrowsAt]
    cases hmoves : Rows.move? rows source target with
    | some rows' =>
      have hmoved : (reduce .empty ids s (.moveRow p source target)).session.doc =
          s.doc.setAt p (.array rows') := by
        simp only [reduce, hrowsAt, hmoves]
      rw [hmoved]
      exact hstands.shifted hread hheld (Rows.shifted_move rows hmoves) fun _ _ hno => hno.elim
    | none =>
      have hkept : (reduce .empty ids s (.moveRow p source target)).session.doc = s.doc := by
        simp only [reduce, hrowsAt, hmoves]
      have hstays : rowAfter rows.length (.moveRow p source target) = some :=
        funext (Rows.afterMove_of_not_moved rows hmoves)
      rw [hkept, hstays, Option.bind_fun_some]
      exact hstands

theorem OnRows.last_le (hon : OnRows p s.doc action) (g : DependencyGraph) (ids : RowIds) :
    ids.last ≤ (reduce g ids s action).ids.last := by
  cases hon with
  | addRow row onTop => exact last_le_stamped ids row
  | moveRow source target =>
    simp only [reduce]
    split <;> exact Nat.le_refl _
  | _ => exact Nat.le_refl _

end Action

end SchemaForm
