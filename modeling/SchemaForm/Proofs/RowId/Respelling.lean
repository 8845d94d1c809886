import Mathlib.Data.List.InsertIdx
import SchemaForm.Proofs.RowId.Spelling
import SchemaForm.Reduction

set_option autoImplicit false
set_option relaxedAutoImplicit false

/-!
Actions on documents that agree up to the spelling of identities. No action but the application of a
deferred result looks at the spelling of an identity, and what it draws is an identity again. So
documents that agree are taken to documents that agree, from whatever supplies it draws.
-/

namespace SchemaForm

namespace RowId

open Json

variable {rows rows' : List Json}

/-! ### Rows -/

private theorem blanked_stamped (ids ids' : RowIds) (row : Json) :
    blanked .item (Rows.stamped ids row).1 = blanked .item (Rows.stamped ids' row).1 := by
  cases row with
  | object members =>
    have hitems := blankedItems_stampItems true ids ids' [.object members]
    exact (List.cons.inj hitems).1
  | _ => rfl

private theorem blankedItems_add (hsame : blankedItems rows = blankedItems rows') {row row' : Json}
    (hadded : blanked .item row = blanked .item row') (onTop : Bool) :
    blankedItems (Rows.add rows row onTop) = blankedItems (Rows.add rows' row' onTop) := by
  rw [blankedItems_eq, blankedItems_eq] at hsame ⊢
  cases onTop with
  | true => exact congrArg₂ List.cons hadded hsame
  | false =>
    rw [Rows.add, Rows.add, if_neg Bool.false_ne_true, if_neg Bool.false_ne_true, List.map_append,
      List.map_append, List.map_singleton, List.map_singleton, hsame, hadded]

private theorem blankedItems_eraseIdx (hsame : blankedItems rows = blankedItems rows') (n : Nat) :
    blankedItems (rows.eraseIdx n) = blankedItems (rows'.eraseIdx n) := by
  rw [blankedItems_eq, blankedItems_eq] at hsame ⊢
  rw [← List.eraseIdx_map, ← List.eraseIdx_map, hsame]

private theorem blankedItems_move? (hsame : blankedItems rows = blankedItems rows')
    (source target : Nat) :
    (Rows.move? rows source target).map blankedItems =
      (Rows.move? rows' source target).map blankedItems := by
  have hwhole (rows : List Json) : (Rows.move? rows source target).map blankedItems =
      if source < (blankedItems rows).length ∧ target < (blankedItems rows).length then
        (blankedItems rows)[source]?.map fun row =>
          ((blankedItems rows).eraseIdx source).insertIdx target row
      else none := by
    rw [Rows.move?, blankedItems_eq, List.length_map]
    split
    · rw [List.getElem?_map, Option.map_map, Option.map_map]
      congr 1
      funext row
      simp only [Function.comp_apply, blankedItems_eq, List.map_insertIdx, List.eraseIdx_map]
    · rfl
  rw [hwhole, hwhole, hsame]

private theorem blanked_clearColumn {slot : Slot} {v w : Json}
    (hagree : blanked slot v = blanked slot w) (column : String) :
    blanked slot (Rows.clearColumn column v) = blanked slot (Rows.clearColumn column w) := by
  have hidle {u : Json} (hscalar : u.isScalar = true) : Rows.clearColumn column u = u := by
    cases u with
    | object members => cases hscalar
    | _ => rfl
  rcases blanked_cases hagree with ⟨items, items', rfl, rfl, hsame⟩ |
    ⟨members, members', rfl, rfl, hsame⟩ | ⟨hscalar, hscalar'⟩
  · exact hagree
  · rw [Rows.clearColumn, Rows.clearColumn, blanked_object, blanked_object, blankedMembers_insert,
      blankedMembers_insert, hsame]
  · rwa [hidle hscalar, hidle hscalar']

private theorem blankedItems_clearColumn (hsame : blankedItems rows = blankedItems rows')
    (column : String) : blankedItems (rows.map (Rows.clearColumn column)) =
      blankedItems (rows'.map (Rows.clearColumn column)) := by
  induction rows generalizing rows' with
  | nil =>
    cases rows' with
    | nil => rfl
    | cons row' rest' => cases hsame
  | cons row rest ih =>
    cases rows' with
    | nil => cases hsame
    | cons row' rest' =>
      obtain ⟨hfirst, hlater⟩ := List.cons.inj hsame
      exact congrArg₂ List.cons (blanked_clearColumn hfirst column) (ih hlater)

private theorem blanked_clearColumns {slot : Slot} {v w : Json}
    (hagree : blanked slot v = blanked slot w) (column : String) :
    blanked slot (Rows.clearColumns column v) = blanked slot (Rows.clearColumns column w) := by
  have hidle {u : Json} (hscalar : u.isScalar = true) : Rows.clearColumns column u = u := by
    cases u with
    | array items => cases hscalar
    | _ => rfl
  rcases blanked_cases hagree with ⟨items, items', rfl, rfl, hsame⟩ |
    ⟨members, members', rfl, rfl, hsame⟩ | ⟨hscalar, hscalar'⟩
  · rw [Rows.clearColumns, Rows.clearColumns, blanked_array, blanked_array,
      blankedItems_clearColumn hsame]
  · exact hagree
  · rwa [hidle hscalar, hidle hscalar']

/-! ### Actions -/

section Actions

variable {doc doc' : Json}

theorem agree_setAt (hagree : Agree doc doc') (p : Path) {new new' : Json}
    (hnews : ∀ slot, blanked slot new = blanked slot new') :
    Agree (doc.setAt p new) (doc'.setAt p new') :=
  blanked_setAtSegments hnews p.segments hagree

private theorem agree_setRows (hagree : Agree doc doc') (p : Path)
    (hsame : blankedItems rows = blankedItems rows') :
    Agree (doc.setAt p (.array rows)) (doc'.setAt p (.array rows')) :=
  agree_setAt hagree p fun slot => by rw [blanked_array, blanked_array, hsame]

private theorem agree_modifyAt? (hagree : Agree doc doc') (p : Path) {f : Json → Json}
    (hchanges : ∀ slot v w, blanked slot v = blanked slot w →
      blanked slot (f v) = blanked slot (f w)) :
    Agree ((doc.modifyAt? p f).getD doc) ((doc'.modifyAt? p f).getD doc') := by
  have hmodified := blanked_modifyAtSegments? hchanges p.segments hagree
  have hwhole (doc : Json) : blanked .other ((doc.modifyAt? p f).getD doc) =
      ((modifyAtSegments? f doc p.segments).map (blanked .other)).getD (blanked .other doc) :=
    (Option.getD_map ..).symm
  rw [Agree, hwhole, hwhole, hmodified, hagree]

/-- Without listeners an action takes documents that agree to documents that agree, whatever it
draws. -/
theorem agree_reduce {s s' : Session} (hagree : Agree s.doc s'.doc) (ids ids' : RowIds)
    {action : Action} (hplain : action.kind ≠ .deferredDepChange) :
    Agree (reduce .empty ids s action).session.doc (reduce .empty ids' s' action).session.doc := by
  have hrows (p : Path) : blankedItems (s.doc.rowsAt p) = blankedItems (s'.doc.rowsAt p) :=
    blankedItems_rowsAt hagree p
  cases action with
  | init payload => rfl
  | setValue p value => exact agree_setAt hagree p fun _ => rfl
  | addRow p row onTop =>
    exact agree_setRows hagree p (blankedItems_add (hrows p) (blanked_stamped ids ids' row) onTop)
  | deleteRow p position => exact agree_setRows hagree p (blankedItems_eraseIdx (hrows p) position)
  | moveRow p source target =>
    have hmoved := blankedItems_move? (hrows p) source target
    rw [reduce, reduce]
    cases hfirst : Rows.move? (s.doc.rowsAt p) source target with
    | none =>
      rw [hfirst, eq_comm, Option.map_none, Option.map_eq_none_iff] at hmoved
      rw [hmoved]
      exact hagree
    | some items =>
      rw [hfirst, eq_comm, Option.map_some, Option.map_eq_some_iff] at hmoved
      obtain ⟨items', hsecond, hsame⟩ := hmoved
      rw [hsecond]
      exact agree_setRows hagree p hsame.symm
  | bulkUpdate p column =>
    exact agree_modifyAt? hagree p fun _ _ _ hsame => blanked_clearColumns hsame column
  | clearDeferredQueue => exact hagree
  | deferredDepChange listener f context => exact absurd rfl hplain

end Actions

end RowId

end SchemaForm
