import SchemaForm.Proofs.RowId.Tracking

set_option autoImplicit false
set_option relaxedAutoImplicit false

/-!
Rows under actions. Adding, deleting and moving rows, overwriting a column and writing a scalar
value never confuse rows: wherever a row goes, it keeps its identity, no identity is there twice,
and the rows that are not there before are those of the row that was added, which all get identities
of the session.
-/

namespace SchemaForm

namespace Rows

/-! ### Positions of rows -/

/-- Where the row at a position goes when a row is added. -/
def afterAdd (onTop : Bool) (n : Nat) : Option Nat := some (if onTop then n + 1 else n)

def afterDelete (position n : Nat) : Option Nat :=
  if n = position then none else some (if position < n then n - 1 else n)

/-- The position of the row that was at another one before a row was moved. -/
def moved (source target n : Nat) : Nat :=
  if n = source then target
  else if source < n ∧ n ≤ target then n - 1
  else if target ≤ n ∧ n < source then n + 1
  else n

/-- Where the row at a position goes when a row is moved, if both positions exist. -/
def afterMove (count source target n : Nat) : Option Nat :=
  some (if source < count ∧ target < count then moved source target n else n)

private theorem moved_moved (source target n : Nat) :
    moved target source (moved source target n) = n := by
  unfold moved
  split
  · grind
  · split
    · grind
    · grind

private theorem moved_lt {source target n count : Nat} (hsource : source < count)
    (htarget : target < count) (hn : n < count) : moved source target n < count := by
  unfold moved
  split
  · exact htarget
  · split
    · omega
    · split
      · omega
      · exact hn

private theorem getElem?_moved {rows : List Json} {source target n : Nat}
    (hsource : source < rows.length) (htarget : target < rows.length) (hn : n < rows.length)
    (row : Json) (hheld : rows[source]? = some row) :
    ((rows.eraseIdx source).insertIdx target row)[moved source target n]? = rows[n]? := by
  have hlength := List.length_eraseIdx_of_lt hsource
  unfold moved
  rw [List.getElem?_insertIdx]
  split
  · rename_i hsame
    subst hsame
    rw [if_neg (by omega), if_pos rfl, if_pos (by omega), hheld]
  · split
    · rw [if_pos (by omega), List.getElem?_eraseIdx]
      grind
    · split
      · rw [if_neg (by omega), if_neg (by omega), List.getElem?_eraseIdx]
        grind
      · rw [List.getElem?_eraseIdx]
        grind

open RowId

variable (rows : List Json)

theorem shifted_add (row : Json) (onTop : Bool) :
    Shifted (afterAdd onTop) (fun m => m = if onTop then 0 else rows.length) rows
      (add rows row onTop) := by
  constructor
  · intro n m hbound hshifted
    cases hshifted
    cases onTop with
    | true => rfl
    | false => exact List.getElem?_append_left hbound
  · intro m hbound
    cases onTop with
    | true =>
      cases m with
      | zero => exact .inl rfl
      | succ m => exact .inr ⟨m, rfl, rfl⟩
    | false =>
      have hlength : (add rows row false).length = rows.length + 1 := List.length_append
      by_cases hold : m < rows.length
      · exact .inr ⟨m, rfl, (List.getElem?_append_left hold).symm⟩
      · exact .inl (by simp only [Bool.false_eq_true, if_false]; omega)

theorem getElem?_added (row : Json) (onTop : Bool) :
    (add rows row onTop)[if onTop then 0 else rows.length]? = some row := by
  cases onTop with
  | true => rfl
  | false => simp [add]

theorem shifted_delete (position : Nat) :
    Shifted (afterDelete position) (fun _ => False) rows (rows.eraseIdx position) := by
  constructor
  · intro n m _ hshifted
    rw [List.getElem?_eraseIdx]
    grind [afterDelete]
  · intro m _
    right
    by_cases hbefore : m < position
    · refine ⟨m, ?_, by rw [List.getElem?_eraseIdx, if_pos hbefore]⟩
      rw [afterDelete, if_neg (by omega), if_neg (by omega)]
    · refine ⟨m + 1, ?_, by rw [List.getElem?_eraseIdx, if_neg hbefore]⟩
      rw [afterDelete, if_neg (by omega), if_pos (by omega)]
      rfl

theorem shifted_move {rows' : List Json} {source target : Nat}
    (hexist : move? rows source target = some rows') :
    Shifted (afterMove rows.length source target) (fun _ => False) rows rows' := by
  unfold move? at hexist
  split at hexist
  · rename_i hboth
    obtain ⟨hsource, htarget⟩ := hboth
    obtain ⟨row, hheld, rfl⟩ := Option.map_eq_some_iff.mp hexist
    have hshift (n : Nat) :
        afterMove rows.length source target n = some (moved source target n) := by
      rw [afterMove, if_pos ⟨hsource, htarget⟩]
    have hlength : ((rows.eraseIdx source).insertIdx target row).length = rows.length := by
      have herased := List.length_eraseIdx_of_lt hsource
      rw [List.length_insertIdx, if_pos (by omega)]
      omega
    constructor
    · intro n m hbound hshifted
      rw [hshift, Option.some.injEq] at hshifted
      subst hshifted
      exact getElem?_moved hsource htarget hbound row hheld
    · intro m hbound
      rw [hlength] at hbound
      -- Moving the row back says where each row came from.
      have hback : moved source target (moved target source m) = m := moved_moved target source m
      have hthere := getElem?_moved hsource htarget (moved_lt htarget hsource hbound) row hheld
      rw [hback] at hthere
      exact .inr ⟨moved target source m, by rw [hshift, hback], hthere.symm⟩
  · cases hexist

theorem afterMove_of_not_moved {source target : Nat} (hmissing : move? rows source target = none)
    (n : Nat) : afterMove rows.length source target n = some n := by
  have hapart : ¬ (source < rows.length ∧ target < rows.length) := by
    intro hboth
    rw [move?, if_pos hboth, List.getElem?_eq_getElem hboth.1] at hmissing
    cases hmissing
  rw [afterMove, if_neg hapart]

private theorem afterMove_of_none {source target : Nat} (hmissing : move? rows source target = none)
    (l : Place) : Route.ofItems (afterMove rows.length source target) l = some l := by
  match l with
  | [] => rfl
  | .member name :: l => rfl
  | .item n :: l => rw [Route.ofItems, afterMove_of_not_moved rows hmissing]; rfl

end Rows

namespace Json

private theorem getLast?_placeOf {v : Json} {segments : List Segment} {name : String}
    (hlast : (v.placeOf segments).getLast? = some (.member name)) :
    ∃ s, segments.getLast? = some s ∧ s.text = name := by
  induction segments generalizing v with
  | nil => cases hlast
  | cons s rest ih =>
    cases rest with
    | nil =>
      refine ⟨s, rfl, ?_⟩
      have hstep : v.stepOf s = .member name := Option.some.inj hlast
      unfold stepOf at hstep
      split at hstep
      · cases hstep
      · exact Step.member.inj hstep
    | cons s' rest =>
      have hnonempty : placeOf ((v.child? s).getD .null) (s' :: rest) ≠ [] := by simp [placeOf]
      rw [placeOf, List.getLast?_cons_of_ne_nil hnonempty] at hlast
      obtain ⟨final, hends, hnamed⟩ := ih hlast
      exact ⟨final, by rw [List.getLast?_cons_cons, hends], hnamed⟩

end Json

namespace RowId

variable {bound : Nat} {doc : Json}

private theorem eq_key_of_text {s : Segment} (htext : s.text = key) : s = .key key := by
  cases s with
  | key name => rw [← htext, Segment.text_key]
  | index n =>
    have hchars : Nat.toDigits 10 n = ['c', 'i', 'd'] := by
      have hsame := congrArg String.toList htext
      rwa [Segment.text, Segment.chars, String.toList_ofList] at hsame
    have hmember : 'c' ∈ Nat.toDigits 10 n := by simp [hchars]
    have hdigit : Char.isDigit 'c' = true :=
      Nat.isDigit_of_mem_toDigits (by omega) (by omega) hmember
    cases hdigit

theorem Identified.exists_of? (h : Identified bound doc) (l : Place) (row : Json)
    (hthere : doc.RowAt l row) : ∃ id, of? row = some id := by
  obtain ⟨creating, n, -, hname⟩ := h.isNamed l row hthere
  exact ⟨_, hname⟩

private theorem Identified.carries_setValue (h : Identified bound doc) {flat : String}
    {old value : Json} (hheld : doc.valueAt? (.parse flat) = some old)
    (hscalar : value.isScalar = true) (hother : (Path.parse flat).last? ≠ some (.key key)) :
    Carries (.within ((Path.parse flat).place doc) fun _ => none) (fun _ => False) doc
      (doc.setAt (.parse flat) value) := by
  have hread := Path.allRead_parse flat
  have hnoneBelow (l : Place) (row : Json) : ¬ value.RowAt l row :=
    Json.not_rowAt_of_isScalar hscalar l row
  have hinside : Carries (fun _ => none) (fun _ => False) old value := by
    constructor
    · intro l l' row _ hgoes
      cases hgoes
    · intro l row hthere
      exact absurd hthere (hnoneBelow l row)
  have hapart (l : Place) (row : Json) (_ : doc.RowAt l row) :
      (Path.parse flat).place doc ≠ l ++ [.member key] := by
    intro hsame
    have hlast : ((Path.parse flat).place doc).getLast? = some (.member key) := by
      rw [hsame, List.getLast?_concat]
    obtain ⟨s, hends, htext⟩ := Json.getLast?_placeOf hlast
    rw [eq_key_of_text htext] at hends
    exact hother hends
  rw [Path.setAt_eq_replaceAt hread hheld]
  refine (hinside.replaceAt (Path.at?_place hread hheld) h.exists_of? hapart ?_ ?_).imp ?_
  · rintro members rfl
    cases hscalar
  · exact fun _ _ => rfl
  · rintro l ⟨l', -, hno⟩
    exact hno

private theorem Identified.carries_setRows (h : Identified bound doc) {flat : String}
    {rows rows' : List Json} (hheld : doc.valueAt? (.parse flat) = some (.array rows))
    {route : Route} {made : Place → Prop}
    (hinside : Carries route made (.array rows) (.array rows')) :
    Carries (.within ((Path.parse flat).place doc) route)
      (fun l => ∃ l', l = (Path.parse flat).place doc ++ l' ∧ made l') doc
      (.replaceAt (.array rows') doc ((Path.parse flat).place doc)) := by
  have hleads := Path.at?_place (Path.allRead_parse flat) hheld
  -- The identity of a row is a text, and what is replaced is an array.
  have hapart (l : Place) (row : Json) (hthere : doc.RowAt l row) :
      (Path.parse flat).place doc ≠ l ++ [.member key] := by
    intro hsame
    obtain ⟨id, hname⟩ := h.exists_of? l row hthere
    obtain ⟨v, hmember, htext⟩ := Option.bind_eq_some_iff.mp hname
    obtain ⟨members, rfl⟩ := hthere.isObject
    have harray : v = .array rows := by
      rw [hsame, Json.at?_append_of_some hthere.leads, Json.at?_cons] at hleads
      have hfound : (Json.object members).below? (.member key) = some v := hmember
      rw [hfound] at hleads
      exact Option.some.inj hleads
    rw [harray] at htext
    cases htext
  refine hinside.replaceAt hleads h.exists_of? hapart ?_ ?_
  · intro members hsame
    cases hsame
  · intro members hsame
    cases hsame

end RowId

namespace Action

open RowId

/-- Where rows go when an action is applied to a document, if they are not lost. -/
def route (doc : Json) : Action → Route
  | .setValue p _ => .within (p.place doc) fun _ => none
  | .addRow p _ onTop => .within (p.place doc) (.ofItems (Rows.afterAdd onTop))
  | .deleteRow p position => .within (p.place doc) (.ofItems (Rows.afterDelete position))
  | .moveRow p source target =>
    .within (p.place doc) (.ofItems (Rows.afterMove (doc.rowsAt p).length source target))
  | .bulkUpdate p column => .within (p.place doc) (.clearing column)
  | .init _ | .clearDeferredQueue | .deferredDepChange _ _ _ => some

/-- The place at which an action makes a row. -/
def rowMade? (doc : Json) : Action → Option Place
  | .addRow p _ onTop =>
    some (p.place doc ++ [.item (if onTop then 0 else (doc.rowsAt p).length)])
  | _ => none

/-- The actions on the values and rows of a document that leave identities alone. Their paths are
read from flat forms and lead to what they change. -/
inductive Edits (doc : Json) : Action → Prop where
  | setValue {flat : String} {old value : Json} (hheld : doc.valueAt? (.parse flat) = some old)
      (hscalar : value.isScalar = true) (hother : (Path.parse flat).last? ≠ some (.key RowId.key)) :
      Edits doc (.setValue (.parse flat) value)
  | addRow {flat : String} {rows : List Json} {row : Json} {onTop : Bool}
      (hheld : doc.valueAt? (.parse flat) = some (.array rows))
      (hisObject : ∃ members, row = .object members) (hisFlat : row.isFlat = true) :
      Edits doc (.addRow (.parse flat) row onTop)
  | deleteRow {flat : String} {rows : List Json} {position : Nat}
      (hheld : doc.valueAt? (.parse flat) = some (.array rows)) :
      Edits doc (.deleteRow (.parse flat) position)
  | moveRow {flat : String} {rows : List Json} {source target : Nat}
      (hheld : doc.valueAt? (.parse flat) = some (.array rows)) :
      Edits doc (.moveRow (.parse flat) source target)
  | bulkUpdate {flat : String} {rows : List Json} {column : String}
      (hheld : doc.valueAt? (.parse flat) = some (.array rows)) (hother : column ≠ RowId.key) :
      Edits doc (.bulkUpdate (.parse flat) column)

/-- The places of the row that an action makes, and of all below it. -/
def Makes (doc : Json) (action : Action) (l : Place) : Prop :=
  ∃ base, action.rowMade? doc = some base ∧ base <+: l

section Step

variable {ids : RowIds} {s : Session} {action : Action}

theorem rowsAt_of_held {p : Path} {doc : Json} {rows : List Json}
    (hheld : doc.valueAt? p = some (.array rows)) : doc.rowsAt p = rows := by
  rw [Json.rowsAt, hheld]
  rfl

private theorem numbered_stamped {row : Json} (hisObject : ∃ members, row = .object members)
    (hisFlat : row.isFlat = true) (ids : RowIds) :
    (∃ members, (Rows.stamped ids row).1 = .object members) ∧
      Numbered true ids.last (Rows.stamped ids row).2.last (.array [(Rows.stamped ids row).1]) := by
  obtain ⟨members, rfl⟩ := hisObject
  have hflat : Json.areFlatItems [.object members] = true := by
    simp [Json.areFlatItems, Json.isArray, hisFlat]
  have hnumbered := numbered_stampItems true [.object members] ids hflat
  simp only [Rows.stamped, stampItems] at hnumbered ⊢
  exact ⟨⟨_, rfl⟩, hnumbered⟩

private theorem reduce_addRow_doc {flat : String} {rows : List Json}
    (hheld : s.doc.valueAt? (.parse flat) = some (.array rows)) (row : Json) (onTop : Bool) :
    (reduce .empty ids s (.addRow (.parse flat) row onTop)).session.doc =
      .replaceAt (.array (Rows.add rows (Rows.stamped ids row).1 onTop)) s.doc
        ((Path.parse flat).place s.doc) := by
  rw [← Path.setAt_eq_replaceAt (Path.allRead_parse flat) hheld, ← rowsAt_of_held hheld]
  rfl

/-- Rows come along on the routes of the action, or are made by it. -/
theorem Edits.carries (hedits : Edits s.doc action) (h : Identified ids.last s.doc) :
    Carries (action.route s.doc) (action.Makes s.doc) s.doc
      (reduce .empty ids s action).session.doc := by
  cases hedits with
  | setValue hheld hscalar hother =>
    exact (h.carries_setValue hheld hscalar hother).imp fun l hno => hno.elim
  | @addRow flat rows row onTop hheld hisObject hisFlat =>
    have hinside := carries_items (Rows.shifted_add rows (Rows.stamped ids row).1 onTop)
    have hwhole := h.carries_setRows hheld hinside
    rw [← reduce_addRow_doc hheld] at hwhole
    refine hwhole.imp ?_
    rintro l ⟨l', rfl, m, rest, rfl, rfl⟩
    refine ⟨_, rfl, rest, ?_⟩
    rw [rowsAt_of_held hheld, List.append_assoc]
    rfl
  | @deleteRow flat rows position hheld =>
    have hwhole := h.carries_setRows hheld (carries_rearranged (Rows.shifted_delete rows position))
    rw [← Path.setAt_eq_replaceAt (Path.allRead_parse flat) hheld, ← rowsAt_of_held hheld] at hwhole
    exact hwhole.imp fun l ⟨_, _, hno⟩ => hno.elim
  | @moveRow flat rows source target hheld =>
    cases hmoved : Rows.move? (s.doc.rowsAt (.parse flat)) source target with
    | some rows' =>
      have hinside := carries_rearranged (Rows.shifted_move _ hmoved)
      rw [rowsAt_of_held hheld] at hinside
      have hwhole := h.carries_setRows hheld hinside
      rw [← Path.setAt_eq_replaceAt (Path.allRead_parse flat) hheld,
        ← rowsAt_of_held hheld] at hwhole
      simp only [reduce, hmoved]
      exact hwhole.imp fun l ⟨_, _, hno⟩ => hno.elim
    | none =>
      have hstays := Route.within_stays (Rows.afterMove_of_none _ hmoved)
        ((Path.parse flat).place s.doc)
      simp only [reduce, hmoved]
      exact (Carries.refl hstays s.doc).imp fun l hno => hno.elim
  | @bulkUpdate flat rows column hheld hother =>
    have hchanged := Path.modifyAt?_eq_replaceAt (Path.allRead_parse flat) hheld
      (Rows.clearColumns column)
    have hwhole := h.carries_setRows hheld (carries_clearColumns hother rows)
    simp only [reduce, hchanged, Option.getD_some]
    exact hwhole.imp fun l ⟨_, _, hno⟩ => hno.elim

variable (ids) in
private theorem at?_added {flat : String} {rows : List Json} {row : Json} {onTop : Bool}
    (hheld : s.doc.valueAt? (.parse flat) = some (.array rows)) {base : Place}
    (hmakes : rowMade? s.doc (.addRow (.parse flat) row onTop) = some base) (rest : Place) :
    (reduce .empty ids s (.addRow (.parse flat) row onTop)).session.doc.at? (base ++ rest) =
      (Rows.stamped ids row).1.at? rest := by
  have hleads := Path.at?_place (Path.allRead_parse flat) hheld
  have hfirst := Rows.getElem?_added rows (Rows.stamped ids row).1 onTop
  cases hmakes
  rw [reduce_addRow_doc hheld, rowsAt_of_held hheld, List.append_assoc,
    Json.at?_replaceAt_below hleads, List.singleton_append, Json.at?_cons, Json.below?, hfirst,
    Option.bind_some]

variable (ids) in
private theorem Edits.numbered (hedits : Edits s.doc action) :
    ∃ (made : Json) (place : Place → Place),
      Numbered true ids.last (reduce .empty ids s action).ids.last made ∧
      ∀ l row, action.Makes s.doc l → (reduce .empty ids s action).session.doc.RowAt l row →
        ∃ l₀, l = place l₀ ∧ made.RowAt l₀ row := by
  have hnothing (hsame : (reduce .empty ids s action).ids = ids)
      (hnoneMade : action.rowMade? s.doc = none) :
      ∃ (made : Json) (place : Place → Place),
        Numbered true ids.last (reduce .empty ids s action).ids.last made ∧
        ∀ l row, action.Makes s.doc l → (reduce .empty ids s action).session.doc.RowAt l row →
          ∃ l₀, l = place l₀ ∧ made.RowAt l₀ row := by
    rw [hsame]
    refine ⟨.null, id, .of_no_rows true ids.last (Json.not_rowAt_of_isScalar rfl), ?_⟩
    rintro l row ⟨base, hmakes, -⟩
    rw [hnoneMade] at hmakes
    cases hmakes
  cases hedits with
  | setValue => exact hnothing rfl rfl
  | deleteRow => exact hnothing rfl rfl
  | bulkUpdate => exact hnothing rfl rfl
  | moveRow =>
    refine hnothing ?_ rfl
    simp only [reduce]
    split <;> rfl
  | @addRow flat rows row onTop hheld hisObject hisFlat =>
    obtain ⟨-, hnumbered⟩ := numbered_stamped hisObject hisFlat ids
    obtain ⟨base, hmakes⟩ : ∃ base, rowMade? s.doc (.addRow (.parse flat) row onTop) = some base :=
      ⟨_, rfl⟩
    refine ⟨_, fun l => base ++ l.drop 1, hnumbered, ?_⟩
    rintro l made_row ⟨base', hmakes', rest, rfl⟩ hthere
    rw [hmakes, Option.some.injEq] at hmakes'
    subst hmakes'
    refine ⟨.item 0 :: rest, rfl, ?_, ?_, hthere.isObject⟩
    · rw [Json.at?_cons, ← hthere.leads, at?_added ids hheld hmakes]
      rfl
    · cases rest with
      | nil => exact ⟨0, rfl⟩
      | cons step rest =>
        obtain ⟨n, hlast⟩ := hthere.isItem
        rw [List.getLast?_append_of_ne_nil base (by simp)] at hlast
        exact ⟨n, by rw [List.getLast?_cons_cons, hlast]⟩

theorem Edits.identified (hedits : Edits s.doc action) (h : Identified ids.last s.doc) :
    Identified (reduce .empty ids s action).ids.last (reduce .empty ids s action).session.doc := by
  obtain ⟨made, place, hnumbered, hfresh⟩ := hedits.numbered ids
  exact h.carried (hedits.carries h) hnumbered hfresh

/-- The row that an action makes is there, and it and all below it have identities of the session.
-/
theorem Edits.isNew_of_makes (hedits : Edits s.doc action) {base : Place}
    (hmakes : action.rowMade? s.doc = some base) :
    (∃ row, (reduce .empty ids s action).session.doc.RowAt base row) ∧
      ∀ l row, base <+: l → (reduce .empty ids s action).session.doc.RowAt l row →
        ∃ id, of? row = some id ∧ isNew id = true := by
  constructor
  · cases hedits with
    | @addRow flat rows row onTop hheld hisObject hisFlat =>
      have hthere := at?_added ids hheld hmakes []
      rw [List.append_nil] at hthere
      refine ⟨_, hthere, ?_, (numbered_stamped hisObject hisFlat ids).1⟩
      cases hmakes
      exact ⟨_, List.getLast?_concat⟩
    | _ => cases hmakes
  · intro l row hbelow hthere
    obtain ⟨made, place, hnumbered, hfresh⟩ := hedits.numbered ids
    obtain ⟨l₀, -, hthere₀⟩ := hfresh l row ⟨base, hmakes, hbelow⟩ hthere
    obtain ⟨n, -, -, hname⟩ := hnumbered.isNamed l₀ row hthere₀
    exact ⟨_, hname, isNew_named n⟩

end Step

end Action

end SchemaForm
