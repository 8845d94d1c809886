import SchemaForm.Proofs.Form.RowIdentity
import SchemaForm.Proofs.Path.Cover
import SchemaForm.Proofs.RowId.Standing

set_option autoImplicit false
set_option relaxedAutoImplicit false

/-!
Late results and rows. A deferred recomputation that a row has asked for is queued with the position
the row has at that moment. Its result is laid over the row that stands at this position when it
comes in. By then rows may have been added, deleted and moved, so that the result reaches the row
that asked for it only if all of that together has put the row back where it was.
-/

namespace SchemaForm

/-! ### One row at a time -/

/-- The documents differ in nothing but the row at a position of the collection at a path. -/
structure Json.DifferInRow (p : Path) (n : Nat) (doc doc' : Json) : Prop where
  others : ∀ k, k ≠ n → (doc'.rowsAt p)[k]? = (doc.rowsAt p)[k]?
  beside : ∀ l, ¬ (p.index n).place doc <+: l → ¬ l <+: (p.index n).place doc →
    doc'.at? l = doc.at? l

namespace Listener

/-- The listener lies with its source and its destination in the row at a position of the collection
at a path. -/
structure InRow (l : Listener) (p : Path) (n : Nat) : Prop where
  source : l.source.level = p.index n
  dest : l.level = p.index n

variable {l : Listener} {p : Path} {n : Nat} {doc : Json}

private theorem InRow.eq_of_listensTo (hinRow : l.InRow p n) {m : Nat} {name : String}
    (hlistens : l.listensTo ((p.index m).key name) = true) : n = m := by
  refine Path.eq_of_covers_of_rows (r := (p.index m).key name) ?_ (List.prefix_append _ _) hlistens
  rw [← hinRow.source]
  exact List.dropLast_prefix l.source.segments

private theorem apply_cases (hread : Segment.AllRead p.segments) {rows : List Json}
    (hheld : doc.valueAt? p = some (.array rows)) (hlevel : l.level = p.index n) (f : Recompute)
    (ctx : ActionContext) : l.apply f ctx doc = doc ∨
      ∃ row row', rows[n]? = some row ∧
        l.apply f ctx doc = doc.setAt p (.array (rows.set n row')) := by
  unfold apply
  split
  · rename_i fields _
    unfold patch
    rw [hlevel, Path.valueAt?_index hheld]
    split
    · rename_i members hthere
      have hleads : doc.valueAt? (p.index n) = some (.object members) := by
        rw [Path.valueAt?_index hheld, hthere]
      refine .inr ⟨_, .object (Dictionary.overlay members fields), hthere, ?_⟩
      rw [Path.modifyAt?_eq_replaceAt (Path.allRead_index hread n) hleads, Option.getD_some,
        Path.replaceAt_index hheld hread hthere]
    · exact .inl rfl
  · exact .inl rfl

private theorem differInRow_apply (hread : Segment.AllRead p.segments) {rows : List Json}
    (hheld : doc.valueAt? p = some (.array rows)) (hlevel : l.level = p.index n) (f : Recompute)
    (ctx : ActionContext) : doc.DifferInRow p n (l.apply f ctx doc) := by
  rcases apply_cases hread hheld hlevel f ctx with hsame | ⟨row, row', hthere, hchanged⟩
  · rw [hsame]
    exact ⟨fun _ _ => rfl, fun _ _ _ => rfl⟩
  · have hafter := Path.valueAt?_setAt hread hheld (.array (rows.set n row'))
    rw [hchanged]
    constructor
    · intro k hother
      rw [Action.rowsAt_of_held hafter, Action.rowsAt_of_held hheld,
        List.getElem?_set_ne (Ne.symm hother)]
    · intro place hbeside hbeside'
      have hleads : doc.at? ((p.index n).place doc) = some row := by
        rw [Path.at?_place (Path.allRead_index hread n)]
        rw [Path.valueAt?_index hheld, hthere]
      rw [← Path.replaceAt_index hheld hread hthere]
      exact Json.at?_replaceAt_beside hleads row' hbeside hbeside'

private theorem spares_others_iff (hread : Segment.AllRead p.segments) {id : String}
    {position : Option Nat} (hstands : RowId.StandsAt p id position doc)
    (hlevel : l.level = p.index n) (f : Recompute) (ctx : ActionContext) :
    (∀ (k : Nat) (row : Json), (doc.rowsAt p)[k]? = some row → RowId.of? row ≠ some id →
        ((l.apply f ctx doc).rowsAt p)[k]? = some row) ↔
      position = some n ∨ ((l.apply f ctx doc).rowsAt p)[n]? = (doc.rowsAt p)[n]? := by
  obtain ⟨names, hnamed, honly⟩ := hstands
  obtain ⟨rows, hheld, rfl⟩ := Json.exists_of_rowIds? hnamed
  have hrowsAt : doc.rowsAt p = rows := Action.rowsAt_of_held hheld
  have hothers := (differInRow_apply hread hheld hlevel f ctx).others
  constructor
  · intro hspared
    by_cases hback : position = some n
    · exact .inl hback
    · right
      cases hthere : (doc.rowsAt p)[n]? with
      | some row =>
        refine hspared n row hthere fun hname => hback ((honly n).mp ?_)
        rw [List.getElem?_map, ← hrowsAt, hthere, Option.map_some, hname]
      | none =>
        rcases apply_cases hread hheld hlevel f ctx with hidle | ⟨row, -, hfound, -⟩
        · rw [hidle, hthere]
        · rw [← hrowsAt, hthere] at hfound
          cases hfound
  · rintro (hback | hidle) k row hthere hother
    · have hapart : k ≠ n := by
        rintro rfl
        have hname := (honly k).mpr hback
        rw [List.getElem?_map, ← hrowsAt, hthere] at hname
        exact hother (Option.some.inj hname)
      rw [hothers k hapart, hthere]
    · by_cases hsame : k = n
      · rw [hsame, hidle, ← hsame, hthere]
      · rw [hothers k hsame, hthere]

end Listener

namespace Form

/-! ### Actions on the rows of one collection -/

/-- The recomputations that an action sets off leave the identities of the rows alone. -/
def LeavesRowIds (f : Form) (p : Path) (action : Action) : Prop :=
  (reduce f.graph f.ids f.session action).session.doc.rowIds? p =
    (reduce .empty f.ids f.session action).session.doc.rowIds? p

/-- The actions are dispatched one after the other, each on the rows that it finds. -/
def EditsRows (p : Path) (f : Form) : List Action → Prop
  | [] => True
  | action :: later =>
    action.OnRows p f.session.doc ∧ f.LeavesRowIds p action ∧ (f.dispatch action).EditsRows p later

/-- Where all of the actions together leave the row at a position. -/
def rowAfter (p : Path) (f : Form) : List Action → Nat → Option Nat
  | [], n => some n
  | action :: later, n =>
    (action.rowAfter (f.session.doc.rowsAt p).length n).bind ((f.dispatch action).rowAfter p later)

/-- The row with an identity stands at a position, and no other row will be given the identity. -/
structure Follows (p : Path) (id : String) (position : Option Nat) (f : Form) : Prop where
  freed : f.waiting = none
  undrawn : ∀ n, f.ids.last < n → id ≠ RowId.named true n
  stands : RowId.StandsAt p id position f.session.doc

section Follows

variable {p : Path} {id : String} {position : Option Nat} {f : Form}

private theorem Follows.dispatch (h : f.Follows p id position) (hread : Segment.AllRead p.segments)
    {action : Action} (hon : action.OnRows p f.session.doc) (hquiet : f.LeavesRowIds p action) :
    (f.dispatch action).Follows p id
      (position.bind (action.rowAfter (f.session.doc.rowsAt p).length)) := by
  rw [dispatch_released h.freed]
  refine ⟨(apply_waiting f action).trans h.freed, fun n habove => ?_, ?_⟩
  · rw [apply_ids] at habove
    exact h.undrawn n (Nat.lt_of_le_of_lt (hon.last_le f.graph f.ids) habove)
  · rw [apply_session]
    exact (hon.standsAt hread h.undrawn h.stands).of_rowIds? hquiet

private theorem Follows.run (h : f.Follows p id position) (hread : Segment.AllRead p.segments)
    {actions : List Action} (hedits : f.EditsRows p actions) :
    (f.run (dispatches actions)).Follows p id (position.bind (f.rowAfter p actions)) := by
  induction actions generalizing f position with
  | nil =>
    have hstays : position.bind (f.rowAfter p []) = position := Option.bind_fun_some position
    rwa [hstays]
  | cons action later ih =>
    obtain ⟨hon, hquiet, hrest⟩ := hedits
    have hwhole : position.bind (f.rowAfter p (action :: later)) =
        (position.bind (action.rowAfter (f.session.doc.rowsAt p).length)).bind
          ((f.dispatch action).rowAfter p later) := by
      cases position <;> rfl
    rw [hwhole]
    exact ih (h.dispatch hread hon hquiet) hrest

end Follows

private theorem exists_queued {p : Path} {f : Form} (hfreed : f.waiting = none)
    {actions : List Action} (hedits : f.EditsRows p actions) :
    ∃ later, (f.run (dispatches actions)).deferred = f.deferred ++ later := by
  induction actions generalizing f with
  | nil => exact ⟨[], (List.append_nil f.deferred).symm⟩
  | cons action actions ih =>
    obtain ⟨hon, -, hrest⟩ := hedits
    obtain ⟨first, hqueued⟩ : ∃ first, (f.dispatch action).deferred = f.deferred ++ first := by
      rw [dispatch_released hfreed, apply_deferred]
      cases hon with
      | setCell _ _ value => exact ⟨_, rfl⟩
      | moveRow source target =>
        refine ⟨[], ?_⟩
        rw [reduce_queue _ _ _ _ (by simp [Action.kind]), List.append_nil]
        rfl
      | _ => exact ⟨[], (List.append_nil f.deferred).symm⟩
    have hstill : (f.dispatch action).waiting = none := by
      rw [dispatch_released hfreed, apply_waiting]
      exact hfreed
    obtain ⟨later, hgrown⟩ := ih hstill hrest
    refine ⟨first ++ later, ?_⟩
    rw [← List.append_assoc, ← hqueued, ← hgrown]
    rfl

private theorem dispatch_setValue_deferred {f : Form} (hfreed : f.waiting = none) (q : Path)
    (value : Json) :
    ∃ added, (f.dispatch (.setValue q value)).deferred = f.deferred ++ added ∧
      ∀ p ∈ added, p.listener.listensTo q = true := by
  rw [dispatch_released hfreed, apply_deferred]
  refine ⟨_, rfl, fun p hmember => ?_⟩
  obtain ⟨l, hconcerned, hstarted⟩ := List.mem_filterMap.mp hmember
  obtain ⟨defer, -, hanswered⟩ := Option.bind_eq_some_iff.mp hstarted
  obtain ⟨deferral, -, rfl⟩ := Option.map_eq_some_iff.mp hanswered
  exact (List.mem_filter.mp hconcerned).2

/-! ### Results that come in after actions on rows -/

/-- A cell of a row is written, and then cells are written and rows are added, deleted and moved in
any order, without any recomputation that changes an identity. What the row has queued for itself is
still queued then. Whenever its result comes in, it changes nothing but the row that stands at the
position at which the row was. So it leaves all rows alone but the one that asked for it exactly if
the actions have left that row at its old position, or the result makes no difference. -/
theorem deferred_result_reaches_row_iff (schema : Schema) (view : View) (registry : OptionRegistry)
    (fixedData : Json) (ids : RowIds) (ops : List FormOp) (flat : String) (n : Nat) (name : String)
    (value : Json) (edits : List Action) (id : String) :
    let coll := Path.parse flat
    let f := (start schema view registry fixedData ids).run ops
    let edit := Action.setValue ((coll.index n).key name) value
    f.ui.ready = true → RowId.StandsAt coll id (some n) f.session.doc →
    (∀ k, f.ids.last < k → id ≠ RowId.named true k) → f.EditsRows coll (edit :: edits) →
    let g := f.dispatch edit
    let h := g.run (dispatches edits)
    ∃ added later, h.deferred = f.deferred ++ added ++ later ∧ g.deferred = f.deferred ++ added ∧
      ∀ p ∈ added, ∀ m, p.listener.InRow coll m → m = n ∧
        ∀ (order : CompletionOrder) (done rest : List Pending),
          order.arrange h.deferred = done ++ p :: rest →
          let before := (h.drained.applyResults done).session.doc
          let after := (h.drained.applyResults (done ++ [p])).session.doc
          before.rowIds? coll = h.session.doc.rowIds? coll →
          before.DifferInRow coll n after ∧
          RowId.StandsAt coll id (g.rowAfter coll edits n) before ∧
          ((∀ (k : Nat) (row : Json), (before.rowsAt coll)[k]? = some row →
              RowId.of? row ≠ some id → (after.rowsAt coll)[k]? = some row) ↔
            g.rowAfter coll edits n = some n ∨
              (after.rowsAt coll)[n]? = (before.rowsAt coll)[n]?) := by
  intro coll f edit hready hstands hundrawn hboth g h
  obtain ⟨hsound, -⟩ := sound_run schema view registry fixedData ids ops
  have hread : Segment.AllRead coll.segments := Path.allRead_parse flat
  have hfollows : f.Follows coll id (some n) := ⟨hsound.ready_iff.mp hready, hundrawn, hstands⟩
  obtain ⟨hon, hquiet, hedited⟩ := hboth
  have hfirst : g.Follows coll id (some n) := hfollows.dispatch hread hon hquiet
  have hlast : h.Follows coll id (g.rowAfter coll edits n) := hfirst.run hread hedited
  obtain ⟨added, hqueued, hlisten⟩ :=
    dispatch_setValue_deferred hfollows.freed ((coll.index n).key name) value
  obtain ⟨later, hgrown⟩ := exists_queued hfirst.freed hedited
  refine ⟨added, later, by rw [hgrown, hqueued], hqueued, fun p hmember m hinRow => ?_⟩
  have hsame : m = n := hinRow.eq_of_listensTo (hlisten p hmember)
  subst hsame
  refine ⟨rfl, ?_⟩
  intro order done rest _ before after hundisturbed
  have hsettled (results : List Pending) :
      (h.drained.applyResults results).session.doc = settledDoc h.session.doc results := by
    rw [applyResults_session (drained_waiting hlast.freed), drained_session hlast.freed]
  have happlied : after =
      p.listener.apply p.deferral.recompute { p.context with before := before } before := by
    have hearlier : before = settledDoc h.session.doc done := hsettled done
    have hlater : after = settledDoc h.session.doc (done ++ [p]) := hsettled (done ++ [p])
    rw [hlater, hearlier, settledDoc, List.foldl_append]
    rfl
  have hstanding : RowId.StandsAt coll id (g.rowAfter coll edits m) before :=
    hlast.stands.of_rowIds? hundisturbed
  obtain ⟨rows, hheld, -⟩ := Json.exists_of_rowIds? hstanding.choose_spec.1
  rw [happlied]
  exact ⟨Listener.differInRow_apply hread hheld hinRow.dest _ _, hstanding,
    Listener.spares_others_iff hread hstanding hinRow.dest _ _⟩

private def totalLater : Defer := fun level _ _ _ =>
  (level.get? "quantity").map fun quantity => ⟨0, fun _ _ _ _ => some [("total", quantity)]⟩

private def invoiceSchema : Schema :=
  ⟨[.collection { FieldTraits.plain with id := some "lines" }
      [.input { FieldTraits.plain with id := some "quantity" } .text,
        .input { FieldTraits.plain with
          id := some "total", dependencies := [.sibling "quantity"],
          defer := some totalLater } .text]
      .plain ⟨[], none, none⟩], .plain⟩

private def line (quantity : Nat) : Json := .ofPairs [("quantity", .ofNat quantity)]

private def invoiceLoaded : List FormOp :=
  [.initialise false (some (.ok (.ofPairs [("lines", .array [line 1, line 2])])))]

private theorem loaded_ne_named (n : Nat) : "nn1" ≠ RowId.named true n := by
  intro hsame
  have hnew := RowId.isNew_named n
  rw [← hsame] at hnew
  cases hnew

section Invoice

variable {f : Form} (hloaded :
  (start invoiceSchema (.ofMode .edit) .empty .empty ⟨0⟩).run invoiceLoaded = f)

include hloaded

private theorem invoice_stands :
    RowId.StandsAt (.parse "lines") "nn1" (some 0) f.session.doc := by
  refine ⟨[some "nn1", some "nn2"], by rw [← hloaded]; decide +kernel, fun k => ?_⟩
  match k with
  | 0 => simp
  | 1 => simp
  | k + 2 => simp

private theorem invoice_editsRows :
    f.EditsRows (.parse "lines")
      [.setValue (((Path.parse "lines").index 0).key "quantity") (.ofNat 5),
        .addRow (.parse "lines") .empty true, .deleteRow (.parse "lines") 0] := by
  have hthere : (f.session.doc.rowsAt (.parse "lines"))[0]? =
      some (.object [("cid", .text "nn1"), ("quantity", .ofNat 1)]) := by
    rw [← hloaded]
    decide +kernel
  rw [← hloaded] at hthere ⊢
  exact ⟨.setCell hthere (by decide) _, by unfold LeavesRowIds; decide +kernel,
    .addRow _ _, by unfold LeavesRowIds; decide +kernel,
    .deleteRow _, by unfold LeavesRowIds; decide +kernel, trivial⟩

end Invoice

/-- A line is added on top and deleted again before the total of the first line comes in: the second
line is what it was. -/
theorem deferred_result_reaches_row_iff_returned :
    let coll := Path.parse "lines"
    let f := (start invoiceSchema (.ofMode .edit) .empty .empty ⟨0⟩).run invoiceLoaded
    let edit := Action.setValue ((coll.index 0).key "quantity") (.ofNat 5)
    let edits := [Action.addRow coll .empty true, Action.deleteRow coll 0]
    let h := (f.dispatch edit).run (dispatches edits)
    f.ui.ready = true ∧ RowId.StandsAt coll "nn1" (some 0) f.session.doc ∧
      (∀ k, f.ids.last < k → "nn1" ≠ RowId.named true k) ∧ f.EditsRows coll (edit :: edits) ∧
      ∃ p, h.deferred = [p] ∧
        ∀ (k : Nat) (row : Json), (h.drained.session.doc.rowsAt coll)[k]? = some row →
          RowId.of? row ≠ some "nn1" →
          ((h.drained.applyResults [p]).session.doc.rowsAt coll)[k]? = some row := by
  have hgeneral := deferred_result_reaches_row_iff invoiceSchema (.ofMode .edit) .empty .empty ⟨0⟩
    invoiceLoaded "lines" 0 "quantity" (.ofNat 5)
    [.addRow (.parse "lines") .empty true, .deleteRow (.parse "lines") 0] "nn1"
  generalize hf : (start invoiceSchema (.ofMode .edit) .empty .empty ⟨0⟩).run invoiceLoaded = f
    at hgeneral ⊢
  have hready : f.ui.ready = true := by rw [← hf]; decide +kernel
  have hstands := invoice_stands hf
  have hundrawn (k : Nat) (_ : f.ids.last < k) : "nn1" ≠ RowId.named true k := loaded_ne_named k
  have hedited := invoice_editsRows hf
  obtain ⟨added, later, hqueue, hgrown, hresults⟩ := hgeneral hready hstands hundrawn hedited
  generalize hcoll : Path.parse "lines" = coll at hstands hedited hqueue hgrown hresults ⊢
  have hnothing : f.deferred = [] := by
    apply List.length_eq_zero_iff.mp
    rw [← hf]
    decide +kernel
  dsimp only
  generalize hg : f.dispatch (.setValue ((coll.index 0).key "quantity") (.ofNat 5)) = g
    at hqueue hgrown hresults ⊢
  -- The one total that is queued lies with its quantity in the first line.
  have hlevels : g.deferred.map (fun p => (p.listener.source.level, p.listener.level)) =
      [(coll.index 0, coll.index 0)] := by
    rw [← hg, ← hf, ← hcoll]
    decide +kernel
  rw [hgrown, hnothing, List.nil_append] at hlevels
  obtain ⟨p, rfl, hlevel⟩ := List.map_eq_singleton_iff.mp hlevels
  have hinRow : p.listener.InRow coll 0 := ⟨congrArg Prod.fst hlevel, congrArg Prod.snd hlevel⟩
  have hback : g.rowAfter coll [.addRow coll .empty true, .deleteRow coll 0] 0 = some 0 := by
    rw [← hg, ← hf, ← hcoll]
    decide +kernel
  obtain ⟨-, hresult⟩ := hresults p List.mem_cons_self 0 hinRow
  generalize hh : g.run (dispatches [.addRow coll .empty true, .deleteRow coll 0]) = h
    at hqueue hresult ⊢
  have halone : h.deferred = [p] := by
    have hlength : h.deferred.length = 1 := by
      rw [← hh, ← hg, ← hf, ← hcoll]
      decide +kernel
    rw [hqueue, hnothing, List.nil_append, List.singleton_append, List.length_cons] at hlength
    have hnoneLater : later = [] := List.length_eq_zero_iff.mp (Nat.succ.inj hlength)
    rw [hqueue, hnothing, hnoneLater]
    rfl
  have harranged : CompletionOrder.byDelay.arrange h.deferred = [] ++ p :: [] := by
    rw [halone]
    exact List.perm_singleton.mp (CompletionOrder.byDelay.arrange_perm [p])
  have hundisturbed : (h.drained.applyResults []).session.doc.rowIds? coll =
      h.session.doc.rowIds? coll := by
    rw [← hh, ← hg, ← hf, ← hcoll]
    decide +kernel
  obtain ⟨-, -, hspares⟩ := hresult .byDelay [] [] harranged hundisturbed
  exact ⟨hready, hstands, hundrawn, hedited, p, halone, hspares.mpr (.inl hback)⟩

/-- The first line is deleted instead: the second one, which has taken its place, gets the total. -/
theorem deferred_result_strays :
    let coll := Path.parse "lines"
    let f := (start invoiceSchema (.ofMode .edit) .empty .empty ⟨0⟩).run invoiceLoaded
    let h := (f.dispatch (.setValue ((coll.index 0).key "quantity") (.ofNat 5))).dispatch
      (.deleteRow coll 0)
    f.session.doc.rowIds? coll = some [some "nn1", some "nn2"] ∧
      h.session.doc.rowIds? coll = some [some "nn2"] ∧
      h.session.doc.rowsAt coll = [.ofPairs [("cid", .text "nn2"), ("quantity", .ofNat 2)]] ∧
      (h.settleDeferred .byDelay).2.session.doc.rowsAt coll =
        [.ofPairs [("cid", .text "nn2"), ("quantity", .ofNat 2), ("total", .ofNat 5)]] := by
  decide +kernel

end Form

end SchemaForm
