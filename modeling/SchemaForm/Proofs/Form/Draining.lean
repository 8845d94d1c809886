import SchemaForm.Proofs.Form.Coherence

set_option autoImplicit false
set_option relaxedAutoImplicit false

/-!
The drain of the queue. Deferred recomputations are done in any order, but each of them exactly
once: applying a result never puts anything back into the queue, so that one round empties it.
-/

namespace SchemaForm

namespace CompletionOrder

open Classical in
theorem exists_arrange {queue completed : List Pending} (hperm : completed.Perm queue) :
    ∃ order : CompletionOrder, order.arrange queue = completed := by
  have hpermutes (other : List Pending) :
      (if other = queue then completed else other).Perm other := by
    split
    · rename_i hsame
      exact hsame ▸ hperm
    · exact .refl other
  exact ⟨⟨fun other => if other = queue then completed else other, hpermutes⟩, if_pos rfl⟩

end CompletionOrder

namespace Form

/-- A document after the results of recomputations, each computed from the document it finds. -/
def settledDoc (doc : Json) (results : List Pending) : Json :=
  results.foldl (fun doc p =>
    p.listener.apply p.deferral.recompute { p.context with before := doc } doc) doc

/-- The form whose queue was just taken, and told that it is empty. -/
def drained (f : Form) : Form := ({ f with deferred := [] } : Form).dispatch .clearDeferredQueue

private theorem drained_eq {f : Form} (hfreed : f.waiting = none) :
    f.drained = ({ f with deferred := [] } : Form).apply .clearDeferredQueue :=
  dispatch_released (f := { f with deferred := [] }) hfreed _

theorem drained_session {f : Form} (hfreed : f.waiting = none) :
    f.drained.session = ⟨f.session.doc, f.session.changeId + 1⟩ := by
  rw [drained_eq hfreed, apply_session]
  rfl

theorem drained_waiting {f : Form} (hfreed : f.waiting = none) : f.drained.waiting = none := by
  rw [drained_eq hfreed, apply_waiting]
  exact hfreed

private theorem drained_deferred (f : Form) : f.drained.deferred = [] :=
  dispatch_deferred_eq_nil rfl (by simp [Action.kind])

/-- Every result is one reduction, of the document that the results before it left. -/
theorem applyResults_session {f : Form} (hfreed : f.waiting = none) (results : List Pending) :
    (f.applyResults results).session =
      ⟨settledDoc f.session.doc results, f.session.changeId + results.length⟩ := by
  induction results generalizing f with
  | nil => rfl
  | cons p results ih =>
    let action : Action := .deferredDepChange p.listener p.deferral.recompute p.context
    have hstill : (f.apply action).waiting = none := (apply_waiting f action).trans hfreed
    have hreduced : (f.apply action).session =
        ⟨p.listener.apply p.deferral.recompute { p.context with before := f.session.doc }
          f.session.doc, f.session.changeId + 1⟩ := by
      rw [apply_session]
      rfl
    calc (f.applyResults (p :: results)).session
      _ = ((f.apply action).applyResults results).session := by
          rw [← dispatch_released hfreed]
          rfl
      _ = ⟨settledDoc f.session.doc (p :: results),
            f.session.changeId + (p :: results).length⟩ := by
          rw [ih hstill, hreduced, List.length_cons]
          simp only [settledDoc, List.foldl_cons, Nat.add_assoc, Nat.add_comm 1]

/-- A queue that is not empty is settled in one round. -/
theorem settleDeferred_of_pending {f : Form} (hpending : f.deferred ≠ [])
    (order : CompletionOrder) :
    f.settleDeferred order =
      ((order.arrange f.deferred).length, f.drained.applyResults (order.arrange f.deferred)) := by
  have hsettled : (f.settleRound order).deferred = [] := settleRound_deferred f order
  have hfinished : (f.settleRound order).settleDeferred order = (0, f.settleRound order) := by
    rw [settleDeferred, if_pos (List.isEmpty_iff.mpr hsettled)]
  have hunsettled : ¬ f.deferred.isEmpty = true := fun hempty =>
    hpending (List.isEmpty_iff.mp hempty)
  rw [settleDeferred, if_neg hunsettled, hfinished]
  rfl

theorem settleDeferred_spec {f : Form} (hfreed : f.waiting = none) (order : CompletionOrder) :
    (f.settleDeferred order).1 = f.deferred.length ∧
    (f.settleDeferred order).2.deferred = [] ∧
    (f.settleDeferred order).2.session.doc =
      settledDoc f.session.doc (order.arrange f.deferred) ∧
    (f.settleDeferred order).2.session.changeId =
      f.session.changeId + if f.deferred = [] then 0 else f.deferred.length + 1 := by
  have hperm := order.arrange_perm f.deferred
  by_cases hempty : f.deferred = []
  · have hnothing : order.arrange f.deferred = [] := by
      rw [hempty] at hperm ⊢
      exact hperm.eq_nil
    have hidle : f.settleDeferred order = (0, f) := by
      rw [settleDeferred, if_pos (List.isEmpty_iff.mpr hempty)]
    rw [hidle, hnothing, if_pos hempty]
    exact ⟨(List.length_eq_zero_iff.mpr hempty).symm, hempty, rfl, rfl⟩
  · have hsession := applyResults_session (drained_waiting hfreed) (order.arrange f.deferred)
    rw [drained_session hfreed] at hsession
    rw [settleDeferred_of_pending hempty, if_neg hempty, hsession, hperm.length_eq]
    refine ⟨rfl, applyResults_deferred (drained_deferred f) _, rfl, ?_⟩
    simp only [Nat.add_assoc, Nat.add_comm 1]

/-- Draining the queue of a ready form applies every deferred recomputation in it exactly once, in
whatever order they are done, each to the document that those before it left. The queue is empty
from the first result on, and the drain is one reduction for each result and one more. -/
theorem settleDeferred_exactly_once (schema : Schema) (view : View) (registry : OptionRegistry)
    (fixedData : Json) (ids : RowIds) (ops : List FormOp) :
    let f := (start schema view registry fixedData ids).run ops
    f.ui.ready = true →
    (∀ completed, completed.Perm f.deferred →
      ∃ order : CompletionOrder, order.arrange f.deferred = completed) ∧
    ∀ order : CompletionOrder,
      let completed := order.arrange f.deferred
      let (n, g) := f.settleDeferred order
      completed.Perm f.deferred ∧
      n = f.deferred.length ∧
      g.deferred = [] ∧
      g.session.doc = completed.foldl (fun doc p =>
        p.listener.apply p.deferral.recompute { p.context with before := doc } doc) f.session.doc ∧
      g.session.changeId = f.session.changeId + (if n = 0 then 0 else n + 1) ∧
      ∀ done rest, completed = done ++ rest → (f.drained.applyResults done).deferred = [] := by
  intro f hready
  obtain ⟨hsound, -⟩ := sound_run schema view registry fixedData ids ops
  have hfreed : f.waiting = none := hsound.ready_iff.mp hready
  refine ⟨fun completed hperm => CompletionOrder.exists_arrange hperm, fun order => ?_⟩
  obtain ⟨hcount, hempty, hdoc, hchangeId⟩ := settleDeferred_spec hfreed order
  refine ⟨order.arrange_perm f.deferred, hcount, hempty, hdoc, ?_, fun done rest _ => ?_⟩
  · simp only [hchangeId, hcount, List.length_eq_zero_iff]
  · exact applyResults_deferred (drained_deferred f) done

private def noteLater : Defer := fun _ _ _ context =>
  some ⟨0, fun level _ _ _ =>
    match context.value, level.get? "notes" with
    | some (.text value), some (.text notes) => some [("notes", .text (value ++ notes))]
    | some (.text value), _ => some [("notes", .text value)]
    | _, _ => none⟩

/-- A form in which two deferred recomputations are queued. -/
private def noted : Form :=
  (start ⟨[.input { FieldTraits.plain with id := some "name", defer := some noteLater } .text],
      .plain⟩ (.ofMode .create) .empty .empty ⟨0⟩).run
    [.dispatch (.setValue (Path.root.key "name") (.text "a")),
      .initialise false (some (.ok (.ofPairs [("name", .text "")]))),
      .dispatch (.setValue (Path.root.key "name") (.text "b"))]

theorem settleDeferred_exactly_once_noted :
    let order : CompletionOrder := ⟨List.reverse, List.reverse_perm⟩
    let (n, g) := noted.settleDeferred order
    noted.ui.ready = true ∧ noted.deferred.length = 2 ∧ n = 2 ∧ g.deferred = [] ∧
      (g.session.doc.get? "notes").bind Json.text? = some "ab" ∧
      g.session.changeId = noted.session.changeId + 3 := by
  intro order
  have hready : noted.ui.ready = true := by decide +kernel
  have hqueued : noted.deferred.length = 2 := by decide +kernel
  obtain ⟨-, hdrained⟩ := settleDeferred_exactly_once _ _ _ _ _ _ hready
  obtain ⟨-, hcount, hempty, hdoc, hchangeId, -⟩ := hdrained order
  have htwo : (noted.settleDeferred order).1 = 2 := hcount.trans hqueued
  refine ⟨hready, hqueued, htwo, hempty, ?_, ?_⟩
  · have hwritten : (((order.arrange noted.deferred).foldl (fun doc p => p.listener.apply
        p.deferral.recompute { p.context with before := doc } doc) noted.session.doc).get?
          "notes").bind Json.text? = some "ab" := by
      decide +kernel
    exact (congrArg (fun doc : Json => (doc.get? "notes").bind Json.text?) hdoc).trans hwritten
  · have hgrown : (noted.settleDeferred order).2.session.changeId = noted.session.changeId +
        if (noted.settleDeferred order).1 = 0 then 0 else (noted.settleDeferred order).1 + 1 :=
      hchangeId
    rw [htwo] at hgrown
    exact hgrown

end Form

end SchemaForm
