import SchemaForm.Proofs.Form.Draining
import SchemaForm.Proofs.Form.Returning

set_option autoImplicit false
set_option relaxedAutoImplicit false

/-!
Late results. Going back to the initial document and loading another one put a whole document in
place. The queue of deferred recomputations is not part of the document and outlives both: what was
queued for a document that is gone is applied to the one that took its place. Clearing the queue is
what keeps the new document as it is.
-/

namespace SchemaForm

namespace Form

/-- The form after going back to the initial document or loading another one. -/
inductive Restored (f : Form) : Form → Prop where
  | reset : Restored f f.reset
  | reload {answer : Option (Except LoadError Json)} {loaded : Json}
      (hloads : f.LoadsFrom answer loaded) : Restored f (f.initialised true answer)

private theorem finishLoad_deferred (f : Form) (loaded : Json) :
    (f.finishLoad loaded).deferred = f.deferred := by
  have hplaced := apply_deferred (f.readied loaded) (.init (f.initialDocument loaded).1)
  rw [finishLoad_eq]
  exact hplaced

private theorem reset_deferred {f : Form} (hfreed : f.waiting = none) :
    f.reset.deferred = f.deferred := by
  rw [reset_released hfreed, apply_deferred]
  rfl

private theorem Restored.spec {f g : Form} (hfreed : f.waiting = none) (hready : f.ui.ready = true)
    (hrestored : f.Restored g) :
    g.session.doc = g.initialData ∧ g.deferred = f.deferred ∧ g.waiting = none := by
  cases hrestored with
  | reset =>
    refine ⟨(clean_reset hfreed hready).session, reset_deferred hfreed, ?_⟩
    rw [reset_released hfreed, apply_waiting]
    exact hfreed
  | @reload answer loaded hloads =>
    have hstarted : f.wouldLoad true = true := Bool.or_true _
    have hfreed' : (f.beginLoad.finishLoad loaded).waiting = none :=
      (finishLoad_waiting f.beginLoad loaded).trans hfreed
    have htaken : f.initialised true answer = f.beginLoad.finishLoad loaded := by
      rw [initialised_of_initialise (initialise_of_loadsFrom hstarted hloads),
        replay_released hfreed']
    rw [htaken]
    exact ⟨(clean_finishLoad f.beginLoad loaded).session, finishLoad_deferred f.beginLoad loaded,
      hfreed'⟩

private theorem settledDoc_eq_self {doc : Json} {results : List Pending}
    (hidle : ∀ p ∈ results, settledDoc doc [p] = doc) : settledDoc doc results = doc := by
  induction results with
  | nil => rfl
  | cons p results ih =>
    have hfirst : settledDoc doc [p] = doc := hidle p List.mem_cons_self
    calc settledDoc doc (p :: results)
      _ = settledDoc (settledDoc doc [p]) results := rfl
      _ = settledDoc doc results := by rw [hfirst]
      _ = doc := ih fun q hmember => hidle q (List.mem_cons_of_mem p hmember)

private theorem settleDeferred_cleared {f : Form} (hfreed : f.waiting = none)
    (order : CompletionOrder) :
    (f.dispatch .clearDeferredQueue).settleDeferred order =
      (0, f.dispatch .clearDeferredQueue) := by
  have hcleared : (f.dispatch .clearDeferredQueue).deferred = [] := by
    rw [dispatch_released hfreed, apply_deferred]
    rfl
  rw [settleDeferred, if_pos (List.isEmpty_iff.mpr hcleared)]

/-- After going back to the initial document, or loading another one, a form has its initial
document, and still all that was queued before. Draining the queue then applies all of it to that
document. The initial document is never changed by that, in no order and at no moment, exactly when
every single one of the results leaves it alone. Once the queue is cleared nothing of it is applied
any more. -/
theorem late_results_change_restored_iff (schema : Schema) (view : View)
    (registry : OptionRegistry) (fixedData : Json) (ids : RowIds) (ops : List FormOp) :
    let f := (start schema view registry fixedData ids).run ops
    f.ui.ready = true → ∀ g, f.Restored g →
      g.session.doc = g.initialData ∧ g.deferred = f.deferred ∧
      (∀ order : CompletionOrder,
        (g.settleDeferred order).2.initialData = g.initialData ∧
        (g.settleDeferred order).2.session.doc =
          settledDoc g.initialData (order.arrange f.deferred)) ∧
      ((∀ (order : CompletionOrder) (done rest : List Pending),
          order.arrange f.deferred = done ++ rest →
          (g.drained.applyResults done).session.doc = g.initialData) ↔
        ∀ p ∈ f.deferred, settledDoc g.initialData [p] = g.initialData) ∧
      ∀ order : CompletionOrder,
        let (n, h) := (g.dispatch .clearDeferredQueue).settleDeferred order
        n = 0 ∧ h.initialData = g.initialData ∧ h.session.doc = g.initialData := by
  intro f hready g hrestored
  obtain ⟨hsound, -⟩ := sound_run schema view registry fixedData ids ops
  obtain ⟨hplaced, hqueue, hfreed⟩ := hrestored.spec (hsound.ready_iff.mp hready) hready
  have happlied (done : List Pending) :
      (g.drained.applyResults done).session.doc = settledDoc g.initialData done := by
    rw [applyResults_session (drained_waiting hfreed), drained_session hfreed, hplaced]
  refine ⟨hplaced, hqueue, fun order => ⟨?_, ?_⟩, ⟨fun huntouched p hqueued => ?_, ?_⟩,
    fun order => ?_⟩
  · exact (sameOrigin_settleDeferred g order).initialData
  · rw [(settleDeferred_spec hfreed order).2.2.1, hplaced, hqueue]
  · -- Any of the results can be the one that comes in first.
    obtain ⟨before, after, hsplit⟩ := List.append_of_mem hqueued
    have hperm : (p :: (before ++ after)).Perm f.deferred := by
      rw [hsplit]
      exact List.perm_middle.symm
    obtain ⟨order, harranged⟩ := CompletionOrder.exists_arrange hperm
    rw [← happlied]
    exact huntouched order [p] (before ++ after) harranged
  · intro hidle order done rest harranged
    rw [happlied]
    refine settledDoc_eq_self fun p hmember => hidle p ?_
    have harrived : p ∈ order.arrange f.deferred := by
      rw [harranged]
      exact List.mem_append_left rest hmember
    exact (order.arrange_perm f.deferred).mem_iff.mp harrived
  · rw [settleDeferred_cleared hfreed]
    have hsame := sameOrigin_dispatch g .clearDeferredQueue
    refine ⟨rfl, hsame.initialData, ?_⟩
    rw [dispatch_released hfreed, apply_session, ← hplaced]
    rfl

private def markLater : Defer := fun _ _ _ _ => some ⟨0, fun _ _ _ _ => some [("late", .ofNat 1)]⟩

private def markedSchema : Schema :=
  ⟨[.input { FieldTraits.plain with id := some "name", defer := some markLater } .text], .plain⟩

private def markedEdits : List FormOp :=
  [.initialise false (some (.ok (.ofPairs [("name", .text "a")]))),
    .dispatch (.setValue (.parse "name") (.text "b"))]

/-- A name is written and taken back. The queue of the written name is cleared, and the document
stays as it was loaded. -/
theorem late_results_change_restored_iff_cleared :
    let f := (start markedSchema (.ofMode .edit) .empty .empty ⟨0⟩).run markedEdits
    f.ui.ready = true ∧ f.Restored f.reset ∧ f.reset.deferred.length = 1 ∧
      f.reset.session.doc = f.reset.initialData ∧
      ((f.reset.dispatch .clearDeferredQueue).settleDeferred .byDelay).2.session.doc =
        f.reset.initialData := by
  have hready : ((start markedSchema (.ofMode .edit) .empty .empty ⟨0⟩).run
      markedEdits).ui.ready = true := by decide +kernel
  obtain ⟨hplaced, -, -, -, hcleared⟩ := late_results_change_restored_iff markedSchema
    (.ofMode .edit) .empty .empty ⟨0⟩ markedEdits hready _ .reset
  exact ⟨hready, .reset, by decide +kernel, hplaced, (hcleared .byDelay).2.2⟩

/-- Without that the name that was taken back marks the document, and so it does a document that is
loaded instead. -/
theorem late_result_changes_restored :
    let f := (start markedSchema (.ofMode .edit) .empty .empty ⟨0⟩).run markedEdits
    let back := f.reset
    let reloaded := f.initialised true (some (.ok (.ofPairs [("name", .text "c")])))
    f.ui.ready = true ∧
      back.session.doc = .ofPairs [("name", .text "a")] ∧
      (back.settleDeferred .byDelay).2.initialData = .ofPairs [("name", .text "a")] ∧
      (back.settleDeferred .byDelay).2.session.doc =
        .ofPairs [("name", .text "a"), ("late", .ofNat 1)] ∧
      (reloaded.settleDeferred .byDelay).2.initialData = .ofPairs [("name", .text "c")] ∧
      (reloaded.settleDeferred .byDelay).2.session.doc =
        .ofPairs [("name", .text "c"), ("late", .ofNat 1)] ∧
      (back.settleDeferred .byDelay).2.session.doc ≠
        (back.settleDeferred .byDelay).2.initialData := by
  decide +kernel

end Form

end SchemaForm
