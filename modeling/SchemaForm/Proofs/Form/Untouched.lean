import SchemaForm.Proofs.Form.Lifecycle

set_option autoImplicit false
set_option relaxedAutoImplicit false

/-!
Forms that no action was applied to. A form is ready without a document if its load failed and no
action waited for it. Then both of its documents are empty, and it has no mark of changes; so the
mark is that of the documents in every state that a run reaches, and not only after an action.
-/

namespace SchemaForm

namespace Form

private theorem diff_eq_nil_of_empty {f : Form} (hinitial : f.initialData = .empty)
    (hdoc : f.session.doc = .empty) (includeSkipChange : Bool) : f.diff includeSkipChange = [] := by
  rw [diff, hinitial, hdoc]
  exact Schema.diff_self _ fun id child _ => List.nodup_nil

/-- The form has an empty document, and no mark of changes. Its initial document was not touched
either, unless actions wait. -/
structure Untouched (f : Form) : Prop where
  doc : f.session.doc = .empty
  clean : f.ui.dirty = false
  initialData : f.waiting.getD [] = [] → f.initialData = .empty

section Untouched

variable {f : Form}

private theorem untouched_dispatch (hdoc : f.session.doc = .empty) (hclean : f.ui.dirty = false)
    {action : Action} (hwaits : f.dispatched action = []) : (f.dispatch action).Untouched := by
  unfold dispatched at hwaits
  unfold dispatch
  cases hqueue : f.waiting with
  | none =>
    rw [hqueue] at hwaits
    cases hwaits
  | some queue => exact ⟨hdoc, hclean, fun hnoneWaits => by simp at hnoneWaits⟩

private theorem Untouched.display (h : f.Untouched) {ui : Ui} (hsame : ui.dirty = f.ui.dirty) :
    (f.display ui).Untouched := ⟨h.doc, hsame.trans h.clean, h.initialData⟩

private theorem Untouched.tell (h : f.Untouched) (events : List FormEvent) :
    (f.tell events).Untouched :=
  ⟨h.doc, h.clean, h.initialData⟩

private theorem Untouched.withStore (h : f.Untouched) (kind : StoreKind) (s : Store) :
    (f.withStore kind s).Untouched := by
  cases kind <;> exact ⟨h.doc, h.clean, h.initialData⟩

private theorem Untouched.save (h : f.Untouched) (failure : Option String) :
    (f.save failure).1.Untouched := by
  unfold Form.save
  split
  · have hshown : (f.display { f.ui with saving := true, message := Ui.savingMessage }).Untouched :=
      h.display rfl
    have hbegun : f.beginSave.Untouched := hshown.tell _
    cases failure with
    | none => exact hbegun.display rfl
    | some message => exact hbegun.display rfl
  · exact h

private theorem Untouched.applyResults (h : f.Untouched) {results : List Pending}
    (hwait : ∀ p ∈ results, f.dispatched (resultOf p) = []) :
    (f.applyResults results).Untouched := by
  induction results generalizing f with
  | nil => exact h
  | cons p results ih =>
    refine ih (untouched_dispatch h.doc h.clean (hwait p List.mem_cons_self)) fun q hlater => ?_
    rw [dispatched_dispatch]
    exact hwait q (List.mem_cons_of_mem p hlater)

private theorem Untouched.settleDeferred (h : f.Untouched) {order : CompletionOrder}
    (hnothing : f.applied (.settleDeferred order) = []) : (f.settleDeferred order).2.Untouched := by
  by_cases hempty : f.deferred = []
  · rw [Form.settleDeferred, if_pos (List.isEmpty_iff.mpr hempty)]
    exact h
  · rw [applied, if_neg (by simpa using hempty), List.flatMap_eq_nil_iff] at hnothing
    obtain ⟨hcleared, hresults⟩ := List.forall_mem_cons.mp hnothing
    have hdrained : f.drained.Untouched :=
      untouched_dispatch (f := { f with deferred := [] }) h.doc h.clean hcleared
    rw [settleDeferred_of_pending hempty]
    refine hdrained.applyResults fun p hpending => ?_
    rw [Form.drained, dispatched_dispatch]
    exact hresults _ (List.mem_map_of_mem hpending)

private theorem Untouched.initialised (h : f.Untouched) {force : Bool}
    {answer : Option (Except LoadError Json)}
    (hnothing : f.applied (.initialise force answer) = []) :
    (f.initialised force answer).Untouched := by
  cases hloads : f.wouldLoad force with
  | false =>
    rw [initialised_of_idle hloads]
    exact h
  | true =>
    simp only [applied, hloads, if_true] at hnothing
    simp only [Form.initialised, initialise, hloads, Bool.not_true, Bool.false_eq_true, if_false]
    cases answer with
    | none =>
      cases hcreates : f.creates with
      | false => exact h
      | true => simp [loadedBy, hcreates] at hnothing
    | some result =>
      cases result with
      | ok loaded => cases hnothing
      | error e =>
        have hbegun : f.beginLoad.Untouched := h.display rfl
        have hfailed : (f.beginLoad.failLoad e).Untouched := hbegun.display rfl
        have hnoneWaits : (f.beginLoad.failLoad e).waiting.getD [] = [] := by
          rw [failLoad_waiting, beginLoad, display_waiting]
          exact hnothing
        simp only [replay_of_empty hnoneWaits]
        exact ⟨hfailed.doc, hfailed.clean, fun _ => hfailed.initialData hnoneWaits⟩

private theorem Untouched.perform (h : f.Untouched) (hsound : f.Sound) {op : FormOp}
    (hnothing : f.applied op = []) : (f.perform op).Untouched := by
  cases op with
  | dispatch action => exact untouched_dispatch h.doc h.clean hnothing
  | initialise force answer => exact h.initialised hnothing
  | validate =>
    rw [Form.perform]
    cases hready : f.ui.ready with
    | false =>
      rw [validate, if_neg (by simp [hready])]
      exact h
    | true =>
      have hinitial := h.initialData (by rw [hsound.ready_iff.mp hready, Option.getD_none])
      have hunmarked : f.validate.ui.dirty = false := by
        rw [validate_of_ready hready, diff_eq_nil_of_empty hinitial h.doc]
        rfl
      rw [validate_eq] at hunmarked ⊢
      exact ⟨h.doc, hunmarked, h.initialData⟩
  | settleDeferred order => exact h.settleDeferred hnothing
  | setInitial p value =>
    simp only [Form.perform, Form.setInitial]
    split
    · exact h
    · rename_i hinside
      rw [applied, if_neg hinside] at hnothing
      let stamped := RowId.stamp false f.ids value
      exact untouched_dispatch
        (f := { f with ids := stamped.2, initialData := f.initialData.setAt p stamped.1 })
        h.doc h.clean hnothing
  | reset =>
    exact untouched_dispatch (f := { f with initialData := f.schema.initialised f.initialData })
      h.doc h.clean hnothing
  | save failure => exact h.save failure
  | report p => exact h.display rfl
  | clearMessage => exact h.display rfl
  | subscribe kind => exact h.withStore kind _
  | subscribeAt kind p => exact h.withStore kind _
  | unsubscribe kind id => exact h.withStore kind _

end Untouched

private theorem untouched_run (schema : Schema) (view : View) (registry : OptionRegistry)
    (fixedData : Json) (ids : RowIds) (ops : List FormOp)
    (hunreduced : ((start schema view registry fixedData ids).run ops).session.changeId = 0) :
    ((start schema view registry fixedData ids).run ops).Untouched := by
  have hstep (f : Form) (op : FormOp) (h : f.Sound ∧ (f.session.changeId = 0 → f.Untouched)) :
      (f.perform op).Sound ∧ ((f.perform op).session.changeId = 0 → (f.perform op).Untouched) := by
    refine ⟨(h.1.perform op).1, fun hsame => ?_⟩
    -- Reductions are counted, so neither the operation applied an action nor did any before it.
    rw [(reaches_perform f op).changeId, Nat.add_eq_zero_iff, List.length_eq_zero_iff] at hsame
    exact (h.2 hsame.1).perform h.1 hsame.2
  have hkept := run_induction (P := fun f => f.Sound ∧ (f.session.changeId = 0 → f.Untouched)) hstep
    ⟨sound_start schema view registry fixedData ids, fun _ => ⟨rfl, rfl, fun _ => rfl⟩⟩ ops
  exact hkept.2 hunreduced

theorem session_of_unreduced {schema : Schema} {view : View} {registry : OptionRegistry}
    {fixedData : Json} {ids : RowIds} (ops : List FormOp)
    (h : ((start schema view registry fixedData ids).run ops).session.changeId = 0) :
    ((start schema view registry fixedData ids).run ops).session.doc = .empty :=
  (untouched_run schema view registry fixedData ids ops h).doc

/-- In every state that a run reaches, a form that is ready is marked as changed exactly if its
documents differ in a field that counts. -/
theorem dirty_run (schema : Schema) (view : View) (registry : OptionRegistry) (fixedData : Json)
    (ids : RowIds) (ops : List FormOp) :
    let f := (start schema view registry fixedData ids).run ops
    f.ui.ready = true → f.ui.dirty = !(f.diff false).isEmpty := by
  intro f hready
  have hsound : f.Sound := (sound_run schema view registry fixedData ids ops).1
  by_cases hunreduced : f.session.changeId = 0
  · have huntouched : f.Untouched := untouched_run schema view registry fixedData ids ops hunreduced
    have hinitial := huntouched.initialData (by rw [hsound.ready_iff.mp hready, Option.getD_none])
    rw [huntouched.clean, diff_eq_nil_of_empty hinitial huntouched.doc]
    rfl
  · exact (hsound.inStep hready hunreduced).dirty

end Form

end SchemaForm
