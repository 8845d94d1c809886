import SchemaForm.Proofs.Form.Coherence

set_option autoImplicit false
set_option relaxedAutoImplicit false

/-!
The options that a form publishes. Only applying an action makes them, and it makes them from the
document, so that in every state a run reaches they are those of the document, or none were made.
-/

namespace SchemaForm

namespace Form

/-- The form publishes the options of its document, or none. -/
def Published (f : Form) : Prop :=
  f.options.state = .empty ∨
    f.options.state.same (f.registry.tree f.schema f.session.doc f.view) = true

private theorem published_apply (f : Form) (action : Action) : (f.apply action).Published := by
  have hmade := apply_setting f action
  simp only [setting, Setting.mk.injEq] at hmade
  obtain ⟨hschema, hview, hregistry, -⟩ := hmade
  have hset := Store.same_set f.options
    (f.registry.tree f.schema (f.apply action).session.doc f.view)
  rw [← apply_options] at hset
  rw [Published, hschema, hview, hregistry]
  exact .inr hset

variable {f : Form}

private theorem Published.display (h : f.Published) (ui : Ui) : (f.display ui).Published := h

private theorem Published.tell (h : f.Published) (events : List FormEvent) :
    (f.tell events).Published := h

private theorem published_foldl (h : f.Published) (actions : List Action) :
    (actions.foldl Form.apply f).Published := by
  induction actions generalizing f with
  | nil => exact h
  | cons action actions ih => exact ih (published_apply f action)

private theorem Published.dispatch (h : f.Published) (action : Action) :
    (f.dispatch action).Published := by
  unfold Form.dispatch
  split
  · exact h
  · exact published_apply f action

private theorem Published.replay (h : f.Published) : f.replay.Published :=
  published_foldl (f := { f with waiting := none }) h (f.waiting.getD [])

private theorem published_finishLoad (f : Form) (loaded : Json) :
    (f.finishLoad loaded).Published := by
  rw [finishLoad_eq]
  exact (published_apply (f.readied loaded) _).display _

private theorem Published.initialised (h : f.Published) (force : Bool)
    (answer : Option (Except LoadError Json)) : (f.initialised force answer).Published := by
  rcases initialised_cases f force answer with ⟨hidle, -⟩ | ⟨loaded, htaken⟩ | ⟨e, hfailed⟩
  · rw [hidle]
    exact h
  · rw [htaken]
    exact (published_finishLoad f.beginLoad loaded).replay
  · have hshown : (f.beginLoad.failLoad e).Published := (h.display _).display _
    rw [hfailed]
    exact hshown.replay

private theorem Published.applyResults (h : f.Published) (results : List Pending) :
    (f.applyResults results).Published := by
  induction results generalizing f with
  | nil => exact h
  | cons p results ih => exact ih (h.dispatch _)

private theorem Published.settleDeferred (h : f.Published) (order : CompletionOrder) :
    (f.settleDeferred order).2.Published := by
  induction f using settleDeferred.induct order with
  | case1 f hempty =>
    rw [Form.settleDeferred, if_pos hempty]
    exact h
  | case2 f hpending count settled _ ih =>
    have hcleared : ({ f with deferred := [] } : Form).Published := h
    rw [Form.settleDeferred, if_neg hpending]
    exact ih ((hcleared.dispatch .clearDeferredQueue).applyResults (order.arrange f.deferred))

private theorem Published.setInitial (h : f.Published) (p : Path) (value : Json) :
    (f.setInitial p value).Published := by
  unfold Form.setInitial
  split
  · exact h
  · obtain ⟨value, ids⟩ := RowId.stamp false f.ids value
    have hreplaced : ({ f with
      ids := ids, initialData := f.initialData.setAt p value } : Form).Published := h
    exact hreplaced.dispatch _

private theorem Published.reset (h : f.Published) : f.reset.Published := by
  have hreplaced : ({ f with
    initialData := f.schema.initialised f.initialData } : Form).Published := h
  exact hreplaced.dispatch _

private theorem Published.save (h : f.Published) (failure : Option String) :
    (f.save failure).1.Published := by
  unfold Form.save
  split
  · have hbegun : f.beginSave.Published := (h.display _).tell _
    cases failure with
    | none => exact hbegun.display _
    | some message => exact hbegun.display _
  · exact h

private theorem Published.validate (h : f.Published) : f.validate.Published := by
  rw [validate_eq]
  exact h

private theorem Published.withStore (h : f.Published) (kind : StoreKind) {s : Store}
    (hsame : s.state = (f.store kind).state) : (f.withStore kind s).Published := by
  cases kind with
  | options =>
    have hstate : s.state = f.options.state := hsame
    rw [Published, ← hstate] at h
    exact h
  | data => exact h
  | states => exact h

private theorem Published.perform (h : f.Published) (op : FormOp) : (f.perform op).Published := by
  cases op with
  | dispatch action => exact h.dispatch action
  | initialise force answer => exact h.initialised force answer
  | validate => exact h.validate
  | settleDeferred order => exact h.settleDeferred order
  | setInitial p value => exact h.setInitial p value
  | reset => exact h.reset
  | save failure => exact h.save failure
  | report p => exact h.display _
  | clearMessage => exact h.display _
  | subscribe kind => exact h.withStore kind rfl
  | subscribeAt kind p => exact h.withStore kind rfl
  | unsubscribe kind id => exact h.withStore kind rfl

/-- In every state that a run reaches, the form publishes the options of its document or none. -/
theorem published_run (schema : Schema) (view : View) (registry : OptionRegistry) (fixedData : Json)
    (ids : RowIds) (ops : List FormOp) :
    ((start schema view registry fixedData ids).run ops).Published :=
  run_induction (fun _ op h => h.perform op) (.inl rfl) ops

end Form

end SchemaForm
