import SchemaForm.Proofs.Form.Draining
import SchemaForm.Proofs.Form.Waiting

set_option autoImplicit false
set_option relaxedAutoImplicit false

/-!
The history of a form. Whatever is done with a form, its document and its listeners only change by
applying actions. Every operation is said here to apply certain actions, in order, so that a fact
about all reached states can be proved of one action at a time.
-/

namespace SchemaForm

namespace Form

/-- The second form has the document of the first, and its listeners. -/
structure Rests (f g : Form) : Prop where
  schema : g.schema = f.schema
  session : g.session = f.session
  graph : g.graph = f.graph
  rowCounts : g.rowCounts = f.rowCounts

private theorem Rests.refl (f : Form) : f.Rests f := ⟨rfl, rfl, rfl, rfl⟩

theorem Rests.trans {f g h : Form} (hfirst : f.Rests g) (hsecond : g.Rests h) : f.Rests h :=
  ⟨hsecond.schema.trans hfirst.schema, hsecond.session.trans hfirst.session,
    hsecond.graph.trans hfirst.graph, hsecond.rowCounts.trans hfirst.rowCounts⟩

/-- The actions lead from one form to another: they are applied in order, and nothing that happens
before, between or after them touches the document or the listeners. -/
inductive Reaches : Form → List Action → Form → Prop where
  | rest {f g : Form} (hstill : f.Rests g) : Reaches f [] g
  | apply {f g h : Form} {action : Action} {actions : List Action} (hstill : f.Rests g)
      (hlater : Reaches (g.apply action) actions h) : Reaches f (action :: actions) h

private theorem Reaches.refl (f : Form) : Reaches f [] f := .rest (.refl f)

private theorem Reaches.after_rest {f g h : Form} {actions : List Action} (hstill : f.Rests g)
    (hreaches : Reaches g actions h) : Reaches f actions h := by
  cases hreaches with
  | rest hlater => exact .rest (hstill.trans hlater)
  | apply hlater hreaches => exact .apply (hstill.trans hlater) hreaches

private theorem Reaches.append {f g h : Form} {actions actions' : List Action}
    (hfirst : Reaches f actions g) (hsecond : Reaches g actions' h) :
    Reaches f (actions ++ actions') h := by
  induction hfirst with
  | rest hstill => exact hsecond.after_rest hstill
  | apply hstill _ ih => exact .apply hstill (ih hsecond)

private theorem reaches_apply (f : Form) (action : Action) : Reaches f [action] (f.apply action) :=
  .apply (.refl f) (.refl _)

private theorem reaches_foldl (f : Form) (actions : List Action) :
    Reaches f actions (actions.foldl Form.apply f) := by
  induction actions generalizing f with
  | nil => exact .refl f
  | cons action actions ih => exact .apply (.refl f) (ih (f.apply action))

/-! ### The actions that an operation applies -/

/-- An action is applied when it is dispatched, unless it waits. -/
def dispatched (f : Form) (action : Action) : List Action :=
  match f.waiting with
  | some _ => []
  | none => [action]

/-- What the answer of a loader makes the form apply: the initial document if there is one, and the
actions that waited. -/
def loadedBy (f : Form) : Option (Except LoadError Json) → List Action
  | none => if f.creates then .init (f.initialDocument .empty).1 :: f.waiting.getD [] else []
  | some (.ok loaded) => .init (f.initialDocument loaded).1 :: f.waiting.getD []
  | some (.error _) => f.waiting.getD []

def resultOf (p : Pending) : Action := .deferredDepChange p.listener p.deferral.recompute p.context

/-- The actions that an operation applies. -/
def applied (f : Form) : FormOp → List Action
  | .dispatch action => f.dispatched action
  | .initialise force answer => if f.wouldLoad force then f.loadedBy answer else []
  | .settleDeferred order =>
    if f.deferred.isEmpty then []
    else (.clearDeferredQueue :: (order.arrange f.deferred).map resultOf).flatMap f.dispatched
  | .setInitial p value =>
    if p.isRoot then [] else f.dispatched (.setValue p (RowId.stamp false f.ids value).1)
  | .reset => f.dispatched (.init (f.schema.initialised f.initialData))
  | .validate | .save _ | .report _ | .clearMessage | .subscribe _ | .subscribeAt _ _
  | .unsubscribe _ _ => []

def history (f : Form) : List FormOp → List Action
  | [] => []
  | op :: ops => f.applied op ++ (f.perform op).history ops

section Rests

variable (f : Form)

theorem rests_publish (kind : StoreKind) (next : Json) : f.Rests (f.publish kind next) := by
  cases kind <;> exact ⟨rfl, rfl, rfl, rfl⟩

theorem rests_display (ui : Ui) : f.Rests (f.display ui) := ⟨rfl, rfl, rfl, rfl⟩

private theorem rests_tell (events : List FormEvent) :
    f.Rests (f.tell events) := ⟨rfl, rfl, rfl, rfl⟩

private theorem rests_withStore (kind : StoreKind) (s : Store) : f.Rests (f.withStore kind s) := by
  cases kind <;> exact ⟨rfl, rfl, rfl, rfl⟩

theorem rests_validate : f.Rests f.validate := by
  rw [validate_eq]
  exact ⟨rfl, rfl, rfl, rfl⟩

theorem rests_save (failure : Option String) : f.Rests (f.save failure).1 := by
  unfold save
  split
  · have hbegun : f.Rests f.beginSave := (rests_display f _).trans (rests_tell _ _)
    cases failure with
    | none => exact hbegun.trans (rests_display _ _)
    | some message => exact hbegun.trans (rests_display _ _)
  · exact .refl f

end Rests

private theorem reaches_dispatch (f : Form) (action : Action) :
    Reaches f (f.dispatched action) (f.dispatch action) := by
  unfold dispatched dispatch
  cases f.waiting with
  | some queue => exact .rest ⟨rfl, rfl, rfl, rfl⟩
  | none => exact reaches_apply f action

theorem dispatched_dispatch (f : Form) (action : Action) :
    (f.dispatch action).dispatched = f.dispatched := by
  funext later
  cases hwaits : f.waiting with
  | some queue => simp only [dispatched, dispatch, hwaits]
  | none => simp only [dispatched, dispatch_released hwaits, apply_waiting, hwaits]

private theorem reaches_applyResults (f : Form) (results : List Pending) :
    Reaches f ((results.map resultOf).flatMap f.dispatched) (f.applyResults results) := by
  induction results generalizing f with
  | nil => exact .refl f
  | cons p results ih =>
    have hfirst := reaches_dispatch f (resultOf p)
    have hlater := ih (f.dispatch (resultOf p))
    rw [dispatched_dispatch] at hlater
    rw [List.map_cons, List.flatMap_cons]
    exact hfirst.append hlater

private theorem reaches_settleDeferred (f : Form) (order : CompletionOrder) :
    Reaches f (f.applied (.settleDeferred order)) (f.settleDeferred order).2 := by
  simp only [applied]
  cases hempty : f.deferred.isEmpty with
  | true =>
    rw [settleDeferred, if_pos hempty, if_pos rfl]
    exact .refl f
  | false =>
    have hpending : f.deferred ≠ [] := by simpa using hempty
    have htaken : f.Rests { f with deferred := [] } := ⟨rfl, rfl, rfl, rfl⟩
    have hcleared := reaches_dispatch { f with deferred := [] } .clearDeferredQueue
    have hsettled := reaches_applyResults f.drained (order.arrange f.deferred)
    rw [drained, dispatched_dispatch] at hsettled
    rw [settleDeferred_of_pending hpending, if_neg (by simp), List.flatMap_cons]
    exact (hcleared.append hsettled).after_rest htaken

private theorem reaches_replay (f : Form) : Reaches f (f.waiting.getD []) f.replay := by
  have hfreed : f.Rests (f.awaiting none) := ⟨rfl, rfl, rfl, rfl⟩
  exact (reaches_foldl (f.awaiting none) (f.waiting.getD [])).after_rest hfreed

theorem reaches_finishLoad (f : Form) (loaded : Json) :
    Reaches f [.init (f.initialDocument loaded).1] (f.finishLoad loaded) := by
  have hreadied : f.Rests (f.readied loaded) := ⟨rfl, rfl, rfl, rfl⟩
  rw [finishLoad_eq]
  exact .apply hreadied (.rest (rests_display _ _))

private theorem reaches_initialised (f : Form) (force : Bool)
    (answer : Option (Except LoadError Json)) :
    Reaches f (f.applied (.initialise force answer)) (f.initialised force answer) := by
  have hbegun : f.Rests f.beginLoad := rests_display f _
  have hloaded (doc : Json) :
      Reaches f (.init (f.initialDocument doc).1 :: f.waiting.getD [])
        (f.beginLoad.finishLoad doc).replay := by
    have hsame : f.beginLoad.initialDocument doc = f.initialDocument doc := rfl
    have htaken := reaches_finishLoad f.beginLoad doc
    have hreplayed := reaches_replay (f.beginLoad.finishLoad doc)
    rw [finishLoad_waiting, beginLoad, display_waiting, ← beginLoad] at hreplayed
    rw [hsame] at htaken
    exact (htaken.append hreplayed).after_rest hbegun
  have hfailed (e : LoadError) : Reaches f (f.waiting.getD []) (f.beginLoad.failLoad e).replay := by
    have hshown : f.beginLoad.Rests (f.beginLoad.failLoad e) := rests_display f.beginLoad _
    have hreplayed := reaches_replay (f.beginLoad.failLoad e)
    rw [failLoad_waiting, beginLoad, display_waiting, ← beginLoad] at hreplayed
    exact hreplayed.after_rest (hbegun.trans hshown)
  simp only [applied, initialised, initialise]
  cases f.wouldLoad force with
  | false => exact .refl f
  | true =>
    cases answer with
    | none =>
      simp only [loadedBy]
      cases f.creates with
      | false => exact .refl f
      | true => exact hloaded .empty
    | some result =>
      cases result with
      | ok doc => exact hloaded doc
      | error e => exact hfailed e

private theorem reaches_setInitial (f : Form) (p : Path) (value : Json) :
    Reaches f (f.applied (.setInitial p value)) (f.setInitial p value) := by
  simp only [applied, setInitial]
  split
  · exact .refl f
  · let stamped := RowId.stamp false f.ids value
    let g : Form := { f with ids := stamped.2, initialData := f.initialData.setAt p stamped.1 }
    have hreplaced : f.Rests g := ⟨rfl, rfl, rfl, rfl⟩
    exact (reaches_dispatch g (.setValue p stamped.1)).after_rest hreplaced

private theorem reaches_reset (f : Form) : Reaches f (f.applied .reset) f.reset := by
  let doc := f.schema.initialised f.initialData
  let g : Form := { f with initialData := doc }
  have hreplaced : f.Rests g := ⟨rfl, rfl, rfl, rfl⟩
  exact (reaches_dispatch g (.init doc)).after_rest hreplaced

/-- Every operation applies the actions that it is said to apply. -/
theorem reaches_perform (f : Form) (op : FormOp) : Reaches f (f.applied op) (f.perform op) := by
  cases op with
  | dispatch action => exact reaches_dispatch f action
  | initialise force answer => exact reaches_initialised f force answer
  | validate => exact .rest (rests_validate f)
  | settleDeferred order => exact reaches_settleDeferred f order
  | setInitial p value => exact reaches_setInitial f p value
  | reset => exact reaches_reset f
  | save failure => exact .rest (rests_save f failure)
  | report p => exact .rest (rests_display f _)
  | clearMessage => exact .rest (rests_display f _)
  | subscribe kind => exact .rest (rests_withStore f kind _)
  | subscribeAt kind p => exact .rest (rests_withStore f kind _)
  | unsubscribe kind id => exact .rest (rests_withStore f kind _)

theorem reaches_run (f : Form) (ops : List FormOp) : Reaches f (f.history ops) (f.run ops) := by
  induction ops generalizing f with
  | nil => exact .refl f
  | cons op ops ih => exact (reaches_perform f op).append (ih (f.perform op))

end Form

end SchemaForm
