import SchemaForm.Form.Session

set_option autoImplicit false
set_option relaxedAutoImplicit false

/-!
The operations of a form and its runs. A run is any sequence of operations, from a form that has
just been made. What each operation does to the parts of a form is said here once: nothing ever
changes what the form was made from, and only applying an action reduces the document.
-/

namespace SchemaForm

/-- What can be done with a form. A load comes with the answer of the loader, a drain of the
deferred recomputations with the order in which they are done, and a save with the failure of its
handler. -/
inductive FormOp where
  | dispatch (action : Action)
  | initialise (force : Bool) (answer : Option (Except LoadError Json))
  | validate
  | settleDeferred (order : CompletionOrder)
  | setInitial (p : Path) (value : Json)
  | reset
  | save (failure : Option String)
  | report (p : Problem)
  | clearMessage
  | subscribe (kind : StoreKind)
  | subscribeAt (kind : StoreKind) (p : Path)
  | unsubscribe (kind : StoreKind) (id : Nat)

namespace Form

/-- The form after an attempt to initialise it. A refusal leaves it as it is. -/
def initialised (f : Form) (force : Bool) (answer : Option (Except LoadError Json)) : Form :=
  match f.initialise force answer with
  | .ok g => g
  | .error _ => f

def perform (f : Form) : FormOp → Form
  | .dispatch action => f.dispatch action
  | .initialise force answer => f.initialised force answer
  | .validate => f.validate
  | .settleDeferred order => (f.settleDeferred order).2
  | .setInitial p value => f.setInitial p value
  | .reset => f.reset
  | .save failure => (f.save failure).1
  | .report p => f.report p
  | .clearMessage => f.clearMessage
  | .subscribe kind => f.withStore kind (f.store kind).subscribe.2
  | .subscribeAt kind p => (f.subscribeAt kind p).2
  | .unsubscribe kind id => f.unsubscribe kind id

def run (f : Form) (ops : List FormOp) : Form := ops.foldl perform f

@[simp] theorem run_nil (f : Form) : f.run [] = f := rfl

@[simp] theorem run_cons (f : Form) (op : FormOp) (ops : List FormOp) :
    f.run (op :: ops) = (f.perform op).run ops := rfl

theorem run_append (f : Form) (ops ops' : List FormOp) :
    f.run (ops ++ ops') = (f.run ops).run ops' := by
  simp [run]

/-- What every operation preserves holds after every run. -/
theorem run_induction {P : Form → Prop} (hstep : ∀ f op, P f → P (f.perform op)) {f : Form}
    (h : P f) (ops : List FormOp) : P (f.run ops) := by
  induction ops generalizing f with
  | nil => exact h
  | cons op ops ih => exact ih (hstep f op h)

/-- An attempt to initialise a form is refused or has nothing to load, or a load succeeds or fails
and the actions that waited are applied. -/
theorem initialised_cases (f : Form) (force : Bool) (answer : Option (Except LoadError Json)) :
    (f.initialised force answer = f ∧
      (f.wouldLoad force = true → answer = none ∧ f.creates = false)) ∨
    (∃ loaded, f.initialised force answer = (f.beginLoad.finishLoad loaded).replay) ∨
    ∃ e, f.initialised force answer = (f.beginLoad.failLoad e).replay := by
  unfold initialised initialise
  cases hstarted : f.wouldLoad force with
  | false => exact .inl ⟨rfl, by simp⟩
  | true =>
    cases answer with
    | none =>
      cases hcreates : f.creates with
      | false => exact .inl ⟨rfl, fun _ => ⟨rfl, rfl⟩⟩
      | true => exact .inr (.inl ⟨.empty, rfl⟩)
    | some result =>
      cases result with
      | ok loaded => exact .inr (.inl ⟨loaded, rfl⟩)
      | error e => exact .inr (.inr ⟨e, rfl⟩)

/-- The form with the initial document that is made from loaded data, ready to take it. -/
def readied (f : Form) (loaded : Json) : Form :=
  { f with
    ids := (f.initialDocument loaded).2
    initialData := (f.initialDocument loaded).1
    ui := { f.ui with ready := true, message := "" } }

theorem finishLoad_eq (f : Form) (loaded : Json) : f.finishLoad loaded =
    ((f.readied loaded).apply (.init (f.initialDocument loaded).1)).display
      { ((f.readied loaded).apply (.init (f.initialDocument loaded).1)).ui with
        loading := .loaded } := rfl

/-! ### Applying an action -/

theorem dispatch_released {f : Form} (hfreed : f.waiting = none) (action : Action) :
    f.dispatch action = f.apply action := by
  simp only [dispatch, hfreed]

/-- What a form was made from, for good. -/
structure Setting where
  schema : Schema
  view : View
  registry : OptionRegistry
  fixedData : Json

def setting (f : Form) : Setting := ⟨f.schema, f.view, f.registry, f.fixedData⟩

@[simp] theorem reduced_ui (f : Form) (action : Action) : (f.reduced action).ui = f.ui := by
  rw [reduced, rewire_eq]
  rfl

private theorem reduced_data (f : Form) (action : Action) :
    (f.reduced action).data = f.data.set (f.reduced action).session.doc := by
  rw [reduced, rewire_eq]
  rfl

private theorem reduced_options (f : Form) (action : Action) : (f.reduced action).options =
    f.options.set (f.registry.tree f.schema (f.reduced action).session.doc f.view) := by
  rw [reduced, rewire_eq]
  rfl

private theorem reduced_states (f : Form) (action : Action) :
    (f.reduced action).states = f.states := by
  rw [reduced, rewire_eq]
  rfl

@[simp] theorem apply_setting (f : Form) (action : Action) :
    (f.apply action).setting = f.setting := by
  rw [apply, validate_eq, reduced, rewire_eq]
  rfl

@[simp] theorem apply_waiting (f : Form) (action : Action) :
    (f.apply action).waiting = f.waiting := by
  rw [apply, validate_eq, reduced, rewire_eq]
  rfl

theorem apply_data (f : Form) (action : Action) :
    (f.apply action).data = f.data.set (f.apply action).session.doc := by
  rw [apply, validate_eq]
  exact reduced_data f action

theorem apply_options (f : Form) (action : Action) : (f.apply action).options =
    f.options.set (f.registry.tree f.schema (f.apply action).session.doc f.view) := by
  rw [apply, validate_eq]
  exact reduced_options f action

section Validate

variable {f : Form}

private theorem checkedProblem_name (f : Form) : f.checkedProblem.name =
    (Validation.failure? f.schema f.session.doc).map (·.path.flat) := by
  unfold checkedProblem
  split
  · rename_i failure hfound
    simp [hfound, Problem.ofFailure]
  · rename_i hvalid
    simp [hvalid, Problem.settled]

theorem validate_of_ready (hready : f.ui.ready = true) : f.validate =
    (f.display { f.ui with problem := f.checkedProblem, dirty := !(f.diff false).isEmpty }).tell
      [.validated (!(f.diff false).isEmpty) (f.changes false)] :=
  if_pos hready

@[simp] theorem validate_ready : f.validate.ui.ready = f.ui.ready := by
  unfold validate
  split <;> rfl

private theorem validate_states (hready : f.ui.ready = true) :
    f.validate.states = f.states.set f.validate.ui.toJson := by
  rw [validate_of_ready hready]
  rfl

private theorem validate_dirty (hready : f.ui.ready = true) :
    f.validate.ui.dirty = !(f.validate.diff false).isEmpty := by
  rw [validate_of_ready hready]
  rfl

theorem validate_problem_name (hready : f.ui.ready = true) : f.validate.ui.problem.name =
    (Validation.failure? f.validate.schema f.validate.session.doc).map (·.path.flat) := by
  rw [validate_of_ready hready]
  exact checkedProblem_name f

end Validate

@[simp] theorem apply_ready (f : Form) (action : Action) :
    (f.apply action).ui.ready = f.ui.ready := by
  rw [apply, validate_ready, reduced_ui]

section Ready

variable {f : Form} (hready : f.ui.ready = true)

include hready

theorem reduced_ready (action : Action) : (f.reduced action).ui.ready = true := by
  rw [reduced_ui, hready]

theorem apply_states (action : Action) :
    (f.apply action).states = f.states.set (f.apply action).ui.toJson := by
  rw [apply, validate_states (reduced_ready hready action), reduced_states]

theorem apply_dirty (action : Action) :
    (f.apply action).ui.dirty = !((f.apply action).diff false).isEmpty :=
  validate_dirty (reduced_ready hready action)

theorem apply_problem_name (action : Action) : (f.apply action).ui.problem.name =
    (Validation.failure? (f.apply action).schema (f.apply action).session.doc).map (·.path.flat) :=
  validate_problem_name (reduced_ready hready action)

end Ready

/-! ### What the owner of a form is told -/

end Form

/-- What an event reports of the changes: whether there are any, and their payload. -/
def FormEvent.report? : FormEvent → Option (Bool × Json)
  | .validated dirty payload => some (dirty, payload)
  | _ => none

namespace Form

/-- What the owner was told after each validation. -/
def reports (f : Form) : List (Bool × Json) := f.journal.filterMap FormEvent.report?

theorem reports_tell (f : Form) (events : List FormEvent) :
    (f.tell events).reports = f.reports ++ events.filterMap FormEvent.report? :=
  List.filterMap_append

@[simp] theorem reports_withStore (f : Form) (kind : StoreKind) (s : Store) :
    (f.withStore kind s).reports = f.reports := by
  cases kind <;> rfl

@[simp] theorem reports_publish (f : Form) (kind : StoreKind) (next : Json) :
    (f.publish kind next).reports = f.reports := by
  have hsilent (notices : List Notice) :
      (notices.map (FormEvent.notified kind)).filterMap FormEvent.report? = [] := by
    simp [List.filterMap_map, Function.comp_def, FormEvent.report?]
  rw [publish, reports_tell, hsilent, List.append_nil, reports_withStore]

@[simp] theorem reports_display (f : Form) (ui : Ui) : (f.display ui).reports = f.reports := by
  rw [display, reports_publish]
  rfl

private theorem reports_validate {f : Form} (hready : f.ui.ready = true) :
    f.validate.reports = f.reports ++ [(f.validate.ui.dirty, f.validate.changes false)] := by
  rw [validate_of_ready hready, reports_tell, reports_display]
  rfl

@[simp] theorem reports_reduced (f : Form) (action : Action) :
    (f.reduced action).reports = f.reports := by
  rw [reduced, rewire_eq, refreshOptions, reports_publish, reports_publish]
  rfl

theorem reports_apply {f : Form} (hready : f.ui.ready = true) (action : Action) :
    (f.apply action).reports =
      f.reports ++ [((f.apply action).ui.dirty, (f.apply action).changes false)] := by
  have htold := reports_validate (reduced_ready hready action)
  rwa [reports_reduced] at htold

end Form

end SchemaForm
