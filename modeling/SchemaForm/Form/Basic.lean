import SchemaForm.Diff.Basic
import SchemaForm.Form.Ui
import SchemaForm.Form.Wiring
import SchemaForm.Options.Tree
import SchemaForm.Reduction
import SchemaForm.Store

set_option autoImplicit false
set_option relaxedAutoImplicit false

/-!
Forms. A form holds the document being edited next to the initial one, and keeps its options, its
listeners, its validity and its change set in step with every action. Actions that come before the
form is ready wait for it. What subscribers and the owner of the form are told is written to a
journal.
-/

namespace SchemaForm

/-- The stores of a form: the document, the options tree, and what the form shows about itself. -/
inductive StoreKind where
  | data
  | options
  | states
  deriving DecidableEq

/-- What a form tells. -/
inductive FormEvent where
  | notified (store : StoreKind) (notice : Notice)
  /-- The document was validated: whether it has changes, and the payload of these. -/
  | validated (dirty : Bool) (payload : Json)
  /-- A payload was handed over to be saved. -/
  | saving (isNew : Bool) (payload : Json)

/-- A form. The actions that wait for it to become ready are none once it has been. -/
structure Form where
  schema : Schema
  view : View
  registry : OptionRegistry
  fixedData : Json
  ids : RowIds
  graph : DependencyGraph
  rowCounts : List (String × Nat)
  session : Session
  initialData : Json
  data : Store
  options : Store
  states : Store
  ui : Ui
  waiting : Option (List Action)
  deferred : List Pending
  journal : List FormEvent

namespace Form

/-- A form that is not initialised yet. The fixed data win over defaults and loaded data. -/
def start (schema : Schema) (view : View) (registry : OptionRegistry) (fixedData : Json)
    (ids : RowIds) : Form where
  schema := schema
  view := view
  registry := registry
  fixedData := fixedData
  ids := ids
  graph := .empty
  rowCounts := []
  session := ⟨.empty, 0⟩
  initialData := .empty
  data := .ofState .empty
  options := .ofState .empty
  states := .ofState .null
  ui := .start
  waiting := some []
  deferred := []
  journal := []

def store (f : Form) : StoreKind → Store
  | .data => f.data
  | .options => f.options
  | .states => f.states

def withStore (f : Form) (kind : StoreKind) (s : Store) : Form :=
  match kind with
  | .data => { f with data := s }
  | .options => { f with options := s }
  | .states => { f with states := s }

/-- Writes to the journal. -/
def tell (f : Form) (events : List FormEvent) : Form := { f with journal := f.journal ++ events }

def publish (f : Form) (kind : StoreKind) (next : Json) : Form :=
  (f.withStore kind ((f.store kind).set next)).tell
    (((f.store kind).notices next).map (.notified kind))

/-- Shows something else about the form, and publishes it. -/
def display (f : Form) (ui : Ui) : Form := ({ f with ui := ui } : Form).publish .states ui.toJson

def isNew (f : Form) : Bool := f.schema.isNew f.initialData

/-- The changes from the initial document. -/
def diff (f : Form) (includeSkipChange : Bool) : Dictionary Json :=
  f.schema.diff ⟨f.view.mode, f.view.keepRowIds, false, includeSkipChange⟩ f.initialData
    f.session.doc

/-- The payload of changes: in edit mode the changes with the id of the document, else the whole
document with the changes laid over it. -/
def payload (f : Form) (diff : Dictionary Json) : Json :=
  if f.view.mode = .edit then
    let key := f.schema.traits.idAttribute
    match f.initialData.get? key with
    | some id =>
      if diff.isEmpty || id.isNull then .object diff else .object (Dictionary.insert diff key id)
    | none => .object diff
  else
    let base := if f.view.keepRowIds then f.initialData else RowId.strip f.initialData
    .merge [base, .object diff]

def changes (f : Form) (includeSkipChange : Bool) : Json := f.payload (f.diff includeSkipChange)

/-- The problem reported after a validation. -/
def checkedProblem (f : Form) : Problem :=
  match Validation.failure? f.schema f.session.doc with
  | some failure => .ofFailure failure
  | none => f.ui.problem.settled

/-- Validates the document and reports its changes, once the form is ready. -/
def validate (f : Form) : Form :=
  if f.ui.ready then
    let diff := f.diff false
    (f.display { f.ui with problem := f.checkedProblem, dirty := !diff.isEmpty }).tell
      [.validated (!diff.isEmpty) (f.payload diff)]
  else
    f

/-- Makes the listeners anew if that is wanted or the collections have other numbers of rows. -/
def rewire (f : Form) (always : Bool) : Form :=
  let counts := f.schema.rowCounts f.session.doc
  if always || counts != f.rowCounts then
    { f with graph := f.schema.graph f.session.doc, rowCounts := counts }
  else
    f

def refreshOptions (f : Form) : Form :=
  f.publish .options (f.registry.tree f.schema f.session.doc f.view)

def updateQueue (queue : List Pending) : QueueUpdate → List Pending
  | .keep => queue
  | .push added => queue ++ added
  | .clear => []

/-- What a reduction makes of the form: the session, and what is queued, wired, published and
offered for it. -/
def reduced (f : Form) (action : Action) : Form :=
  let r := reduce f.graph f.ids f.session action
  let f := { f with
    session := r.session
    ids := r.ids
    deferred := updateQueue f.deferred r.queue }
  let f := f.rewire (action.kind == .init)
  (f.publish .data f.session.doc).refreshOptions

/-- Applies an action to the document and brings all else in step with it. -/
def apply (f : Form) (action : Action) : Form := (f.reduced action).validate

/-- Making the listeners anew leaves all else alone. -/
theorem rewire_eq (f : Form) (always : Bool) : f.rewire always =
    { f with graph := (f.rewire always).graph, rowCounts := (f.rewire always).rowCounts } := by
  simp only [rewire]
  split <;> rfl

/-- A validation leaves all alone but what the form shows about itself, and the journal. -/
theorem validate_eq (f : Form) : f.validate =
    { f with ui := f.validate.ui, states := f.validate.states, journal := f.validate.journal } := by
  unfold validate
  split <;> rfl

@[simp] theorem apply_session (f : Form) (action : Action) :
    (f.apply action).session = (reduce f.graph f.ids f.session action).session := by
  rw [apply, validate_eq, reduced, rewire_eq]
  rfl

theorem apply_deferred (f : Form) (action : Action) :
    (f.apply action).deferred =
      updateQueue f.deferred (reduce f.graph f.ids f.session action).queue := by
  rw [apply, validate_eq, reduced, rewire_eq]
  rfl

/-- Applies an action, or lets it wait until the form is ready. -/
def dispatch (f : Form) (action : Action) : Form :=
  match f.waiting with
  | some queue => { f with waiting := some (queue ++ [action]) }
  | none => f.apply action

/-- Nothing but writing a value puts something into an empty queue. -/
theorem dispatch_deferred_eq_nil {f : Form} {action : Action} (hempty : f.deferred = [])
    (h : action.kind ≠ .setValue) : (f.dispatch action).deferred = [] := by
  unfold dispatch
  split
  · exact hempty
  · rw [apply_deferred, hempty, reduce_queue _ _ _ _ h]
    split <;> rfl

def replay (f : Form) : Form :=
  ((f.waiting.getD []).foldl apply { f with waiting := none })

end Form

end SchemaForm
