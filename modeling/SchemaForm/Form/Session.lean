import SchemaForm.Form.Basic

set_option autoImplicit false
set_option relaxedAutoImplicit false

/-!
The life of a form: it is initialised from a loader's answer, takes actions and the results of
deferred recomputations, can be reset, and is saved. Loaders and save handlers are outside; a form
takes their answers.
-/

namespace SchemaForm

/-- Why a form refuses to do something. -/
inductive FormError where
  | missingLoader
  | notReady
  | save (cause : String)
  deriving DecidableEq

namespace FormError

def message : FormError → String
  | .missingLoader => "edit mode requires an initial data loader"
  | .notReady => "form is not ready"
  | .save _ => "failed to save changes"

def cause? : FormError → Option String
  | .save cause => some cause
  | _ => none

end FormError

/-- An order in which the deferred recomputations of a queue are done: each of them once. -/
structure CompletionOrder where
  arrange : List Pending → List Pending
  arrange_perm : ∀ queue, (arrange queue).Perm queue

namespace CompletionOrder

/-- The order by delay, and among recomputations of one delay that of the queue. -/
def byDelay : CompletionOrder where
  arrange queue := queue.mergeSort fun p q => p.deferral.delay ≤ q.deferral.delay
  arrange_perm queue := List.mergeSort_perm queue _

end CompletionOrder

namespace Form

/-- Whether initialising would start a load. A form loads once, unless it is forced to. -/
def wouldLoad (f : Form) (force : Bool) : Bool := f.ui.loading == .init || force

/-- Whether the form makes its document from defaults, too: it does in every mode but edit. -/
def creates (f : Form) : Bool := f.view.mode != .edit

/-- The initial document made from loaded data. -/
def initialDocument (f : Form) (loaded : Json) : Json × RowIds :=
  let loaded := if loaded.isNull then .empty else loaded
  let layers := if f.creates then [.object f.schema.traits.defaults, loaded, f.fixedData]
    else [loaded, f.fixedData]
  let (doc, ids) := RowId.stamp f.creates f.ids (.merge layers)
  (f.schema.initialised doc, ids)

def beginLoad (f : Form) : Form :=
  f.display { f.ui with loading := .loading, message := Ui.loadingMessage }

def finishLoad (f : Form) (loaded : Json) : Form :=
  let (doc, ids) := f.initialDocument loaded
  let f := { f with
    ids := ids
    initialData := doc
    ui := { f.ui with ready := true, message := "" } }
  let f := f.apply (.init doc)
  f.display { f.ui with loading := .loaded }

/-- Takes the error of a load. The form is ready then, with nothing in it. -/
def failLoad (f : Form) (e : LoadError) : Form :=
  f.display { f.ui with ready := true, problem := .ofLoad e, message := "", loading := .error }

/-- Initialises the form from the answer of its loader, if it has one. The actions that waited are
applied then, whatever the answer was. -/
def initialise (f : Form) (force : Bool) (answer : Option (Except LoadError Json)) :
    Except FormError Form :=
  if !f.wouldLoad force then
    .ok f
  else
    match answer with
    | none =>
      if f.creates then .ok (f.beginLoad.finishLoad .empty).replay else .error .missingLoader
    | some (.ok loaded) => .ok (f.beginLoad.finishLoad loaded).replay
    | some (.error e) => .ok (f.beginLoad.failLoad e).replay

/-- Applies the results of deferred recomputations in the order in which they come in. -/
def applyResults (f : Form) (results : List Pending) : Form :=
  results.foldl (fun f p =>
    f.dispatch (.deferredDepChange p.listener p.deferral.recompute p.context)) f

theorem applyResults_deferred {f : Form} (hempty : f.deferred = []) (results : List Pending) :
    (f.applyResults results).deferred = [] := by
  induction results generalizing f with
  | nil => exact hempty
  | cons p results ih => exact ih (dispatch_deferred_eq_nil hempty (by simp [Action.kind]))

/-- Takes all that is in the queue of deferred recomputations, clears the queue, and applies the
results as they come in. -/
def settleRound (f : Form) (order : CompletionOrder) : Form :=
  (({ f with deferred := [] } : Form).dispatch .clearDeferredQueue).applyResults
    (order.arrange f.deferred)

theorem settleRound_deferred (f : Form) (order : CompletionOrder) :
    (f.settleRound order).deferred = [] :=
  applyResults_deferred (dispatch_deferred_eq_nil rfl (by simp [Action.kind])) _

/-- Goes on with rounds as long as deferred recomputations are queued, and counts the results. -/
def settleDeferred (f : Form) (order : CompletionOrder) : Nat × Form :=
  if f.deferred.isEmpty then
    (0, f)
  else
    let (count, settled) := (f.settleRound order).settleDeferred order
    ((order.arrange f.deferred).length + count, settled)
termination_by f.deferred.length
decreasing_by
  -- The results queue nothing anew, so a round leaves an empty queue.
  rename_i hpending
  rw [settleRound_deferred, List.length_nil, List.length_pos_iff]
  simpa using hpending

/-- Applies all deferred recomputations as they are done, and counts them. -/
def applyDeferred (f : Form) : Nat × Form := f.settleDeferred .byDelay

/-- Replaces a part of the initial document, and the same part of the document being edited. -/
def setInitial (f : Form) (p : Path) (value : Json) : Form :=
  if p.isRoot then
    f
  else
    let (value, ids) := RowId.stamp false f.ids value
    ({ f with ids := ids, initialData := f.initialData.setAt p value } : Form).dispatch
      (.setValue p value)

/-- Goes back to the initial document, which is completed once more. -/
def reset (f : Form) : Form :=
  let doc := f.schema.initialised f.initialData
  ({ f with initialData := doc } : Form).dispatch (.init doc)

/-- Hands the payload of all changes over to be saved. -/
def beginSave (f : Form) : Form :=
  (f.display { f.ui with saving := true, message := Ui.savingMessage }).tell
    [.saving f.isNew (f.changes true)]

/-- Takes the answer to a save: nothing, or what went wrong. -/
def finishSave (f : Form) (failure : Option String) : Form :=
  let ui := { f.ui with saving := false, message := "" }
  match failure with
  | none => f.display ui
  | some message => f.display { ui with problem := .ofSave message }

/-- Saves the changes: the form after it, and the payload that was saved. -/
def save (f : Form) (failure : Option String) : Form × Except FormError Json :=
  if f.ui.ready then
    (f.beginSave.finishSave failure,
      match failure with
      | none => .ok (f.changes true)
      | some message => .error (.save message))
  else
    (f, .error .notReady)

def report (f : Form) (p : Problem) : Form := f.display { f.ui with problem := p }

/-- Takes the message off the problem that is being reported. -/
def clearMessage (f : Form) : Form := f.report { f.ui.problem with message := none }

def subscribeAt (f : Form) (kind : StoreKind) (p : Path) : Nat × Form :=
  let (id, s) := (f.store kind).subscribeAt p
  (id, f.withStore kind s)

def unsubscribe (f : Form) (kind : StoreKind) (id : Nat) : Form :=
  f.withStore kind ((f.store kind).unsubscribe id)

/-- Takes what was told so far out of the journal. -/
def takeJournal (f : Form) : List FormEvent × Form := (f.journal, { f with journal := [] })

end Form

end SchemaForm
