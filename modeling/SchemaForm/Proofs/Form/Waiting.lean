import SchemaForm.Proofs.Form.Coherence

set_option autoImplicit false
set_option relaxedAutoImplicit false

/-!
Waiting. Actions that come before a form is initialised are written down and applied once, in order,
when it is. Nothing that a form does looks at the actions that wait, so it makes no difference
whether they come before the initialisation or after it.
-/

namespace SchemaForm

namespace Form

/-- The same form with other actions waiting. -/
def awaiting (f : Form) (queue : Option (List Action)) : Form := { f with waiting := queue }

private theorem awaiting_self {f : Form} {queue : Option (List Action)}
    (hwaits : f.waiting = queue) :
    f.awaiting queue = f := by
  cases f
  cases hwaits
  rfl

private theorem awaiting_waiting (f : Form) (queue : Option (List Action)) :
    (f.awaiting queue).waiting = queue := rfl

section Unseen

variable (f : Form) (queue : Option (List Action))

private theorem publish_awaiting (kind : StoreKind) (next : Json) :
    (f.awaiting queue).publish kind next = (f.publish kind next).awaiting queue := by
  cases kind <;> rfl

private theorem display_awaiting (ui : Ui) :
    (f.awaiting queue).display ui = (f.display ui).awaiting queue :=
  publish_awaiting { f with ui := ui } queue .states ui.toJson

theorem display_waiting (ui : Ui) : (f.display ui).waiting = f.waiting := rfl

private theorem display_session (ui : Ui) : (f.display ui).session = f.session := rfl

private theorem rewire_awaiting (always : Bool) :
    (f.awaiting queue).rewire always = (f.rewire always).awaiting queue := by
  cases hwanted : (always || f.schema.rowCounts f.session.doc != f.rowCounts) with
  | false => simp [rewire, awaiting, hwanted]
  | true => simp [rewire, awaiting, hwanted]

private theorem refreshOptions_awaiting :
    (f.awaiting queue).refreshOptions = f.refreshOptions.awaiting queue :=
  publish_awaiting f queue .options (f.registry.tree f.schema f.session.doc f.view)

private theorem validate_awaiting : (f.awaiting queue).validate = f.validate.awaiting queue := by
  cases hready : f.ui.ready with
  | false => simp [validate, awaiting, hready]
  | true =>
    rw [validate_of_ready hready, validate_of_ready (f := f.awaiting queue) hready]
    rfl

private theorem reduced_awaiting (action : Action) :
    (f.awaiting queue).reduced action = (f.reduced action).awaiting queue := by
  let r := reduce f.graph f.ids f.session action
  let g : Form :=
    { f with session := r.session, ids := r.ids, deferred := updateQueue f.deferred r.queue }
  -- Both sides take the same steps from this one form.
  have hunfolded : (f.awaiting queue).reduced action =
      (((g.awaiting queue).rewire (action.kind == .init)).publish .data
        ((g.awaiting queue).rewire (action.kind == .init)).session.doc).refreshOptions := rfl
  rw [hunfolded, rewire_awaiting, publish_awaiting, refreshOptions_awaiting]
  rfl

private theorem apply_awaiting (action : Action) :
    (f.awaiting queue).apply action = (f.apply action).awaiting queue := by
  rw [apply, reduced_awaiting, validate_awaiting, apply]

theorem foldl_apply_waiting (actions : List Action) :
    (actions.foldl apply f).waiting = f.waiting := by
  induction actions generalizing f with
  | nil => rfl
  | cons action actions ih => exact (ih (f.apply action)).trans (apply_waiting f action)

private theorem beginLoad_awaiting : (f.awaiting queue).beginLoad = f.beginLoad.awaiting queue :=
  display_awaiting f queue _

private theorem finishLoad_awaiting (loaded : Json) :
    (f.awaiting queue).finishLoad loaded = (f.finishLoad loaded).awaiting queue := by
  have hreadied : (f.awaiting queue).readied loaded = (f.readied loaded).awaiting queue := rfl
  have hsame : (f.awaiting queue).initialDocument loaded = f.initialDocument loaded := rfl
  rw [finishLoad_eq, finishLoad_eq, hreadied, hsame, apply_awaiting, display_awaiting]
  rfl

theorem finishLoad_waiting (loaded : Json) : (f.finishLoad loaded).waiting = f.waiting := by
  have hkept := finishLoad_awaiting f f.waiting loaded
  rw [awaiting_self rfl] at hkept
  rw [hkept, awaiting_waiting]

theorem failLoad_waiting (e : LoadError) : (f.failLoad e).waiting = f.waiting :=
  display_waiting f _

private theorem failLoad_awaiting (e : LoadError) :
    (f.awaiting queue).failLoad e = (f.failLoad e).awaiting queue :=
  display_awaiting f queue _

end Unseen

/-! ### Dispatching before and after -/

def dispatches (actions : List Action) : List FormOp := actions.map .dispatch

private theorem run_dispatches_waiting {f : Form} {queue : List Action}
    (hwaits : f.waiting = some queue) (actions : List Action) :
    f.run (dispatches actions) = f.awaiting (some (queue ++ actions)) := by
  induction actions generalizing f queue with
  | nil => simpa [dispatches] using (awaiting_self hwaits).symm
  | cons action actions ih =>
    have hqueued : f.dispatch action = f.awaiting (some (queue ++ [action])) := by
      simp only [dispatch, hwaits, awaiting]
    calc f.run (dispatches (action :: actions))
      _ = (f.dispatch action).run (dispatches actions) := rfl
      _ = (f.awaiting (some (queue ++ [action]))).awaiting
            (some (queue ++ [action] ++ actions)) := by
          rw [hqueued]
          exact ih rfl
      _ = f.awaiting (some (queue ++ action :: actions)) := by
          rw [List.append_assoc, List.singleton_append]
          rfl

private theorem run_dispatches_released {f : Form} (hfreed : f.waiting = none)
    (actions : List Action) :
    f.run (dispatches actions) = actions.foldl apply f := by
  induction actions generalizing f with
  | nil => rfl
  | cons action actions ih =>
    have hstill : (f.apply action).waiting = none := (apply_waiting f action).trans hfreed
    calc f.run (dispatches (action :: actions))
      _ = (f.dispatch action).run (dispatches actions) := rfl
      _ = (action :: actions).foldl apply f := by
          rw [dispatch_released hfreed, ih hstill]
          rfl

private theorem replay_awaiting {f : Form} {queue : List Action} (hwaits : f.waiting = some queue)
    (actions : List Action) :
    (f.awaiting (some (queue ++ actions))).replay = f.replay.run (dispatches actions) := by
  have hreplayed : f.replay = queue.foldl apply (f.awaiting none) := by
    simp only [replay, hwaits, Option.getD_some, awaiting]
  have hfreed : f.replay.waiting = none := by
    rw [hreplayed]
    exact foldl_apply_waiting (f.awaiting none) queue
  rw [run_dispatches_released hfreed, hreplayed, ← List.foldl_append]
  rfl

private theorem initialise_awaiting {f : Form} {queue : List Action}
    (hwaits : f.waiting = some queue) (actions : List Action) (force : Bool)
    (answer : Option (Except LoadError Json)) :
    (f.awaiting (some (queue ++ actions))).initialise force answer =
      (f.initialise force answer).map fun g => g.run (dispatches actions) := by
  have hbegun : f.beginLoad.waiting = some queue := hwaits
  have hloaded (doc : Json) :
      ((f.awaiting (some (queue ++ actions))).beginLoad.finishLoad doc).replay =
        (f.beginLoad.finishLoad doc).replay.run (dispatches actions) := by
    have hstill : (f.beginLoad.finishLoad doc).waiting = some queue :=
      (finishLoad_waiting f.beginLoad doc).trans hbegun
    rw [beginLoad_awaiting, finishLoad_awaiting, replay_awaiting hstill]
  have hfailed (e : LoadError) :
      ((f.awaiting (some (queue ++ actions))).beginLoad.failLoad e).replay =
        (f.beginLoad.failLoad e).replay.run (dispatches actions) := by
    have hstill : (f.beginLoad.failLoad e).waiting = some queue :=
      (failLoad_waiting f.beginLoad e).trans hbegun
    rw [beginLoad_awaiting, failLoad_awaiting, replay_awaiting hstill]
  have hsame : (f.awaiting (some (queue ++ actions))).wouldLoad force = f.wouldLoad force ∧
      (f.awaiting (some (queue ++ actions))).creates = f.creates := ⟨rfl, rfl⟩
  unfold initialise
  rw [hsame.1, hsame.2]
  cases hstarted : f.wouldLoad force with
  | false => exact congrArg Except.ok (run_dispatches_waiting hwaits actions).symm
  | true =>
    cases answer with
    | none =>
      cases hcreates : f.creates with
      | false => rfl
      | true => exact congrArg Except.ok (hloaded .empty)
    | some result =>
      cases result with
      | ok doc => exact congrArg Except.ok (hloaded doc)
      | error e => exact congrArg Except.ok (hfailed e)

theorem initialised_awaiting {f : Form} {queue : List Action} (hwaits : f.waiting = some queue)
    (actions : List Action) (force : Bool) (answer : Option (Except LoadError Json)) :
    (f.awaiting (some (queue ++ actions))).initialised force answer =
      (f.initialised force answer).run (dispatches actions) := by
  unfold initialised
  rw [initialise_awaiting hwaits]
  cases f.initialise force answer with
  | ok g => rfl
  | error e => exact (run_dispatches_waiting hwaits actions).symm

/-! ### Initialising once more -/

theorem replay_released {f : Form} (hfreed : f.waiting = none) : f.replay = f := by
  have hsame : f.replay = f.awaiting none := by
    simp only [replay, hfreed, Option.getD_none, List.foldl_nil, awaiting]
  rw [hsame, awaiting_self hfreed]

private theorem initialised_waiting {f : Form} {force : Bool} (hloads : f.wouldLoad force = true)
    {answer : Option (Except LoadError Json)} (haccepted : answer = none → f.creates = true) :
    (f.initialised force answer).waiting = none := by
  have hreplayed (g : Form) : g.replay.waiting = none := foldl_apply_waiting (g.awaiting none) _
  rcases initialised_cases f force answer with ⟨-, hrefused⟩ | ⟨loaded, htaken⟩ | ⟨e, hfailed⟩
  · obtain ⟨hmissing, hedits⟩ := hrefused hloads
    rw [haccepted hmissing] at hedits
    cases hedits
  · rw [htaken]
    exact hreplayed _
  · rw [hfailed]
    exact hreplayed _

theorem finishLoad_session (f : Form) (loaded : Json) :
    (f.finishLoad loaded).session = ⟨(f.initialDocument loaded).1, f.session.changeId + 1⟩ := by
  rw [finishLoad_eq, display_session, apply_session]
  rfl

private theorem initialised_session {f : Form} (hfreed : f.waiting = none) (force : Bool)
    (answer : Option (Except LoadError Json)) :
    (f.initialised force answer).session = f.session ∨
    ∃ loaded, (f.initialised force answer).session =
      ⟨(f.initialDocument loaded).1, f.session.changeId + 1⟩ := by
  have hbegun : f.beginLoad.waiting = none := (display_waiting f _).trans hfreed
  rcases initialised_cases f force answer with ⟨hidle, -⟩ | ⟨loaded, htaken⟩ | ⟨e, hfailed⟩
  · exact .inl (by rw [hidle])
  · have hsame : f.beginLoad.initialDocument loaded = f.initialDocument loaded := rfl
    refine .inr ⟨loaded, ?_⟩
    rw [htaken, replay_released ((finishLoad_waiting f.beginLoad loaded).trans hbegun),
      finishLoad_session, hsame, beginLoad, display_session]
  · refine .inl ?_
    rw [hfailed, replay_released ((failLoad_waiting f.beginLoad e).trans hbegun)]
    exact (display_session _ _).trans (display_session _ _)

private theorem run_waiting {f : Form} (hsound : f.Sound) (hfreed : f.waiting = none)
    (ops : List FormOp) :
    (f.run ops).waiting = none := by
  have hkept : (f.run ops).Sound ∧ (f.run ops).waiting = none :=
    run_induction (P := fun g => g.Sound ∧ g.waiting = none)
      (fun _ op h => ⟨(h.1.perform op).1, (h.1.perform_frame op).2 h.2⟩) ⟨hsound, hfreed⟩ ops
  exact hkept.2

/-- Dispatching actions and then initialising a form that was just made is initialising it and then
dispatching them. Before, the actions are only written down. If the initialisation was not refused,
they have been applied in order, and initialising once more at any later time never applies them
again. -/
theorem queued_eq_direct (schema : Schema) (view : View) (registry : OptionRegistry)
    (fixedData : Json) (ids : RowIds) (answer : Option (Except LoadError Json))
    (actions : List Action) :
    let f := start schema view registry fixedData ids
    let queued := f.run (dispatches actions)
    queued = { f with waiting := some actions } ∧
    queued.initialise false answer =
      (f.initialise false answer).map (fun g => g.run (dispatches actions)) ∧
    queued.initialised false answer = (f.initialised false answer).run (dispatches actions) ∧
    ((answer = none → view.mode ≠ .edit) →
      queued.initialised false answer = actions.foldl apply (f.initialised false answer) ∧
      ∀ ops force again,
        let g := (queued.initialised false answer).run ops
        g.waiting = none ∧ (g.initialised force again).waiting = none ∧
        ((g.initialised force again).session = g.session ∨
          ∃ loaded, (g.initialised force again).session =
            ⟨(g.initialDocument loaded).1, g.session.changeId + 1⟩)) := by
  intro f queued
  have hwaits : f.waiting = some [] := rfl
  have hwritten : queued = f.awaiting (some ([] ++ actions)) :=
    run_dispatches_waiting hwaits actions
  have hsame : queued.initialised false answer =
      (f.initialised false answer).run (dispatches actions) := by
    rw [hwritten]
    exact initialised_awaiting hwaits actions false answer
  refine ⟨hwritten, ?_, hsame, fun haccepted => ?_⟩
  · rw [hwritten]
    exact initialise_awaiting hwaits actions false answer
  · have hcreates : answer = none → f.creates = true := fun hmissing => by
      change (view.mode != .edit) = true
      simpa using haccepted hmissing
    have hfreed : (f.initialised false answer).waiting = none := initialised_waiting rfl hcreates
    refine ⟨hsame.trans (run_dispatches_released hfreed actions), fun ops force again => ?_⟩
    have hsound : (f.initialised false answer).Sound :=
      ((sound_start schema view registry fixedData ids).initialised false answer).1
    have hlater : ((queued.initialised false answer).run ops).waiting = none := by
      rw [hsame, ← run_append]
      exact run_waiting hsound hfreed _
    have hstill : (((queued.initialised false answer).run ops).initialised force again).waiting =
        none := by
      have hextended :=
        run_waiting hsound hfreed (dispatches actions ++ ops ++ [.initialise force again])
      rwa [run_append, run_append, ← hsame] at hextended
    exact ⟨hlater, hstill, initialised_session hlater force again⟩

private def blank : Form :=
  start ⟨[.input { FieldTraits.plain with id := some "name" } .text], .plain⟩ (.ofMode .create)
    .empty .empty ⟨0⟩

theorem queued_eq_direct_blank :
    let name : Path := Path.root.key "name"
    let actions : List Action := [.setValue name (.text "first"), .setValue name (.text "second")]
    let queued := blank.run (dispatches actions)
    let answer : Option (Except LoadError Json) := none
    (answer = none → Mode.create ≠ .edit) ∧
      queued.initialised false answer = actions.foldl apply (blank.initialised false answer) ∧
      (queued.initialised false answer).session.changeId = 3 ∧
      ((queued.initialised false answer).session.doc.get? "name").bind Json.text? = some "second" ∧
      ((queued.initialised false answer).initialised true answer).waiting = none := by
  intro name actions queued answer
  have haccepted : answer = none → Mode.create ≠ .edit := fun _ => by decide
  obtain ⟨-, -, -, happlied⟩ :=
    queued_eq_direct _ (.ofMode .create) .empty .empty ⟨0⟩ answer actions
  obtain ⟨hreplayed, hlater⟩ := happlied haccepted
  have hfreed := (hlater [] true answer).2.1
  rw [run_nil] at hfreed
  refine ⟨haccepted, hreplayed, ?_, ?_, hfreed⟩
  · decide +kernel
  · decide +kernel

end Form

end SchemaForm
