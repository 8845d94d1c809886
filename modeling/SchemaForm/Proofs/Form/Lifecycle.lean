import SchemaForm.Proofs.Form.History
import SchemaForm.Proofs.Form.Returning

set_option autoImplicit false
set_option relaxedAutoImplicit false

/-!
The life of a form between its operations. Loading, readiness, the actions that wait and the number
of reductions are kept in four places; in every state that a run reaches they agree, no load or save
is under way, and an operation that was refused or that failed has left the document alone.
-/

namespace SchemaForm

/-- The stage a form is in: what it shows beside its problem and its mark of changes. -/
structure Stage where
  loading : Loading
  ready : Bool
  saving : Bool
  message : String

def Ui.stage (u : Ui) : Stage := ⟨u.loading, u.ready, u.saving, u.message⟩

namespace Form

section Stage

variable (f : Form)

private theorem stage_validate : f.validate.ui.stage = f.ui.stage := by
  unfold validate
  split <;> rfl

private theorem stage_apply (action : Action) : (f.apply action).ui.stage = f.ui.stage := by
  rw [apply, stage_validate, reduced_ui]

private theorem stage_dispatch (action : Action) : (f.dispatch action).ui.stage = f.ui.stage := by
  unfold dispatch
  split
  · rfl
  · exact stage_apply f action

private theorem stage_foldl_apply (actions : List Action) :
    (actions.foldl apply f).ui.stage = f.ui.stage := by
  induction actions generalizing f with
  | nil => rfl
  | cons action actions ih => exact (ih (f.apply action)).trans (stage_apply f action)

private theorem stage_replay : f.replay.ui.stage = f.ui.stage :=
  stage_foldl_apply (f.awaiting none) (f.waiting.getD [])

private theorem stage_applyResults (results : List Pending) :
    (f.applyResults results).ui.stage = f.ui.stage := by
  induction results generalizing f with
  | nil => rfl
  | cons p results ih => exact (ih (f.dispatch (resultOf p))).trans (stage_dispatch f (resultOf p))

private theorem stage_settleDeferred (order : CompletionOrder) :
    (f.settleDeferred order).2.ui.stage = f.ui.stage := by
  by_cases hempty : f.deferred = []
  · rw [settleDeferred, if_pos (List.isEmpty_iff.mpr hempty)]
  · have hdrained : f.drained.ui.stage = f.ui.stage :=
      stage_dispatch { f with deferred := [] } .clearDeferredQueue
    rw [settleDeferred_of_pending hempty]
    exact (stage_applyResults f.drained _).trans hdrained

private theorem stage_setInitial (p : Path) (value : Json) :
    (f.setInitial p value).ui.stage = f.ui.stage := by
  unfold setInitial
  split
  · rfl
  · exact stage_dispatch _ _

theorem stage_finishLoad (loaded : Json) :
    (f.finishLoad loaded).ui.stage = ⟨.loaded, true, f.ui.saving, ""⟩ := by
  have hkept := stage_apply (f.readied loaded) (.init (f.initialDocument loaded).1)
  rw [finishLoad_eq]
  generalize (f.readied loaded).apply (.init (f.initialDocument loaded).1) = g at hkept ⊢
  obtain ⟨-, hready, hsaving, hmessage⟩ := Stage.mk.inj hkept
  change Stage.mk .loaded g.ui.ready g.ui.saving g.ui.message = _
  rw [hready, hsaving, hmessage]
  rfl

private theorem stage_save (failure : Option String) : (f.save failure).1.ui.stage =
    if f.ui.ready then ⟨f.ui.loading, true, false, ""⟩ else f.ui.stage := by
  have hended : (f.beginSave.finishSave failure).ui.stage =
      ⟨f.ui.loading, f.ui.ready, false, ""⟩ := by
    cases failure <;> rfl
  unfold save
  cases hready : f.ui.ready with
  | false => rfl
  | true => rwa [hready] at hended

private theorem stage_perform (op : FormOp) :
    (f.perform op).ui.stage = f.ui.stage ∨
    (f.perform op).ui.stage = ⟨f.ui.loading, f.ui.ready, false, ""⟩ ∨
    ∃ ended, (ended = .loaded ∨ ended = .error) ∧
      (f.perform op).ui.stage = ⟨ended, true, f.ui.saving, ""⟩ := by
  cases op with
  | dispatch action => exact .inl (stage_dispatch f action)
  | initialise force answer =>
    rw [perform]
    rcases initialised_cases f force answer with ⟨hidle, -⟩ | ⟨loaded, htaken⟩ | ⟨e, hfailed⟩
    · exact .inl (by rw [hidle])
    · refine .inr (.inr ⟨.loaded, .inl rfl, ?_⟩)
      rw [htaken, stage_replay]
      exact stage_finishLoad f.beginLoad loaded
    · refine .inr (.inr ⟨.error, .inr rfl, ?_⟩)
      rw [hfailed, stage_replay]
      rfl
  | validate => exact .inl (stage_validate f)
  | settleDeferred order => exact .inl (stage_settleDeferred f order)
  | setInitial p value => exact .inl (stage_setInitial f p value)
  | reset => exact .inl (stage_dispatch _ _)
  | save failure =>
    have hsaved := stage_save f failure
    cases hready : f.ui.ready with
    | false =>
      rw [hready, if_neg (by simp)] at hsaved
      exact .inl hsaved
    | true =>
      rw [hready, if_pos rfl] at hsaved
      exact .inr (.inl hsaved)
  | report p => exact .inl rfl
  | clearMessage => exact .inl rfl
  | subscribe kind => exact .inl (by cases kind <;> rfl)
  | subscribeAt kind p => exact .inl (by cases kind <;> rfl)
  | unsubscribe kind id => exact .inl (by cases kind <;> rfl)

end Stage

/-- Nothing is under way, and the form is ready just after its first load. -/
structure Resting (f : Form) : Prop where
  loading : f.ui.loading ≠ .loading
  ready_iff : f.ui.ready = true ↔ f.ui.loading ≠ .init
  saving : f.ui.saving = false
  message : f.ui.message = ""

private theorem resting_of_stage {f : Form} {ended : Loading} {ready : Bool}
    (hstage : f.ui.stage = ⟨ended, ready, false, ""⟩) (hloading : ended ≠ .loading)
    (hready : ready = true ↔ ended ≠ .init) : f.Resting := by
  obtain ⟨h₁, h₂, h₃, h₄⟩ := Stage.mk.inj hstage
  exact ⟨by rw [h₁]; exact hloading, by rw [h₁, h₂]; exact hready, h₃, h₄⟩

private theorem Resting.perform {f : Form} (h : f.Resting) (op : FormOp) :
    (f.perform op).Resting := by
  rcases stage_perform f op with hstage | hstage | ⟨ended, hended, hstage⟩
  · refine resting_of_stage (hstage.trans ?_) h.loading h.ready_iff
    simp only [Ui.stage, h.saving, h.message]
  · exact resting_of_stage hstage h.loading h.ready_iff
  · rw [h.saving] at hstage
    rcases hended with rfl | rfl
    · exact resting_of_stage hstage (by decide) (by decide)
    · exact resting_of_stage hstage (by decide) (by decide)

private theorem resting_start (schema : Schema) (view : View) (registry : OptionRegistry)
    (fixedData : Json) (ids : RowIds) : (start schema view registry fixedData ids).Resting :=
  resting_of_stage (show Ui.stage _ = ⟨.init, false, false, ""⟩ from rfl) (by decide) (by decide)

private theorem loading_perform_ne_init {f : Form} (h : f.ui.loading ≠ .init) (op : FormOp) :
    (f.perform op).ui.loading ≠ .init := by
  intro hinit
  rcases stage_perform f op with hstage | hstage | ⟨ended, hended, hstage⟩
  · exact h ((congrArg Stage.loading hstage).symm.trans hinit)
  · exact h ((congrArg Stage.loading hstage).symm.trans hinit)
  · have hsame : ended = .init := (congrArg Stage.loading hstage).symm.trans hinit
    rcases hended with rfl | rfl <;> cases hsame

/-! ### The number of reductions -/

theorem Reaches.changeId {f g : Form} {actions : List Action} (hreaches : Reaches f actions g) :
    g.session.changeId = f.session.changeId + actions.length := by
  induction hreaches with
  | rest hstill => rw [hstill.session, List.length_nil, Nat.add_zero]
  | @apply f g h action actions hstill _ ih =>
    rw [ih, apply_session, reduce_changeId, hstill.session, List.length_cons]
    omega

/-! ### Operations that are refused or fail -/

private theorem initialise_eq_error_iff {f : Form} {force : Bool}
    {answer : Option (Except LoadError Json)} {e : FormError} :
    f.initialise force answer = .error e ↔
      e = .missingLoader ∧ f.wouldLoad force = true ∧ f.creates = false ∧ answer = none := by
  unfold initialise
  cases f.wouldLoad force with
  | false => simp
  | true =>
    cases answer with
    | none => cases f.creates <;> simp [eq_comm]
    | some result => cases result <;> simp

private theorem perform_initialise_of_error {f : Form} {force : Bool}
    {answer : Option (Except LoadError Json)} {e : FormError}
    (hrefused : f.initialise force answer = .error e) :
    f.perform (.initialise force answer) = f := by
  rw [perform, initialised, hrefused]

private theorem initialise_failed {f : Form} (hfreed : f.waiting = none) (e : LoadError) :
    f.initialise true (some (.error e)) = .ok (f.beginLoad.failLoad e) := by
  have hloads : f.wouldLoad true = true := by simp [wouldLoad]
  have hstill : (f.beginLoad.failLoad e).waiting = none := hfreed
  simp only [initialise, hloads, Bool.not_true, Bool.false_eq_true, if_false]
  rw [replay_released hstill]

theorem save_of_unready {f : Form} (hunready : f.ui.ready = false) (failure : Option String) :
    f.save failure = (f, .error .notReady) := by
  simp only [save, hunready, Bool.false_eq_true, if_false]

private theorem failLoad_rests (f : Form) (e : LoadError) : f.Rests (f.beginLoad.failLoad e) :=
  (rests_display f _).trans (rests_display f.beginLoad _)

private theorem failLoad_deferred (f : Form) (e : LoadError) :
    (f.beginLoad.failLoad e).deferred = f.deferred := by
  have hshown (g : Form) (ui : Ui) : (g.display ui).deferred = g.deferred := rfl
  exact (hshown f.beginLoad _).trans (hshown f _)

theorem failLoad_initialData (f : Form) (e : LoadError) :
    (f.beginLoad.failLoad e).initialData = f.initialData := by
  have hshown (g : Form) (ui : Ui) : (g.display ui).initialData = g.initialData := rfl
  exact (hshown f.beginLoad _).trans (hshown f _)

/-- In every state that a run reaches nothing is under way. The form is ready exactly if it was
loaded, and exactly if no action waits any more; its document has the number of the actions that
were applied. A form that is not ready writes actions down and does nothing else with them.
Operations that are refused change nothing, and neither a reload that fails nor a save touches the
document, the initial one, the listeners or what is queued. -/
theorem lifecycle_run (schema : Schema) (view : View) (registry : OptionRegistry) (fixedData : Json)
    (ids : RowIds) (ops : List FormOp) :
    let made := start schema view registry fixedData ids
    let f := made.run ops
    (f.ui.loading ≠ .loading ∧ f.ui.saving = false ∧ f.ui.message = "") ∧
    (f.ui.ready = true ↔ f.ui.loading ≠ .init) ∧ (f.ui.ready = true ↔ f.waiting = none) ∧
    Reaches made (made.history ops) f ∧ f.session.changeId = (made.history ops).length ∧
    (f.ui.ready = false → f.session.changeId = 0 ∧ ∃ queue, f.waiting = some queue ∧
      ∀ action, f.dispatch action = { f with waiting := some (queue ++ [action]) }) ∧
    (∀ op, (f.ui.loading ≠ .init → (f.perform op).ui.loading ≠ .init) ∧
      Reaches f (f.applied op) (f.perform op) ∧
      (f.perform op).session.changeId = f.session.changeId + (f.applied op).length) ∧
    (∀ force answer e, (f.initialise force answer = .error e ↔
        e = .missingLoader ∧ f.wouldLoad force = true ∧ f.creates = false ∧ answer = none) ∧
      (f.initialise force answer = .error e → f.perform (.initialise force answer) = f)) ∧
    (f.ui.loading ≠ .init → ∀ answer, f.initialise false answer = .ok f) ∧
    (f.ui.ready = false → ∀ failure, f.save failure = (f, .error .notReady)) ∧
    (f.ui.ready = true → ∀ e, ∃ g, f.initialise true (some (.error e)) = .ok g ∧
      g.session = f.session ∧ g.initialData = f.initialData ∧ g.graph = f.graph ∧
      g.deferred = f.deferred) ∧
    ∀ failure, (f.save failure).1.session = f.session ∧
      (f.save failure).1.initialData = f.initialData ∧
      (f.save failure).1.ui.loading = f.ui.loading := by
  intro made f
  have hresting : f.Resting :=
    run_induction (P := Resting) (fun _ op h => h.perform op)
      (resting_start schema view registry fixedData ids) ops
  have hsound : f.Sound := (sound_run schema view registry fixedData ids ops).1
  have hreached : Reaches made (made.history ops) f := reaches_run made ops
  have hcounted : f.session.changeId = (made.history ops).length := by
    have hnumber := hreached.changeId
    rwa [show made.session.changeId = 0 from rfl, Nat.zero_add] at hnumber
  clear_value f
  refine ⟨⟨hresting.loading, hresting.saving, hresting.message⟩, hresting.ready_iff,
    hsound.ready_iff, hreached, hcounted, ?_, ?_, ?_, ?_, ?_, ?_, ?_⟩
  · intro hunready
    refine ⟨hsound.untouched hunready, ?_⟩
    cases hwaits : f.waiting with
    | none => exact absurd (hsound.ready_iff.mpr hwaits) (by simp [hunready])
    | some queue => exact ⟨queue, rfl, fun action => by simp only [dispatch, hwaits]⟩
  · intro op
    have happlied := reaches_perform f op
    exact ⟨fun hloaded => loading_perform_ne_init hloaded op, happlied, happlied.changeId⟩
  · exact fun force answer e => ⟨initialise_eq_error_iff, perform_initialise_of_error⟩
  · intro hloaded answer
    have hidle : f.wouldLoad false = false := by simpa [wouldLoad] using hloaded
    simp [initialise, hidle]
  · exact fun hunready failure => save_of_unready hunready failure
  · intro hready e
    have hrests := failLoad_rests f e
    exact ⟨_, initialise_failed (hsound.ready_iff.mp hready) e, hrests.session,
      failLoad_initialData f e, hrests.graph, failLoad_deferred f e⟩
  · intro failure
    have hkept := sameOrigin_save f failure
    exact ⟨(rests_save f failure).session, hkept.initialData, hkept.loading⟩

private def drafted : List FormOp := [.dispatch (.setValue (Path.root.key "name") (.text "new"))]

private def draftSchema : Schema :=
  ⟨[.input { FieldTraits.plain with id := some "name" } .text], .plain⟩

/-- The form before its load, which is refused without a loader, and after it: the value that waited
is there, and a reload that fails leaves it. -/
theorem lifecycle_run_drafted :
    let made := start draftSchema (.ofMode .edit) .empty .empty ⟨0⟩
    let f := made.run drafted
    let g := made.run
      (drafted ++ [.initialise false (some (.ok (.ofPairs [("name", .text "old")])))])
    f.ui.ready = false ∧ f.session.changeId = 0 ∧
      f.initialise true none = .error .missingLoader ∧ f.perform (.initialise true none) = f ∧
      f.save none = (f, .error .notReady) ∧
      g.ui.ready = true ∧ g.ui.loading ≠ .init ∧ g.session.changeId = 2 ∧
      g.initialise false none = .ok g ∧
      ∃ h, g.initialise true (some (.error ⟨"offline", none⟩)) = .ok h ∧ h.session = g.session ∧
        (h.session.doc.get? "name").bind Json.text? = some "new" := by
  intro made f g
  have hunready : f.ui.ready = false := by decide +kernel
  have hready : g.ui.ready = true := by decide +kernel
  have hloaded : g.ui.loading ≠ .init := by decide +kernel
  have hnumber : g.session.changeId = 2 := by decide +kernel
  have hname : (g.session.doc.get? "name").bind Json.text? = some "new" := by decide +kernel
  obtain ⟨-, -, -, -, -, huntouched, -, hrefusal, -, hunsaved, -⟩ :=
    lifecycle_run draftSchema (.ofMode .edit) .empty .empty ⟨0⟩ drafted
  obtain ⟨-, -, -, -, -, -, -, -, hidle, -, hfailed, -⟩ :=
    lifecycle_run draftSchema (.ofMode .edit) .empty .empty ⟨0⟩
      (drafted ++ [.initialise false (some (.ok (.ofPairs [("name", .text "old")])))])
  have hrefused : f.initialise true none = .error .missingLoader :=
    (hrefusal true none .missingLoader).1.mpr ⟨rfl, rfl, rfl, rfl⟩
  obtain ⟨h, htaken, hsession, -⟩ := hfailed hready ⟨"offline", none⟩
  refine ⟨hunready, (huntouched hunready).1, hrefused, (hrefusal true none _).2 hrefused,
    hunsaved hunready none, hready, hloaded, hnumber, hidle hloaded none, h, htaken, hsession, ?_⟩
  rw [hsession]
  exact hname

end Form

end SchemaForm
