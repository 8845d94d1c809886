import SchemaForm.Proofs.Equality
import SchemaForm.Proofs.Form.Operation

set_option autoImplicit false
set_option relaxedAutoImplicit false

/-!
The coherence of a form. What a form publishes is made by hand in many places from its document and
its initial document; in every state that a run reaches, all of it is in step with them, and the
owner has been told of every reduction.
-/

namespace SchemaForm

namespace Store

theorem same_set (s : Store) (next : Json) : (s.set next).state.same next = true := by
  unfold set
  split
  · exact Json.same_refl next
  · rename_i hequal
    simpa [accepts] using hequal

end Store

namespace Form

/-- What the form publishes is in step with its document: the three stores, and whether there are
changes. -/
structure InStep (f : Form) : Prop where
  data : f.data.state.same f.session.doc = true
  options : f.options.state.same (f.registry.tree f.schema f.session.doc f.view) = true
  states : f.states.state.same f.ui.toJson = true
  dirty : f.ui.dirty = !(f.diff false).isEmpty

/-- An action brings everything in step, whatever was in step before. -/
private theorem inStep_apply {f : Form} (hready : f.ui.ready = true) (action : Action) :
    (f.apply action).InStep := by
  have hmade := apply_setting f action
  simp only [setting, Setting.mk.injEq] at hmade
  obtain ⟨hschema, hview, hregistry, -⟩ := hmade
  refine ⟨?_, ?_, ?_, apply_dirty hready action⟩
  · rw [apply_data]
    exact Store.same_set _ _
  · rw [apply_options, hschema, hview, hregistry]
    exact Store.same_set _ _
  · rw [apply_states hready]
    exact Store.same_set _ _

private theorem InStep.display {f : Form} (h : f.InStep) {ui : Ui} (hsame : ui.dirty = f.ui.dirty) :
    (f.display ui).InStep :=
  ⟨h.data, h.options, Store.same_set _ _, hsame.trans h.dirty⟩

private theorem InStep.validate {f : Form} (h : f.InStep) : f.validate.InStep := by
  unfold Form.validate
  split
  · exact ⟨h.data, h.options, Store.same_set _ _, rfl⟩
  · exact h

/-- The form is ready, and in step once an action was applied to it. -/
structure Live (f : Form) : Prop where
  ready : f.ui.ready = true
  inStep : f.session.changeId ≠ 0 → f.InStep

private theorem Live.apply {f : Form} (h : f.Live) (action : Action) : (f.apply action).Live :=
  ⟨(apply_ready f action).trans h.ready, fun _ => inStep_apply h.ready action⟩

private theorem Live.display {f : Form} (h : f.Live) {ui : Ui} (hready : ui.ready = true)
    (hsame : ui.dirty = f.ui.dirty) : (f.display ui).Live :=
  ⟨hready, fun hreduced => (h.inStep hreduced).display hsame⟩

/-- A form that is not ready makes every action wait, so its document was never touched. -/
structure Guarded (f : Form) : Prop where
  ready_iff : f.ui.ready = true ↔ f.waiting = none
  untouched : f.ui.ready = false → f.session.changeId = 0

/-- The invariant between operations. -/
structure Sound (f : Form) : Prop extends Guarded f where
  inStep : f.ui.ready = true → f.session.changeId ≠ 0 → f.InStep

private theorem Live.sound {f : Form} (h : f.Live) (hnoneWaits : f.waiting = none) : f.Sound :=
  ⟨⟨by simp [h.ready, hnoneWaits], by simp [h.ready]⟩, fun _ => h.inStep⟩

theorem sound_start (schema : Schema) (view : View) (registry : OptionRegistry) (fixedData : Json)
    (ids : RowIds) : (start schema view registry fixedData ids).Sound :=
  ⟨⟨by simp [start, Ui.start], fun _ => rfl⟩, by simp [start, Ui.start]⟩

/-- One form comes from another: it was made from the same things, its owner was told of every
reduction in between, once, and no action waits any more once none did. -/
structure Continues (f g : Form) : Prop where
  setting : g.setting = f.setting
  told : g.reports.length + f.session.changeId = f.reports.length + g.session.changeId
  released : f.waiting = none → g.waiting = none

private theorem Continues.refl (f : Form) : f.Continues f := ⟨rfl, rfl, id⟩

private theorem Continues.trans {f g h : Form} (hfirst : f.Continues g) (hsecond : g.Continues h) :
    f.Continues h :=
  ⟨hsecond.setting.trans hfirst.setting, by have := hfirst.told; have := hsecond.told; omega,
    fun hfreed => hsecond.released (hfirst.released hfreed)⟩

private theorem continues_apply {f : Form} (hready : f.ui.ready = true) (action : Action) :
    f.Continues (f.apply action) := by
  refine ⟨apply_setting f action, ?_, (apply_waiting f action).trans⟩
  rw [reports_apply hready, apply_session, reduce_changeId, List.length_append,
    List.length_singleton]
  omega

private theorem continues_display (f : Form) (ui : Ui) : f.Continues (f.display ui) :=
  ⟨rfl, by rw [reports_display]; rfl, id⟩

private theorem Live.replay {f : Form} (h : f.Live) : f.replay.Sound ∧ f.Continues f.replay := by
  -- Between two of the actions the form is some other live form, so the claim is one about all.
  suffices hgoal : ∀ (queue : List Action) (g : Form), g.Live → g.waiting = none →
      (queue.foldl Form.apply g).Sound ∧ g.Continues (queue.foldl Form.apply g) by
    have hfreed : ({ f with waiting := none } : Form).Live :=
      ⟨h.ready, fun hreduced =>
        have hbefore := h.inStep hreduced
        ⟨hbefore.data, hbefore.options, hbefore.states, hbefore.dirty⟩⟩
    obtain ⟨hsound, hcontinues⟩ := hgoal (f.waiting.getD []) { f with waiting := none } hfreed rfl
    exact ⟨hsound, hcontinues.setting, hcontinues.told, fun _ => hcontinues.released rfl⟩
  intro queue
  induction queue with
  | nil => exact fun g hlive hnoneWaits => ⟨hlive.sound hnoneWaits, .refl g⟩
  | cons action queue ih =>
    intro g hlive hnoneWaits
    obtain ⟨hsound, hcontinues⟩ :=
      ih (g.apply action) (hlive.apply action) ((apply_waiting g action).trans hnoneWaits)
    exact ⟨hsound, (continues_apply hlive.ready action).trans hcontinues⟩

private theorem Guarded.dispatch {f : Form} (h : f.Guarded) (action : Action) :
    (f.dispatch action).Sound ∧ f.Continues (f.dispatch action) := by
  unfold Form.dispatch
  split
  · rename_i queue hwaits
    have hunready : f.ui.ready = false := by
      rw [← Bool.not_eq_true, h.ready_iff, hwaits]
      simp
    refine ⟨⟨⟨by simp [hunready], fun _ => h.untouched hunready⟩, by simp [hunready]⟩, rfl, rfl, ?_⟩
    exact fun hfreed => absurd (hwaits.symm.trans hfreed) (by simp)
  · rename_i hwaits
    have hready := h.ready_iff.mpr hwaits
    have hlive : (f.apply action).Live :=
      ⟨(apply_ready f action).trans hready, fun _ => inStep_apply hready action⟩
    exact ⟨hlive.sound ((apply_waiting f action).trans hwaits), continues_apply hready action⟩

private theorem Sound.display {f : Form} (h : f.Sound) {ui : Ui} (hready : ui.ready = f.ui.ready)
    (hsame : ui.dirty = f.ui.dirty) : (f.display ui).Sound := by
  refine ⟨⟨?_, ?_⟩, ?_⟩
  · exact (iff_of_eq (congrArg (· = true) hready)).trans h.ready_iff
  · exact fun hunready => h.untouched (hready.symm.trans hunready)
  · exact fun hr hreduced => (h.inStep (hready.symm.trans hr) hreduced).display hsame

private theorem Sound.validate {f : Form} (h : f.Sound) : f.validate.Sound := by
  refine ⟨?_, ?_⟩
  · rw [validate_eq]
    exact ⟨by rw [validate_ready]; exact h.ready_iff, by rw [validate_ready]; exact h.untouched⟩
  · intro hready hreduced
    rw [validate_ready] at hready
    rw [validate_eq] at hreduced
    exact (h.inStep hready hreduced).validate

/-! ### The loads -/

theorem live_finishLoad (f : Form) (loaded : Json) :
    (f.finishLoad loaded).Live ∧ f.Continues (f.finishLoad loaded) := by
  unfold finishLoad
  refine ⟨Live.display ?_ ?_ rfl, ?_⟩
  · exact ⟨apply_ready _ _, fun _ => inStep_apply rfl _⟩
  · exact apply_ready _ _
  · refine Continues.trans ?_ (continues_display _ _)
    refine Continues.trans ?_ (continues_apply rfl _)
    exact ⟨rfl, rfl, id⟩

private theorem Sound.live_failLoad {f : Form} (h : f.Sound) (e : LoadError) :
    (f.failLoad e).Live ∧ f.Continues (f.failLoad e) := by
  refine ⟨⟨rfl, fun hreduced => ?_⟩, continues_display _ _⟩
  cases hready : f.ui.ready with
  | false => exact absurd (h.untouched hready) hreduced
  | true => exact (h.inStep hready hreduced).display rfl

theorem Sound.initialised {f : Form} (h : f.Sound) (force : Bool)
    (answer : Option (Except LoadError Json)) :
    (f.initialised force answer).Sound ∧ f.Continues (f.initialised force answer) := by
  have hbegun : f.beginLoad.Sound ∧ f.Continues f.beginLoad :=
    ⟨h.display rfl rfl, continues_display _ _⟩
  have hreplayed {g : Form} (htaken : g.Live ∧ f.beginLoad.Continues g) :
      g.replay.Sound ∧ f.Continues g.replay := by
    obtain ⟨hsound, hcontinues⟩ := htaken.1.replay
    exact ⟨hsound, (hbegun.2.trans htaken.2).trans hcontinues⟩
  rcases initialised_cases f force answer with ⟨hidle, -⟩ | ⟨loaded, htaken⟩ | ⟨e, hfailed⟩
  · rw [hidle]
    exact ⟨h, .refl f⟩
  · rw [htaken]
    exact hreplayed (live_finishLoad f.beginLoad loaded)
  · rw [hfailed]
    exact hreplayed (hbegun.1.live_failLoad e)

/-! ### The drain of deferred recomputations -/

private theorem Sound.applyResults {f : Form} (h : f.Sound) (results : List Pending) :
    (f.applyResults results).Sound ∧ f.Continues (f.applyResults results) := by
  induction results generalizing f with
  | nil => exact ⟨h, .refl f⟩
  | cons p results ih =>
    obtain ⟨hsound, hcontinues⟩ :=
      h.toGuarded.dispatch (.deferredDepChange p.listener p.deferral.recompute p.context)
    exact ⟨(ih hsound).1, hcontinues.trans (ih hsound).2⟩

private theorem Sound.settleRound {f : Form} (h : f.Sound) (order : CompletionOrder) :
    (f.settleRound order).Sound ∧ f.Continues (f.settleRound order) := by
  have htaken : ({ f with deferred := [] } : Form).Guarded := ⟨h.ready_iff, h.untouched⟩
  obtain ⟨hsound, hcontinues⟩ := htaken.dispatch .clearDeferredQueue
  obtain ⟨hsettled, happlied⟩ := hsound.applyResults (order.arrange f.deferred)
  refine ⟨hsettled, Continues.trans ?_ happlied⟩
  exact ⟨hcontinues.setting, hcontinues.told, hcontinues.released⟩

private theorem Sound.settleDeferred {f : Form} (h : f.Sound) (order : CompletionOrder) :
    (f.settleDeferred order).2.Sound ∧ f.Continues (f.settleDeferred order).2 := by
  -- The recursion is on the rounds of the drain: a round keeps the invariant, whatever it queues.
  induction f using settleDeferred.induct order with
  | case1 f hempty =>
    rw [Form.settleDeferred, if_pos hempty]
    exact ⟨h, .refl f⟩
  | case2 f hpending count settled _ ih =>
    rw [Form.settleDeferred, if_neg hpending]
    obtain ⟨hsound, hcontinues⟩ := h.settleRound order
    exact ⟨(ih hsound).1, hcontinues.trans (ih hsound).2⟩

/-! ### Runs -/

private theorem Sound.setInitial {f : Form} (h : f.Sound) (p : Path) (value : Json) :
    (f.setInitial p value).Sound ∧ f.Continues (f.setInitial p value) := by
  unfold Form.setInitial
  split
  · exact ⟨h, .refl f⟩
  · obtain ⟨_, ids⟩ := RowId.stamp false f.ids value
    have hreplaced (doc : Json) : ({ f with ids := ids, initialData := doc } : Form).Guarded :=
      ⟨h.ready_iff, h.untouched⟩
    obtain ⟨hsound, hcontinues⟩ := (hreplaced _).dispatch _
    exact ⟨hsound, hcontinues.setting, hcontinues.told, hcontinues.released⟩

private theorem Sound.reset {f : Form} (h : f.Sound) : f.reset.Sound ∧ f.Continues f.reset := by
  have hreplaced (doc : Json) : ({ f with initialData := doc } : Form).Guarded :=
    ⟨h.ready_iff, h.untouched⟩
  obtain ⟨hsound, hcontinues⟩ := (hreplaced _).dispatch _
  exact ⟨hsound, hcontinues.setting, hcontinues.told, hcontinues.released⟩

private theorem Sound.tell {f : Form} (h : f.Sound) (events : List FormEvent) :
    (f.tell events).Sound :=
  ⟨⟨h.ready_iff, h.untouched⟩, fun hready hreduced =>
    have hbefore := h.inStep hready hreduced
    ⟨hbefore.data, hbefore.options, hbefore.states, hbefore.dirty⟩⟩

private theorem Sound.save {f : Form} (h : f.Sound) (failure : Option String) :
    (f.save failure).1.Sound ∧ f.Continues (f.save failure).1 := by
  unfold Form.save
  split
  · have hbegun : f.beginSave.Sound := by
      have hshown : (f.display { f.ui with saving := true, message := Ui.savingMessage }).Sound :=
        h.display rfl rfl
      exact hshown.tell _
    have hsilent : f.Continues f.beginSave := by
      have hunreported :
          [FormEvent.saving f.isNew (f.changes true)].filterMap FormEvent.report? = [] :=
        rfl
      refine ⟨rfl, ?_, id⟩
      rw [beginSave, reports_tell, reports_display, hunreported, List.append_nil]
      rfl
    cases failure with
    | none => exact ⟨hbegun.display rfl rfl, hsilent.trans (continues_display _ _)⟩
    | some message => exact ⟨hbegun.display rfl rfl, hsilent.trans (continues_display _ _)⟩
  · exact ⟨h, .refl f⟩

private theorem Sound.withStore {f : Form} (h : f.Sound) (kind : StoreKind) {s : Store}
    (hsame : s.state = (f.store kind).state) :
    (f.withStore kind s).Sound ∧ f.Continues (f.withStore kind s) := by
  have hcontinues : f.Continues (f.withStore kind s) := by
    refine ⟨?_, ?_, ?_⟩
    · cases kind <;> rfl
    · rw [reports_withStore]
      cases kind <;> rfl
    · cases kind <;> exact id
  refine ⟨?_, hcontinues⟩
  cases kind <;> refine ⟨⟨h.ready_iff, h.untouched⟩, fun hready hreduced => ?_⟩
  all_goals have hbefore := h.inStep hready hreduced
  · exact ⟨hsame ▸ hbefore.data, hbefore.options, hbefore.states, hbefore.dirty⟩
  · exact ⟨hbefore.data, hsame ▸ hbefore.options, hbefore.states, hbefore.dirty⟩
  · exact ⟨hbefore.data, hbefore.options, hsame ▸ hbefore.states, hbefore.dirty⟩

/-- Every operation keeps the invariant, and all but a validation tell the owner of exactly the
reductions they make. -/
theorem Sound.perform {f : Form} (h : f.Sound) (op : FormOp) :
    (f.perform op).Sound ∧ (op ≠ .validate → f.Continues (f.perform op)) := by
  have hsteady {g : Form} (hkept : g.Sound ∧ f.Continues g) :
      g.Sound ∧ (op ≠ .validate → f.Continues g) := ⟨hkept.1, fun _ => hkept.2⟩
  cases op with
  | dispatch action => exact hsteady (h.toGuarded.dispatch action)
  | initialise force answer => exact hsteady (h.initialised force answer)
  | validate => exact ⟨h.validate, fun hvalidates => absurd rfl hvalidates⟩
  | settleDeferred order => exact hsteady (h.settleDeferred order)
  | setInitial p value => exact hsteady (h.setInitial p value)
  | reset => exact hsteady h.reset
  | save failure => exact hsteady (h.save failure)
  | report p => exact hsteady ⟨h.display rfl rfl, continues_display _ _⟩
  | clearMessage => exact hsteady ⟨h.display rfl rfl, continues_display _ _⟩
  | subscribe kind => exact hsteady (h.withStore kind rfl)
  | subscribeAt kind p => exact hsteady (h.withStore kind rfl)
  | unsubscribe kind id => exact hsteady (h.withStore kind rfl)

theorem Sound.perform_frame {f : Form} (h : f.Sound) (op : FormOp) :
    (f.perform op).setting = f.setting ∧ (f.waiting = none → (f.perform op).waiting = none) := by
  by_cases hvalidates : op = .validate
  · rw [hvalidates, Form.perform, validate_eq]
    exact ⟨rfl, id⟩
  · have hcontinues := (h.perform op).2 hvalidates
    exact ⟨hcontinues.setting, hcontinues.released⟩

/-- Every run of a form that was just made keeps the invariant and what the form was made from. -/
theorem sound_run (schema : Schema) (view : View) (registry : OptionRegistry) (fixedData : Json)
    (ids : RowIds) (ops : List FormOp) :
    ((start schema view registry fixedData ids).run ops).Sound ∧
    ((start schema view registry fixedData ids).run ops).setting =
      ⟨schema, view, registry, fixedData⟩ :=
  run_induction
    (P := fun f => f.Sound ∧ f.setting = ⟨schema, view, registry, fixedData⟩)
    (fun _ op h => ⟨(h.1.perform op).1, (h.1.perform_frame op).1.trans h.2⟩)
    ⟨sound_start schema view registry fixedData ids, rfl⟩ ops

theorem made_run (schema : Schema) (view : View) (registry : OptionRegistry) (fixedData : Json)
    (ids : RowIds) (ops : List FormOp) :
    let f := (start schema view registry fixedData ids).run ops
    f.schema = schema ∧ f.view = view ∧ f.registry = registry := by
  obtain ⟨-, hmade⟩ := sound_run schema view registry fixedData ids ops
  simp only [setting, Setting.mk.injEq] at hmade
  exact ⟨hmade.1, hmade.2.1, hmade.2.2.1⟩

/-- In every state that a run reaches, what a form publishes is in step with its document as soon as
the form is ready and an action was applied. After every action a ready form reports the problem
that the validation of the document finds, and tells its owner once; no operation but a validation
tells the owner of more or less than the reductions it makes. -/
theorem coherent_run (schema : Schema) (view : View) (registry : OptionRegistry) (fixedData : Json)
    (ids : RowIds) (ops : List FormOp) :
    let f := (start schema view registry fixedData ids).run ops
    (f.ui.ready = true → f.session.changeId ≠ 0 →
      f.data.state.same f.session.doc = true ∧
      f.options.state.same (registry.tree schema f.session.doc view) = true ∧
      f.states.state.same f.ui.toJson = true ∧
      (f.ui.dirty = true ↔
        schema.diff ⟨view.mode, view.keepRowIds, false, false⟩ f.initialData f.session.doc ≠ [])) ∧
    (f.ui.ready = true → ∀ action,
      let g := f.dispatch action
      g.ui.problem.name = (Validation.failure? schema g.session.doc).map (·.path.flat) ∧
      g.reports = f.reports ++ [(g.ui.dirty, g.changes false)]) ∧
    ∀ op, op ≠ .validate →
      (f.perform op).reports.length + f.session.changeId =
        f.reports.length + (f.perform op).session.changeId := by
  intro f
  obtain ⟨hsound, hmade⟩ : f.Sound ∧ f.setting = ⟨schema, view, registry, fixedData⟩ :=
    sound_run schema view registry fixedData ids ops
  clear_value f
  obtain ⟨hschema, hview, hregistry, -⟩ : f.schema = schema ∧ f.view = view ∧
      f.registry = registry ∧ f.fixedData = fixedData := by
    simpa [setting] using hmade
  rw [← hschema, ← hview, ← hregistry]
  refine ⟨fun hready hreduced => ?_, fun hready action => ?_, fun op hvalidates => ?_⟩
  · have hinStep := hsound.inStep hready hreduced
    refine ⟨hinStep.data, hinStep.options, hinStep.states, ?_⟩
    rw [hinStep.dirty]
    simp [diff]
  · have happlied := dispatch_released (hsound.ready_iff.mp hready) action
    have hsame : (f.apply action).schema = f.schema :=
      congrArg Setting.schema (apply_setting f action)
    simp only [happlied]
    rw [← hsame]
    exact ⟨apply_problem_name hready action, reports_apply hready action⟩
  · exact ((hsound.perform op).2 hvalidates).told

/-- A form with one required field, after an action that waited for the load and a save that
failed. -/
private def renamed : Form :=
  (start ⟨[.input { FieldTraits.plain with id := some "name", noEmpty := true } .text], .plain⟩
    (.ofMode .edit) .empty .empty ⟨0⟩).run
    [.dispatch (.setValue (Path.root.key "name") (.text "new")),
      .initialise false (some (.ok (.ofPairs [("name", .text "old")]))), .save (some "offline")]

theorem coherent_run_renamed :
    let emptied := renamed.dispatch (.setValue (Path.root.key "name") (.text ""))
    renamed.ui.ready = true ∧ renamed.session.changeId ≠ 0 ∧ FormOp.reset ≠ .validate ∧
      renamed.states.state.same renamed.ui.toJson = true ∧ renamed.ui.dirty = true ∧
      renamed.schema.diff ⟨.edit, false, false, false⟩ renamed.initialData
        renamed.session.doc ≠ [] ∧
      emptied.ui.problem.name = some "name" ∧
      emptied.reports = renamed.reports ++ [(emptied.ui.dirty, emptied.changes false)] ∧
      (renamed.perform .reset).reports.length + 2 = renamed.reports.length + 3 := by
  have hother : FormOp.reset ≠ .validate := by simp
  have hready : renamed.ui.ready = true := by decide +kernel
  have hreduced : renamed.session.changeId ≠ 0 := by decide +kernel
  have hedited : renamed.ui.dirty = true := by decide +kernel
  have honce : renamed.session.changeId = 2 ∧ (renamed.perform .reset).session.changeId = 3 := by
    decide +kernel
  obtain ⟨hinStep, hreported, htold⟩ := coherent_run _ _ _ _ _ _
  obtain ⟨-, -, hstates, hdirty⟩ := hinStep hready hreduced
  obtain ⟨hproblem, hreports⟩ := hreported hready (.setValue (Path.root.key "name") (.text ""))
  have hrefused : (Validation.failure? renamed.schema (renamed.dispatch
      (.setValue (Path.root.key "name") (.text ""))).session.doc).map (·.path.flat) =
      some "name" := by
    decide +kernel
  have hcounted : (renamed.perform .reset).reports.length + renamed.session.changeId =
      renamed.reports.length + (renamed.perform .reset).session.changeId := htold .reset hother
  rw [honce.1, honce.2] at hcounted
  refine ⟨hready, hreduced, hother, hstates, hedited, ?_, ?_, ?_, ?_⟩
  · exact hdirty.mp hedited
  · exact hproblem.trans hrefused
  · exact hreports
  · exact hcounted

end Form

end SchemaForm
