import SchemaForm.Proofs.Form.LoadFailure
import SchemaForm.Proofs.Form.Lifecycle
import SchemaForm.Proofs.Path.Cover
import SchemaForm.Proofs.Validation.Walk

set_option autoImplicit false
set_option relaxedAutoImplicit false

/-!
The error of a failed save. A form reports it until the next validation, load or failed save. A save
that succeeds is none of these, so the error of a failed save stays in sight after it.
-/

namespace SchemaForm

/-! ### Locations that are never reported -/

namespace Field

mutual

/-- Whether no field of an id lies in a field, the field itself included, and no schema in it has a
validator. -/
def neverReports (id : String) : Field → Bool
  | .input t _ | .group t _ => t.id != some id
  | .nested t _ fields schema | .collection t fields schema _ =>
    t.id != some id && schema.validator.isNone && neverReportAny id fields

def neverReportAny (id : String) : List Field → Bool
  | [] => true
  | f :: rest => neverReports id f && neverReportAny id rest

end

private theorem neverReportAny_iff {id : String} {fields : List Field} :
    neverReportAny id fields = true ↔ ∀ f ∈ fields, f.neverReports id = true := by
  induction fields with
  | nil => simp [neverReportAny]
  | cons f rest ih => simp [neverReportAny, ih]

end Field

/-- Whether no field in a schema has an id, and no schema in it a validator. -/
def Schema.neverReports (s : Schema) (id : String) : Bool :=
  s.traits.validator.isNone && Field.neverReportAny id s.fields

namespace Path

private theorem dot_mem_flatChars_child {p : Path} (hp : p.segments ≠ []) (s : Segment) :
    '.' ∈ (p.child s).flatChars := by
  obtain ⟨segments⟩ := p
  obtain ⟨first, rest, rfl⟩ := List.exists_cons_of_ne_nil hp
  cases rest with
  | nil => simp [flatChars, child]
  | cons second rest => simp [flatChars, child]

private theorem flatChars_key_root (id : String) : (root.key id).flatChars = id.toList := by
  simp [flatChars, key, child, root, Segment.chars]

end Path

namespace Validation

variable {s : Schema} {doc : Json} {l : Level} {name : String}

private theorem Reached.neverReports (hl : Reached s doc l) (hs : s.neverReports name = true) :
    l.traits.validator = none ∧ ∀ f ∈ l.fields, f.neverReports name = true := by
  induction hl with
  | root => simpa [Schema.neverReports, Field.neverReportAny_iff, Level.ofDocument] using hs
  | nested _ hfield _ ih =>
    have hinner := ih.2 _ hfield
    simp only [Field.neverReports, Bool.and_eq_true, Field.neverReportAny_iff] at hinner
    exact ⟨by simpa using hinner.1.2, hinner.2⟩
  | row _ hfield _ _ _ ih =>
    have hinner := ih.2 _ hfield
    simp only [Field.neverReports, Bool.and_eq_true, Field.neverReportAny_iff] at hinner
    exact ⟨by simpa using hinner.1.2, hinner.2⟩

/-- No other location reads like a field of the document, unless its name has a dot. -/
private theorem flat_key_ne {p : Path} {id : String} (hid : id ≠ name) (hdot : '.' ∉ name.toList) :
    (p.key id).flat ≠ name := by
  rintro rfl
  rw [Path.flat, String.toList_ofList] at hdot
  obtain ⟨segments⟩ := p
  cases segments with
  | nil =>
    refine hid ?_
    rw [Path.flat, show Path.mk [] = .root from rfl, Path.flatChars_key_root, String.ofList_toList]
  | cons first rest => exact hdot (Path.dot_mem_flatChars_child (List.cons_ne_nil _ _) _)

private theorem flat_failure_ne (hs : s.neverReports name = true) (hdot : '.' ∉ name.toList)
    {e : Failure} (he : failure? s doc = some e) : e.path.flat ≠ name := by
  rw [failure?_eq] at he
  obtain ⟨r, hr, hfailure⟩ := List.exists_of_findSome?_eq_some he
  have hid {l : Level} (hl : Reached s doc l) {f : Field} (hf : f ∈ l.fields) {id : String}
      (hname : f.id? = some id) : id ≠ name := by
    rintro rfl
    have hnever := (hl.neverReports hs).2 f hf
    cases f <;> simp_all [Field.neverReports, Field.id?, Field.traits]
  cases mem_walk_iff.mp hr with
  | input hl hfield hname _ =>
    obtain ⟨message, -, rfl⟩ := Option.map_eq_some_iff.mp hfailure
    exact flat_key_ne (hid hl hfield hname) hdot
  | unique hl hfield hname _ =>
    obtain ⟨place, -, rfl⟩ := Option.map_eq_some_iff.mp hfailure
    exact flat_key_ne (hid hl hfield hname) hdot
  | custom hl =>
    have hnone := (hl.neverReports hs).1
    simp [Rule.failure?, customFailure?, SchemaTraits.reports, hnone] at hfailure

end Validation

namespace Form

/-! ### What replaces the problem -/

/-- The name under which a failed save is reported. -/
def saveError : String := "saveerror"

/-- An operation leaves the problem that the form reports in place, but perhaps without its message:
it applies no action, and neither validates a ready form nor loads nor fails to save nor reports
another problem. -/
def Spares (f : Form) (op : FormOp) : Prop :=
  f.applied op = [] ∧
    match op with
    | .initialise force answer => f.wouldLoad force = true → answer = none ∧ f.creates = false
    | .validate => f.ui.ready = false
    | .save failure => f.ui.ready = true → failure = none
    | .report _ => False
    | _ => True

def SparesAll (f : Form) : List FormOp → Prop
  | [] => True
  | op :: ops => f.Spares op ∧ (f.perform op).SparesAll ops

section Spared

variable {f : Form}

private theorem ui_dispatch_of_waits {action : Action} (h : f.dispatched action = []) :
    (f.dispatch action).ui = f.ui := by
  cases hwaits : f.waiting with
  | some queue => simp only [dispatch, hwaits]
  | none => simp [dispatched, hwaits] at h

private theorem ui_applyResults_of_waits {results : List Pending}
    (h : (results.map resultOf).flatMap f.dispatched = []) :
    (f.applyResults results).ui = f.ui := by
  induction results generalizing f with
  | nil => rfl
  | cons p results ih =>
    obtain ⟨hfirst, hlater⟩ := List.append_eq_nil_iff.mp h
    rw [← dispatched_dispatch f (resultOf p)] at hlater
    exact (ih hlater).trans (ui_dispatch_of_waits hfirst)

private theorem ui_settleDeferred_of_spares {order : CompletionOrder}
    (h : f.applied (.settleDeferred order) = []) : (f.settleDeferred order).2.ui = f.ui := by
  by_cases hempty : f.deferred = []
  · rw [settleDeferred, if_pos (List.isEmpty_iff.mpr hempty)]
  · rw [applied, if_neg (by simpa using hempty), List.flatMap_cons] at h
    obtain ⟨hfirst, hlater⟩ := List.append_eq_nil_iff.mp h
    have hdrained : f.drained.dispatched = f.dispatched :=
      dispatched_dispatch { f with deferred := [] } .clearDeferredQueue
    rw [settleDeferred_of_pending hempty]
    exact (ui_applyResults_of_waits (hdrained ▸ hlater)).trans
      (ui_dispatch_of_waits (f := { f with deferred := [] }) hfirst)

private theorem problem_perform_of_spares {op : FormOp} (h : f.Spares op) :
    (op ≠ .clearMessage → (f.perform op).ui.problem = f.ui.problem) ∧
      (f.perform .clearMessage).ui.problem = { f.ui.problem with message := none } := by
  refine ⟨fun hop => ?_, rfl⟩
  cases op with
  | dispatch action => exact congrArg Ui.problem (ui_dispatch_of_waits h.1)
  | initialise force answer =>
    have hidle : f.initialised force answer = f := by
      unfold initialised initialise
      cases hloads : f.wouldLoad force with
      | false => rfl
      | true =>
        obtain ⟨rfl, hcreates⟩ := h.2 hloads
        simp [hcreates]
    rw [perform, hidle]
  | validate => simp [perform, validate, h.2]
  | settleDeferred order => exact congrArg Ui.problem (ui_settleDeferred_of_spares h.1)
  | setInitial p value =>
    have hwaits := h.1
    simp only [applied] at hwaits
    simp only [perform, setInitial]
    split at hwaits
    · rename_i hroot
      rw [if_pos hroot]
    · rename_i hroot
      rw [if_neg hroot]
      exact congrArg Ui.problem (ui_dispatch_of_waits (f := { f with ids := _, initialData := _ })
        hwaits)
  | reset => exact congrArg Ui.problem (ui_dispatch_of_waits (f := { f with initialData := _ }) h.1)
  | save failure =>
    cases hready : f.ui.ready with
    | false => rw [perform, save_of_unready hready]
    | true =>
      obtain rfl : failure = none := h.2 hready
      rw [perform, save, if_pos hready]
      rfl
  | report p => exact absurd h.2 id
  | clearMessage => exact absurd rfl hop
  | subscribe kind => cases kind <;> rfl
  | subscribeAt kind p => cases kind <;> rfl
  | unsubscribe kind id => cases kind <;> rfl

private theorem applyResults_eq_foldl {f : Form} (hfreed : f.waiting = none)
    (results : List Pending) :
    f.applyResults results = (results.map resultOf).foldl Form.apply f := by
  induction results generalizing f with
  | nil => rfl
  | cons p results ih =>
    have hfirst : f.dispatch (resultOf p) = f.apply (resultOf p) := dispatch_released hfreed _
    calc f.applyResults (p :: results) = (f.dispatch (resultOf p)).applyResults results := rfl
      _ = (f.apply (resultOf p)).applyResults results := by rw [hfirst]
      _ = (results.map resultOf).foldl Form.apply (f.apply (resultOf p)) :=
        ih ((apply_waiting f _).trans hfreed)

private theorem settleDeferred_eq_foldl (hfreed : f.waiting = none) (hpending : f.deferred ≠ [])
    (order : CompletionOrder) : (f.settleDeferred order).2 =
      (.clearDeferredQueue :: (order.arrange f.deferred).map resultOf).foldl Form.apply
        { f with deferred := [] } := by
  have hdrained : f.drained = ({ f with deferred := [] } : Form).apply .clearDeferredQueue :=
    dispatch_released (f := { f with deferred := [] }) hfreed _
  have hkept : f.drained.waiting = none := by
    rw [hdrained]
    exact (apply_waiting { f with deferred := [] } _).trans hfreed
  rw [settleDeferred_of_pending hpending, applyResults_eq_foldl hkept, hdrained, List.foldl_cons]

end Spared

section Replaced

variable {f : Form} (hschema : f.schema.neverReports saveError = true)

include hschema

private theorem checked_ne_saveError {doc : Json} :
    (Validation.failure? f.schema doc).map (·.path.flat) ≠ some saveError := by
  intro h
  obtain ⟨e, he, hflat⟩ := Option.map_eq_some_iff.mp h
  exact Validation.flat_failure_ne hschema (by decide) he hflat

private theorem validate_ne_saveError (hready : f.ui.ready = true) :
    f.validate.ui.problem.name ≠ some saveError := by
  rw [validate_problem_name hready, validate_eq]
  exact checked_ne_saveError hschema

private theorem apply_ne_saveError (hready : f.ui.ready = true) (action : Action) :
    (f.apply action).ui.problem.name ≠ some saveError := by
  rw [apply_problem_name hready, apply_schema]
  exact checked_ne_saveError hschema

private theorem foldl_apply_ne_saveError (hready : f.ui.ready = true) {actions : List Action}
    (hname : actions = [] → f.ui.problem.name ≠ some saveError) :
    (actions.foldl Form.apply f).ui.problem.name ≠ some saveError := by
  induction actions generalizing f with
  | nil => exact hname rfl
  | cons action actions ih =>
    exact ih (by rw [apply_schema]; exact hschema) ((apply_ready f action).trans hready)
      fun _ => apply_ne_saveError hschema hready action

private theorem dispatch_ne_saveError (hsound : f.Guarded) {action : Action}
    (h : f.dispatched action ≠ []) : (f.dispatch action).ui.problem.name ≠ some saveError := by
  cases hwaits : f.waiting with
  | some queue => simp [dispatched, hwaits] at h
  | none =>
    rw [dispatch_released hwaits]
    exact apply_ne_saveError hschema (hsound.ready_iff.mpr hwaits) action

private theorem finishLoad_ne_saveError (loaded : Json) :
    (f.finishLoad loaded).ui.problem.name ≠ some saveError := by
  have hready : (f.readied loaded).ui.ready = true := rfl
  have happlied := apply_ne_saveError (f := f.readied loaded) hschema hready
    (.init (f.initialDocument loaded).1)
  rw [finishLoad_eq]
  generalize (f.readied loaded).apply (.init (f.initialDocument loaded).1) = g at happlied ⊢
  exact happlied

private theorem replay_ne_saveError (hready : f.ui.ready = true)
    (hname : f.ui.problem.name ≠ some saveError) : f.replay.ui.problem.name ≠ some saveError :=
  foldl_apply_ne_saveError (f := { f with waiting := none }) hschema hready fun _ => hname

private theorem settleDeferred_ne_saveError (hsound : f.Sound) {order : CompletionOrder}
    (h : f.applied (.settleDeferred order) ≠ []) :
    (f.settleDeferred order).2.ui.problem.name ≠ some saveError := by
  by_cases hempty : f.deferred = []
  · simp [applied, hempty] at h
  cases hwaits : f.waiting with
  | some queue =>
    have hnone : ∀ action, f.dispatched action = [] := fun action => by
      simp only [dispatched, hwaits]
    exact absurd (by simp [applied, hempty, hnone]) h
  | none =>
    rw [settleDeferred_eq_foldl hwaits hempty]
    exact foldl_apply_ne_saveError (f := { f with deferred := [] }) hschema
      (hsound.ready_iff.mpr hwaits) fun hnone => absurd hnone (List.cons_ne_nil _ _)

private theorem initialised_ne_saveError {force : Bool} {answer : Option (Except LoadError Json)}
    (h : ¬ f.Spares (.initialise force answer)) :
    (f.initialised force answer).ui.problem.name ≠ some saveError := by
  rcases initialised_cases f force answer with ⟨-, hidle⟩ | ⟨loaded, htaken⟩ | ⟨e, hfailed⟩
  · refine absurd ⟨?_, hidle⟩ h
    simp only [applied]
    split
    · rename_i hloads
      obtain ⟨rfl, hcreates⟩ := hidle hloads
      simp [loadedBy, hcreates]
    · rfl
  · rw [htaken]
    have hbegun : f.beginLoad.schema.neverReports saveError = true := hschema
    have hsame : (f.beginLoad.finishLoad loaded).schema = f.beginLoad.schema :=
      congrArg Setting.schema (live_finishLoad f.beginLoad loaded).2.setting
    exact replay_ne_saveError (by rw [hsame]; exact hbegun)
      (congrArg Stage.ready (stage_finishLoad f.beginLoad loaded))
      (finishLoad_ne_saveError hbegun loaded)
  · rw [hfailed]
    have hother : some "apierror" ≠ some saveError := by decide
    exact replay_ne_saveError hschema rfl hother

private theorem ne_saveError_of_not_spares (hsound : f.Sound) {op : FormOp}
    (hop : ∀ p, op ≠ .report p) (h : ¬ f.Spares op) :
    (∃ m, op = .save (some m) ∧ f.ui.ready = true) ∨
      (f.perform op).ui.problem.name ≠ some saveError := by
  cases op with
  | dispatch action =>
    exact .inr (dispatch_ne_saveError hschema hsound.toGuarded fun hnone => h ⟨hnone, trivial⟩)
  | initialise force answer => exact .inr (initialised_ne_saveError hschema h)
  | validate =>
    have hready : f.ui.ready = true := by
      by_contra hunready
      exact h ⟨rfl, by simpa using hunready⟩
    exact .inr (validate_ne_saveError hschema hready)
  | settleDeferred order =>
    exact .inr (settleDeferred_ne_saveError hschema hsound fun hnone => h ⟨hnone, trivial⟩)
  | setInitial p value =>
    have happlied : f.applied (.setInitial p value) ≠ [] := fun hnone => h ⟨hnone, trivial⟩
    simp only [applied] at happlied
    refine .inr ?_
    simp only [perform, setInitial]
    split at happlied
    · exact absurd rfl happlied
    · rename_i hroot
      rw [if_neg hroot]
      let stamped := RowId.stamp false f.ids value
      let g : Form := { f with ids := stamped.2, initialData := f.initialData.setAt p stamped.1 }
      have hguarded : g.Guarded := ⟨hsound.ready_iff, hsound.untouched⟩
      exact dispatch_ne_saveError (f := g) hschema hguarded happlied
  | reset =>
    let g : Form := { f with initialData := f.schema.initialised f.initialData }
    have hguarded : g.Guarded := ⟨hsound.ready_iff, hsound.untouched⟩
    exact .inr (dispatch_ne_saveError (f := g) hschema hguarded fun hnone => h ⟨hnone, trivial⟩)
  | save failure =>
    cases failure with
    | none => exact absurd ⟨rfl, fun _ => rfl⟩ h
    | some m =>
      refine .inl ⟨m, rfl, ?_⟩
      by_contra hunready
      exact h ⟨rfl, fun hready => absurd hready hunready⟩
  | report p => exact absurd rfl (hop p)
  | clearMessage | subscribe _ | subscribeAt _ _ | unsubscribe _ _ => exact absurd ⟨rfl, trivial⟩ h

end Replaced

/-! ### Runs -/

variable {f : Form} {op : FormOp} {ops : List FormOp}

/-- After an operation a save error is reported if a save just failed, or if one was reported before
and the operation leaves it in place. -/
private theorem perform_saveError_iff (hschema : f.schema.neverReports saveError = true)
    (hsound : f.Sound) (hop : ∀ p, op ≠ .report p) :
    (f.perform op).ui.problem.name = some saveError ↔
      (∃ m, op = .save (some m) ∧ f.ui.ready = true) ∨
        f.ui.problem.name = some saveError ∧ f.Spares op := by
  by_cases h : f.Spares op
  · have hsame : (f.perform op).ui.problem.name = f.ui.problem.name := by
      obtain ⟨hkept, hcleared⟩ := problem_perform_of_spares h
      by_cases hclears : op = .clearMessage
      · rw [hclears, hcleared]
      · rw [hkept hclears]
    rw [hsame]
    constructor
    · exact fun hname => .inr ⟨hname, h⟩
    · rintro (⟨m, rfl, hready⟩ | ⟨hname, -⟩)
      · cases h.2 hready
      · exact hname
  · constructor
    · intro hname
      exact .inl ((ne_saveError_of_not_spares hschema hsound hop h).resolve_right
        (not_not_intro hname))
    · rintro (⟨m, rfl, hready⟩ | ⟨-, hspares⟩)
      · rw [perform, save, if_pos hready]
        rfl
      · exact absurd hspares h

private theorem problem_run_of_sparesAll (h : f.SparesAll ops) :
    (.clearMessage ∉ ops → (f.run ops).ui.problem = f.ui.problem) ∧
      (.clearMessage ∈ ops → (f.run ops).ui.problem = { f.ui.problem with message := none }) := by
  induction ops generalizing f with
  | nil => exact ⟨fun _ => rfl, fun hmem => absurd hmem List.not_mem_nil⟩
  | cons op ops ih =>
    obtain ⟨hkept, hcleared⟩ := problem_perform_of_spares h.1
    obtain ⟨hkept', hcleared'⟩ := ih h.2
    refine ⟨fun hnot => ?_, fun hmem => ?_⟩
    · rw [List.mem_cons, not_or] at hnot
      exact (hkept' hnot.2).trans (hkept (Ne.symm hnot.1))
    · rw [run_cons]
      by_cases hfirst : op = .clearMessage
      · subst hfirst
        by_cases hlater : .clearMessage ∈ ops
        · rw [hcleared' hlater, hcleared]
        · rw [hkept' hlater, hcleared]
      · rw [hcleared' ((List.mem_cons.mp hmem).resolve_left (Ne.symm hfirst)), hkept hfirst]

/-- What the handler answers to a save that reaches it: nothing, or the message of a failure. -/
def answered (f : Form) : FormOp → List (Option String)
  | .save failure => if f.ui.ready then [failure] else []
  | _ => []

/-- What the handler answers to the saves of a run, in order. -/
def saveAnswers (f : Form) : List FormOp → List (Option String)
  | [] => []
  | op :: ops => f.answered op ++ (f.perform op).saveAnswers ops

private theorem saveAnswers_append (f : Form) (ops ops' : List FormOp) :
    f.saveAnswers (ops ++ ops') = f.saveAnswers ops ++ (f.run ops).saveAnswers ops' := by
  induction ops generalizing f with
  | nil => rfl
  | cons op ops ih => simp [saveAnswers, ih]

private theorem Sound.ready_perform (hsound : f.Sound) (hready : f.ui.ready = true) (op : FormOp) :
    (f.perform op).ui.ready = true :=
  (hsound.perform op).1.ready_iff.mpr ((hsound.perform_frame op).2 (hsound.ready_iff.mp hready))

private theorem saveAnswers_of_sparesAll (hsound : f.Sound) (hready : f.ui.ready = true)
    (h : f.SparesAll ops) :
    (∀ answer ∈ f.saveAnswers ops, answer = none) ∧
      (f.saveAnswers ops = [] ↔ .save none ∉ ops) := by
  induction ops generalizing f with
  | nil => simp [saveAnswers]
  | cons op ops ih =>
    obtain ⟨hnone, hempty⟩ := ih (hsound.perform op).1 (hsound.ready_perform hready op) h.2
    rw [saveAnswers]
    by_cases hsave : ∃ failure, op = .save failure
    · obtain ⟨failure, rfl⟩ := hsave
      obtain rfl : failure = none := h.1.2 hready
      have hanswered : f.answered (.save none) = [none] := if_pos hready
      simpa [hanswered] using hnone
    · have hanswered : f.answered op = [] := by
        cases op with
        | save failure => exact absurd ⟨failure, rfl⟩ hsave
        | _ => rfl
      have hother : FormOp.save none ≠ op := fun h => hsave ⟨none, h.symm⟩
      simpa [hanswered, hother] using ⟨hnone, hempty⟩

/-- A run splits at a save that failed, after which nothing replaced the problem. -/
structure FailsLast (f : Form) (ops before : List FormOp) (m : String) (after : List FormOp) :
    Prop where
  split : ops = before ++ .save (some m) :: after
  ready : (f.run before).ui.ready = true
  spared : ((f.run before).perform (.save (some m))).SparesAll after

private theorem exists_failsLast_cons : (∃ before m after, f.FailsLast (op :: ops) before m after) ↔
    (∃ m, op = .save (some m) ∧ f.ui.ready = true ∧ (f.perform op).SparesAll ops) ∨
      ∃ before m after, (f.perform op).FailsLast ops before m after := by
  constructor
  · rintro ⟨before, m, after, hsplit, hready, hspared⟩
    cases before with
    | nil =>
      obtain ⟨rfl, rfl⟩ := List.cons.inj hsplit
      exact .inl ⟨m, rfl, hready, hspared⟩
    | cons first before =>
      obtain ⟨rfl, rfl⟩ := List.cons.inj hsplit
      exact .inr ⟨before, m, after, rfl, hready, hspared⟩
  · rintro (⟨m, rfl, hready, hspared⟩ | ⟨before, m, after, hsplit, hready, hspared⟩)
    · exact ⟨[], m, ops, rfl, hready, hspared⟩
    · exact ⟨op :: before, m, after, by rw [hsplit, List.cons_append], hready, hspared⟩

/-- After a run a save error is reported if one was reported before and the run leaves it in place,
or if a save failed in it and the rest of the run left that in place. -/
private theorem run_saveError_iff (hschema : f.schema.neverReports saveError = true)
    (hsound : f.Sound) (hops : ∀ p, .report p ∉ ops) :
    (f.run ops).ui.problem.name = some saveError ↔
      f.ui.problem.name = some saveError ∧ f.SparesAll ops ∨
        ∃ before m after, f.FailsLast ops before m after := by
  induction ops generalizing f with
  | nil =>
    have hnone : ¬ ∃ before m after, f.FailsLast [] before m after := by
      rintro ⟨before, m, after, hsplit, -⟩
      simp at hsplit
    simp [SparesAll, hnone]
  | cons op ops ih =>
    have hop (p : Problem) : op ≠ .report p := fun h => hops p (h ▸ List.mem_cons_self)
    have hsame : (f.perform op).schema = f.schema :=
      congrArg Setting.schema (hsound.perform_frame op).1
    have hlater := ih (f := f.perform op) (by rw [hsame]; exact hschema) (hsound.perform op).1
      fun p hmem => hops p (List.mem_cons_of_mem op hmem)
    rw [run_cons, hlater, perform_saveError_iff hschema hsound hop, exists_failsLast_cons,
      SparesAll]
    constructor
    · rintro (⟨⟨m, hsave, hready⟩ | ⟨hname, hfirst⟩, hspared⟩ | hfails)
      · exact .inr (.inl ⟨m, hsave, hready, hspared⟩)
      · exact .inl ⟨hname, hfirst, hspared⟩
      · exact .inr (.inr hfails)
    · rintro (⟨hname, hfirst, hspared⟩ | ⟨m, hsave, hready, hspared⟩ | hfails)
      · exact .inl ⟨.inr ⟨hname, hfirst⟩, hspared⟩
      · exact .inl ⟨.inl ⟨m, hsave, hready⟩, hspared⟩
      · exact .inr hfails

private theorem FailsLast.reported {before after : List FormOp} {m : String}
    (h : f.FailsLast ops before m after) (hsound : ∀ ops, (f.run ops).Sound) :
    (.clearMessage ∉ after → (f.run ops).ui.problem.message = some m) ∧
      (.clearMessage ∈ after → (f.run ops).ui.problem.message = none) ∧
      ∃ later, f.saveAnswers ops = f.saveAnswers before ++ some m :: later ∧
        (∀ answer ∈ later, answer = none) ∧ (later = [] ↔ .save none ∉ after) := by
  obtain ⟨rfl, hready, hspared⟩ := h
  have hsplit : f.run (before ++ .save (some m) :: after) =
      ((f.run before).perform (.save (some m))).run after := by rw [run_append, run_cons]
  have hproblem : ((f.run before).perform (.save (some m))).ui.problem = .ofSave m := by
    rw [perform, save, if_pos hready]
    rfl
  have hsaved : ((f.run before).perform (.save (some m))).Sound :=
    ((hsound before).perform (.save (some m))).1
  obtain ⟨hkept, hcleared⟩ := problem_run_of_sparesAll hspared
  obtain ⟨hnone, hempty⟩ := saveAnswers_of_sparesAll hsaved
    ((hsound before).ready_perform hready (.save (some m))) hspared
  have hanswered : (f.run before).answered (.save (some m)) = [some m] := if_pos hready
  rw [hsplit]
  refine ⟨fun hnot => ?_, fun hmem => ?_, _, ?_, hnone, hempty⟩
  · rw [hkept hnot, hproblem]
    rfl
  · rw [hcleared hmem]
  · rw [saveAnswers_append, saveAnswers, hanswered]
    rfl

/-- A form reports a save error just if a save failed and nothing replaced the error since: no
action was applied, the form was not validated, and no load and no other save failed. The error has
the message of that failure, until this is taken off. All saves after it succeeded, so the failure
is that of the latest save just if there was none. -/
theorem save_error_run_iff (schema : Schema) (view : View) (registry : OptionRegistry)
    (fixedData : Json) (ids : RowIds) (ops : List FormOp)
    (hschema : schema.neverReports saveError = true) (hops : ∀ p, .report p ∉ ops) :
    let made := start schema view registry fixedData ids
    ((made.run ops).ui.problem.name = some saveError ↔
      ∃ before m after, made.FailsLast ops before m after) ∧
    ∀ before m after, made.FailsLast ops before m after →
      (.clearMessage ∉ after → (made.run ops).ui.problem.message = some m) ∧
      (.clearMessage ∈ after → (made.run ops).ui.problem.message = none) ∧
      ∃ later, made.saveAnswers ops = made.saveAnswers before ++ some m :: later ∧
        (∀ answer ∈ later, answer = none) ∧ (later = [] ↔ .save none ∉ after) := by
  intro made
  have hsound (ops : List FormOp) : (made.run ops).Sound :=
    (sound_run schema view registry fixedData ids ops).1
  have hquiet : made.ui.problem.name ≠ some saveError := nofun
  refine ⟨?_, fun before m after h => h.reported hsound⟩
  rw [run_saveError_iff (f := made) hschema (hsound []) hops, or_iff_right fun h => hquiet h.1]

private def noteSchema : Schema :=
  ⟨[.input { FieldTraits.plain with id := some "name" } .text], .plain⟩

private def noteOps : List FormOp :=
  [.initialise false (some (.ok (.ofPairs [("oid", .ofNat 3), ("name", .text "t")]))),
    .save (some "disk full"), .clearMessage]

theorem save_error_run_iff_note :
    let made := start noteSchema (.ofMode .edit) .empty .empty ⟨0⟩
    (made.run noteOps).ui.problem.name = some "saveerror" ∧
      (made.run noteOps).ui.problem.message = none ∧
      made.saveAnswers noteOps = [some "disk full"] := by
  intro made
  have hschema : noteSchema.neverReports saveError = true := by decide
  have hops (p : Problem) : .report p ∉ noteOps := by simp [noteOps]
  obtain ⟨hreported, hdescribed⟩ :=
    save_error_run_iff noteSchema (.ofMode .edit) .empty .empty ⟨0⟩ noteOps hschema hops
  have hfails : made.FailsLast noteOps [noteOps.head (by simp [noteOps])] "disk full"
      [.clearMessage] := by
    refine ⟨rfl, by decide +kernel, ⟨rfl, trivial⟩, trivial⟩
  obtain ⟨-, hcleared, later, hanswers, -, hlast⟩ := hdescribed _ _ _ hfails
  obtain rfl : later = [] := hlast.mpr (by simp)
  exact ⟨hreported.mpr ⟨_, _, _, hfails⟩, hcleared (by simp), hanswers⟩

/-- A save fails, and the next one succeeds: the form still reports a save error. -/
theorem save_error_after_success :
    let made := start noteSchema (.ofMode .edit) .empty .empty ⟨0⟩
    let ops := noteOps ++ [.save none]
    noteSchema.neverReports "saveerror" = true ∧
      (made.run ops).ui.problem.name = some "saveerror" ∧
      made.saveAnswers ops = [some "disk full", none] := by
  decide +kernel

end Form

end SchemaForm
