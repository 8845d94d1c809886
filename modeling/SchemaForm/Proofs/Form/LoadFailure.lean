import SchemaForm.Proofs.Form.Waiting

set_option autoImplicit false
set_option relaxedAutoImplicit false

/-!
Failed loads. The error of a load is reported by the form, and then the actions that waited for the
load are applied. Every one of them validates the document and reports what it finds, so the error
of the load stays in sight only if no action waited, or if the last validation happens to find a
failure that reads the same.
-/

namespace SchemaForm

namespace Problem

private theorem ofFailure_eq_ofLoad_iff (failure : Failure) (e : LoadError) :
    ofFailure failure = ofLoad e ↔
    failure.path.flat = "apierror" ∧ failure.message = e.message ∧ e.response = .none := by
  simp only [ofFailure, ofLoad, mk.injEq, Option.some.injEq]
  constructor
  · rintro ⟨hname, hmessage, hresponse⟩
    exact ⟨hname, hmessage, hresponse.symm⟩
  · rintro ⟨hname, hmessage, hresponse⟩
    exact ⟨hname, hmessage, hresponse.symm⟩

private theorem settled_ne_ofLoad (p : Problem) (e : LoadError) : p.settled ≠ ofLoad e := by
  intro hsame
  have hname : Option.none = some "apierror" := congrArg name hsame
  cases hname

end Problem

namespace Form

/-- The document has a failure that is reported in the words of the load error. -/
def Resembles (f : Form) (e : LoadError) : Prop :=
  ∃ failure, Validation.failure? f.schema f.session.doc = some failure ∧
    failure.path.flat = "apierror" ∧ failure.message = e.message ∧ e.response = none

private theorem checkedProblem_eq_ofLoad_iff (f : Form) (e : LoadError) :
    f.checkedProblem = .ofLoad e ↔ f.Resembles e := by
  unfold checkedProblem Resembles
  cases hfound : Validation.failure? f.schema f.session.doc with
  | none =>
    constructor
    · intro hsame
      exact absurd hsame (Problem.settled_ne_ofLoad _ e)
    · rintro ⟨failure, habsent, -⟩
      cases habsent
  | some failure =>
    constructor
    · intro hsame
      exact ⟨failure, rfl, (Problem.ofFailure_eq_ofLoad_iff failure e).mp hsame⟩
    · rintro ⟨other, hsame, hreads⟩
      cases hsame
      exact (Problem.ofFailure_eq_ofLoad_iff failure e).mpr hreads

theorem validate_loading (f : Form) : f.validate.ui.loading = f.ui.loading := by
  unfold validate
  split <;> rfl

theorem apply_loading (f : Form) (action : Action) :
    (f.apply action).ui.loading = f.ui.loading := by
  rw [apply, validate_loading, reduced_ui]

private theorem apply_problem_eq_ofLoad_iff {f : Form} (hready : f.ui.ready = true)
    (action : Action) (e : LoadError) :
    (f.apply action).ui.problem = .ofLoad e ↔ (f.apply action).Resembles e := by
  have hreduced : (f.reduced action).ui.ready = true := reduced_ready hready action
  have hchecked : (f.apply action).ui.problem = (f.reduced action).checkedProblem := by
    rw [apply, validate_of_ready hreduced]
    rfl
  have hsame : (f.apply action).Resembles e ↔ (f.reduced action).Resembles e := by
    rw [apply, validate_eq]
    exact Iff.rfl
  rw [hchecked, hsame]
  exact checkedProblem_eq_ofLoad_iff _ e

private theorem foldl_apply_ui {f : Form} (hready : f.ui.ready = true) (actions : List Action) :
    (actions.foldl apply f).ui.ready = true ∧
    (actions.foldl apply f).ui.loading = f.ui.loading ∧
    (actions ≠ [] → ∀ e, (actions.foldl apply f).ui.problem = .ofLoad e ↔
      (actions.foldl apply f).Resembles e) := by
  induction actions using List.reverseRecOn with
  | nil => exact ⟨hready, rfl, fun hnonempty => absurd rfl hnonempty⟩
  | append_singleton actions action ih =>
    obtain ⟨hstill, hloading, -⟩ := ih
    rw [List.foldl_append, List.foldl_cons, List.foldl_nil]
    refine ⟨?_, ?_, fun _ e => ?_⟩
    · rw [apply_ready, hstill]
    · rw [apply_loading, hloading]
    · exact apply_problem_eq_ofLoad_iff hstill action e

/-- When a load fails, the form is ready and its loading has failed, whatever waited. The error of
the load is the problem that the form reports exactly when no action waited for the load, or when
the document these actions made has a failure that reads the same. -/
theorem load_failure_reported_iff (f : Form) (force : Bool) (e : LoadError)
    (hloads : f.wouldLoad force = true) :
    let g := f.initialised force (some (.error e))
    f.initialise force (some (.error e)) = .ok g ∧ g.ui.ready = true ∧ g.ui.loading = .error ∧
    (g.ui.problem = ⟨some "apierror", some e.message, e.response⟩ ↔
      f.waiting.getD [] = [] ∨ g.Resembles e) := by
  intro g
  -- The form that the actions that waited are applied to, one after the other.
  let failed : Form := { f.beginLoad.failLoad e with waiting := none }
  have hfailed : failed.ui.ready = true := rfl
  have htaken : f.initialise force (some (.error e)) =
      .ok ((f.waiting.getD []).foldl apply failed) := by
    unfold initialise
    rw [hloads]
    rfl
  have hg : g = (f.waiting.getD []).foldl apply failed := by
    have hsame : g = f.initialised force (some (.error e)) := rfl
    rw [hsame, initialised, htaken]
  obtain ⟨hready, hloading, hreported⟩ := foldl_apply_ui hfailed (f.waiting.getD [])
  rw [← hg] at htaken hready hloading hreported
  refine ⟨htaken, hready, hloading, ?_⟩
  cases hqueue : f.waiting.getD [] with
  | nil =>
    have hquiet : g.ui.problem = .ofLoad e := by
      rw [hg, hqueue]
      rfl
    exact ⟨fun _ => .inl rfl, fun _ => hquiet⟩
  | cons action queue =>
    have hlast := hreported (by simp [hqueue]) e
    constructor
    · intro hsame
      exact .inr (hlast.mp hsame)
    · rintro (hnoneWaits | hresembles)
      · cases hnoneWaits
      · exact hlast.mpr hresembles

private def editor : Form :=
  start ⟨[.input { FieldTraits.plain with id := some "name" } .text], .plain⟩ (.ofMode .edit)
    .empty .empty ⟨0⟩

theorem load_failure_reported_unqueued :
    let e : LoadError := ⟨"server unreachable", some (.ofPairs [("status", .ofNat 503)])⟩
    let g := editor.initialised false (some (.error e))
    editor.wouldLoad false = true ∧ g.ui.ready = true ∧ g.ui.loading = .error ∧
      g.ui.problem = ⟨some "apierror", some e.message, e.response⟩ := by
  intro e g
  have hloads : editor.wouldLoad false = true := rfl
  obtain ⟨-, hready, hloading, hreported⟩ := load_failure_reported_iff editor false e hloads
  exact ⟨hloads, hready, hloading, hreported.mpr (.inl rfl)⟩

/-- One value was written during the load: the load fails, and no problem is reported. -/
theorem load_failure_hidden_by_action :
    let e : LoadError := ⟨"server unreachable", some (.ofPairs [("status", .ofNat 503)])⟩
    let f := editor.dispatch (.setValue (Path.root.key "name") (.text "new"))
    let g := f.initialised false (some (.error e))
    g.ui.ready = true ∧ g.ui.loading = .error ∧ g.ui.problem.name = none ∧
      g.ui.problem.response = none ∧
      g.ui.problem ≠ ⟨some "apierror", some e.message, e.response⟩ := by
  intro e f g
  have hsilent : g.ui.problem.name = none := by decide +kernel
  refine ⟨by decide +kernel, by decide +kernel, hsilent, by decide +kernel, ?_⟩
  intro hsame
  rw [hsame] at hsilent
  cases hsilent

end Form

end SchemaForm
