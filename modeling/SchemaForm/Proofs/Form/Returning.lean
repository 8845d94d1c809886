import SchemaForm.Proofs.Diff.Unchanged
import SchemaForm.Proofs.Form.LoadFailure
import SchemaForm.Proofs.Form.RowIdentity

set_option autoImplicit false
set_option relaxedAutoImplicit false

/-!
Loading a document and going back to it. Right after either the form has its initial document and
nothing else, and says so. Only a load and replacing a part of it touch the initial document; going
back completes it once more, which makes no difference where completing twice is completing once. So
whatever was done since the load, going back leads to the document that was loaded.
-/

namespace SchemaForm

/-- Whether an operation leaves the initial document of a loaded form alone, but for completing it
once more. -/
def FormOp.keepsInitial : FormOp → Bool
  | .setInitial _ _ | .initialise true _ => false
  | _ => true

/-- Whether an operation neither loads a document nor touches the initial one. -/
def FormOp.keepsOrigin : FormOp → Bool
  | .initialise _ _ | .setInitial _ _ | .reset => false
  | _ => true

namespace Form

/-- The form has its initial document, and tells that there are no changes, unless two rows of one
collection have one identity. -/
structure Clean (f : Form) : Prop where
  session : f.session.doc = f.initialData
  unchanged : Diff.RowsDistinct ⟨f.view.mode, f.view.keepRowIds, false, false⟩ f.schema.fields
    f.initialData → f.ui.dirty = false ∧ (f.view.mode = .edit → f.changes false = .empty)

@[simp] theorem apply_initialData (f : Form) (action : Action) :
    (f.apply action).initialData = f.initialData := by
  rw [apply, validate_eq, reduced, rewire_eq]
  rfl

theorem payload_nil {f : Form} (hedit : f.view.mode = .edit) : f.payload [] = .empty := by
  simp only [payload, hedit, if_true]
  cases f.initialData.get? f.schema.traits.idAttribute with
  | none => rfl
  | some id => rfl

private theorem clean_apply_init {f : Form} (hready : f.ui.ready = true) {doc : Json}
    (hheld : f.initialData = doc) : (f.apply (.init doc)).Clean := by
  have hsession : (f.apply (.init doc)).session.doc = (f.apply (.init doc)).initialData := by
    rw [apply_session, apply_initialData, hheld]
    rfl
  refine ⟨hsession, fun hdistinct => ?_⟩
  have hnothing : (f.apply (.init doc)).diff false = [] := by
    rw [diff, hsession]
    exact Schema.diff_self _ hdistinct
  refine ⟨?_, fun hedit => ?_⟩
  · rw [apply_dirty hready, hnothing]
    rfl
  · rw [changes, hnothing]
    exact payload_nil hedit

private theorem Clean.display {f : Form} (h : f.Clean) {ui : Ui} (hsame : ui.dirty = f.ui.dirty) :
    (f.display ui).Clean :=
  ⟨h.session, fun hdistinct => ⟨hsame.trans (h.unchanged hdistinct).1, (h.unchanged hdistinct).2⟩⟩

theorem clean_finishLoad (f : Form) (loaded : Json) : (f.finishLoad loaded).Clean := by
  have hplaced : ((f.readied loaded).apply (.init (f.initialDocument loaded).1)).Clean :=
    clean_apply_init rfl rfl
  rw [finishLoad_eq]
  exact hplaced.display rfl

/-! ### Loads that succeed, and going back -/

theorem initialise_of_loadsFrom {f : Form} {force : Bool} (hstarted : f.wouldLoad force = true)
    {answer : Option (Except LoadError Json)} {loaded : Json} (hloads : f.LoadsFrom answer loaded) :
    f.initialise force answer = .ok (f.beginLoad.finishLoad loaded).replay := by
  unfold initialise
  cases hloads with
  | loader => simp only [hstarted, Bool.not_true, Bool.false_eq_true, if_false]
  | defaults hcreates =>
    simp only [hstarted, hcreates, Bool.not_true, Bool.false_eq_true, if_false, if_true]

theorem initialised_of_initialise {f g : Form} {force : Bool}
    {answer : Option (Except LoadError Json)} (htaken : f.initialise force answer = .ok g) :
    f.initialised force answer = g := by
  rw [initialised, htaken]

theorem initialised_of_idle {f : Form} {force : Bool} (hidle : f.wouldLoad force = false)
    (answer : Option (Except LoadError Json)) : f.initialised force answer = f := by
  simp only [initialised, initialise, hidle, Bool.not_false, if_true]

theorem replay_of_empty {f : Form} (hnoneWait : f.waiting.getD [] = []) :
    f.replay = f.awaiting none := by
  rw [replay, hnoneWait]
  rfl

theorem reset_released {f : Form} (hfreed : f.waiting = none) : f.reset =
    ({ f with initialData := f.schema.initialised f.initialData } : Form).apply
      (.init (f.schema.initialised f.initialData)) :=
  dispatch_released (f := { f with initialData := f.schema.initialised f.initialData }) hfreed _

theorem clean_reset {f : Form} (hfreed : f.waiting = none) (hready : f.ui.ready = true) :
    f.reset.Clean := by
  let doc := f.schema.initialised f.initialData
  have hplaced : (({ f with initialData := doc } : Form).apply (.init doc)).Clean :=
    clean_apply_init (f := { f with initialData := doc }) hready rfl
  rwa [reset_released hfreed]

/-! ### What a loaded form is held to -/

/-- The second form has the schema, the initial document and the stage of loading of the first, and
no action waits if none did. -/
structure SameOrigin (f g : Form) : Prop where
  schema : g.schema = f.schema
  initialData : g.initialData = f.initialData
  loading : g.ui.loading = f.ui.loading
  ready : g.ui.ready = f.ui.ready
  released : f.waiting = none → g.waiting = none

private theorem SameOrigin.refl (f : Form) : f.SameOrigin f := ⟨rfl, rfl, rfl, rfl, id⟩

private theorem SameOrigin.trans {f g h : Form} (hfirst : f.SameOrigin g)
    (hsecond : g.SameOrigin h) :
    f.SameOrigin h :=
  ⟨hsecond.schema.trans hfirst.schema, hsecond.initialData.trans hfirst.initialData,
    hsecond.loading.trans hfirst.loading, hsecond.ready.trans hfirst.ready,
    fun hfreed => hsecond.released (hfirst.released hfreed)⟩

section SameOrigin

variable (f : Form)

private theorem sameOrigin_apply (action : Action) : f.SameOrigin (f.apply action) :=
  ⟨apply_schema f action, apply_initialData f action, apply_loading f action, apply_ready f action,
    (apply_waiting f action).trans⟩

theorem sameOrigin_dispatch (action : Action) : f.SameOrigin (f.dispatch action) := by
  cases hwaits : f.waiting with
  | none =>
    rw [dispatch_released hwaits]
    exact sameOrigin_apply f action
  | some queue =>
    simp only [dispatch, hwaits]
    refine ⟨rfl, rfl, rfl, rfl, fun hfreed => ?_⟩
    cases hwaits.symm.trans hfreed

private theorem sameOrigin_display {ui : Ui} (hloading : ui.loading = f.ui.loading)
    (hready : ui.ready = f.ui.ready) : f.SameOrigin (f.display ui) :=
  ⟨rfl, rfl, hloading, hready, id⟩

private theorem sameOrigin_withStore (kind : StoreKind) (s : Store) :
    f.SameOrigin (f.withStore kind s) := by
  cases kind <;> exact ⟨rfl, rfl, rfl, rfl, id⟩

private theorem sameOrigin_validate : f.SameOrigin f.validate := by
  have hloading := validate_loading f
  have hready : f.validate.ui.ready = f.ui.ready := validate_ready
  rw [validate_eq] at hloading hready ⊢
  exact ⟨rfl, rfl, hloading, hready, id⟩

theorem sameOrigin_save (failure : Option String) : f.SameOrigin (f.save failure).1 := by
  unfold save
  split
  · have hbegun : f.SameOrigin f.beginSave := ⟨rfl, rfl, rfl, rfl, id⟩
    cases failure with
    | none => exact hbegun.trans (sameOrigin_display _ rfl rfl)
    | some message => exact hbegun.trans (sameOrigin_display _ rfl rfl)
  · exact .refl f

private theorem sameOrigin_foldl_apply (actions : List Action) :
    f.SameOrigin (actions.foldl apply f) := by
  induction actions generalizing f with
  | nil => exact .refl f
  | cons action actions ih => exact (sameOrigin_apply f action).trans (ih (f.apply action))

theorem sameOrigin_replay : f.SameOrigin f.replay := by
  have hreleased : f.SameOrigin (f.awaiting none) := ⟨rfl, rfl, rfl, rfl, fun _ => rfl⟩
  exact hreleased.trans (sameOrigin_foldl_apply _ _)

private theorem sameOrigin_applyResults (results : List Pending) :
    f.SameOrigin (f.applyResults results) := by
  induction results generalizing f with
  | nil => exact .refl f
  | cons p results ih => exact (sameOrigin_dispatch f (resultOf p)).trans (ih _)

theorem sameOrigin_settleDeferred (order : CompletionOrder) :
    f.SameOrigin (f.settleDeferred order).2 := by
  by_cases hempty : f.deferred = []
  · rw [settleDeferred, if_pos (List.isEmpty_iff.mpr hempty)]
    exact .refl f
  · have htaken : f.SameOrigin { f with deferred := [] } := ⟨rfl, rfl, rfl, rfl, id⟩
    have hdrained : f.SameOrigin f.drained :=
      htaken.trans (sameOrigin_dispatch _ .clearDeferredQueue)
    rw [settleDeferred_of_pending hempty]
    exact hdrained.trans (sameOrigin_applyResults _ _)

/-- All operations that neither load a document nor touch the initial one. -/
theorem sameOrigin_perform {op : FormOp} (hkeeps : op.keepsOrigin = true) :
    f.SameOrigin (f.perform op) := by
  cases op with
  | dispatch action => exact sameOrigin_dispatch f action
  | initialise force answer => cases hkeeps
  | validate => exact sameOrigin_validate f
  | settleDeferred order => exact sameOrigin_settleDeferred f order
  | setInitial p value => cases hkeeps
  | reset => cases hkeeps
  | save failure => exact sameOrigin_save f failure
  | report p => exact sameOrigin_display f rfl rfl
  | clearMessage => exact sameOrigin_display f rfl rfl
  | subscribe kind => exact sameOrigin_withStore f kind _
  | subscribeAt kind p => exact sameOrigin_withStore f kind _
  | unsubscribe kind id => exact sameOrigin_withStore f kind _

end SameOrigin

/-- The form was loaded with a document that needs no completing, and no action waits. -/
structure Anchored (doc : Json) (f : Form) : Prop where
  initialData : f.initialData = doc
  complete : f.schema.initialised doc = doc
  started : f.ui.loading ≠ .init
  freed : f.waiting = none

section Anchored

variable {doc : Json} {f g : Form}

private theorem Anchored.sameOrigin (h : f.Anchored doc) (hsame : f.SameOrigin g) :
    g.Anchored doc :=
  ⟨hsame.initialData.trans h.initialData, by rw [hsame.schema, h.complete],
    fun hunloaded => h.started (hsame.loading.symm.trans hunloaded), hsame.released h.freed⟩

/-- Going back to a document that needs no completing is putting it in place. -/
private theorem Anchored.reset_eq (h : f.Anchored doc) : f.reset = f.apply (.init doc) := by
  have hcomplete : f.schema.initialised f.initialData = doc := by rw [h.initialData, h.complete]
  have hsame : ({ f with initialData := doc } : Form) = f := by rw [← h.initialData]
  rw [reset_released h.freed, hcomplete, hsame]

private theorem Anchored.perform (h : f.Anchored doc) {op : FormOp}
    (hkeeps : op.keepsInitial = true) :
    (f.perform op).Anchored doc := by
  cases op with
  | initialise force answer =>
    -- A form that was loaded does not load again unless it is forced to.
    have hidle : f.wouldLoad force = false := by
      cases force with
      | true => cases hkeeps
      | false => simpa [wouldLoad] using h.started
    rw [Form.perform, initialised_of_idle hidle]
    exact h
  | setInitial p value => cases hkeeps
  | reset =>
    rw [Form.perform, h.reset_eq]
    exact h.sameOrigin (sameOrigin_apply f _)
  | _ => exact h.sameOrigin (sameOrigin_perform f rfl)

private theorem Anchored.run (h : f.Anchored doc) {ops : List FormOp}
    (hkeep : ∀ op ∈ ops, op.keepsInitial = true) : (f.run ops).Anchored doc := by
  induction ops generalizing f with
  | nil => exact h
  | cons op ops ih =>
    have hfirst := h.perform (hkeep op List.mem_cons_self)
    exact ih hfirst fun later hmember => hkeep later (List.mem_cons_of_mem op hmember)

end Anchored

theorem finishLoad_sameOrigin (f : Form) (loaded : Json) :
    (f.finishLoad loaded).schema = f.schema ∧
    (f.finishLoad loaded).initialData = (f.initialDocument loaded).1 ∧
    (f.finishLoad loaded).ui.loading = .loaded ∧ (f.finishLoad loaded).ui.ready = true := by
  have hsame := sameOrigin_apply (f.readied loaded) (.init (f.initialDocument loaded).1)
  have hready := apply_ready (f.readied loaded) (.init (f.initialDocument loaded).1)
  have hshown (g : Form) (ui : Ui) : (g.display ui).schema = g.schema ∧
      (g.display ui).initialData = g.initialData ∧ (g.display ui).ui = ui := ⟨rfl, rfl, rfl⟩
  rw [finishLoad_eq]
  obtain ⟨hschema, hinitialData, hui⟩ := hshown ((f.readied loaded).apply
    (.init (f.initialDocument loaded).1)) { ((f.readied loaded).apply
      (.init (f.initialDocument loaded).1)).ui with loading := .loaded }
  rw [hschema, hinitialData, hui]
  exact ⟨hsame.schema, hsame.initialData, rfl, hready⟩

theorem reset_stage (f : Form) :
    f.reset.ui.loading = f.ui.loading ∧ f.reset.ui.ready = f.ui.ready := by
  let doc := f.schema.initialised f.initialData
  have hsame := sameOrigin_dispatch ({ f with initialData := doc } : Form) (.init doc)
  exact ⟨hsame.loading, hsame.ready⟩

theorem setInitial_stage (f : Form) (p : Path) (value : Json) :
    (f.setInitial p value).ui.loading = f.ui.loading ∧
      (f.setInitial p value).ui.ready = f.ui.ready := by
  unfold setInitial
  split
  · exact ⟨rfl, rfl⟩
  · let stamped := RowId.stamp false f.ids value
    have hsame := sameOrigin_dispatch
      ({ f with ids := stamped.2, initialData := f.initialData.setAt p stamped.1 } : Form)
      (.setValue p stamped.1)
    exact ⟨hsame.loading, hsame.ready⟩

/-- A form is ready once it has loaded a document, or failed to. -/
theorem ready_iff_loading_run (schema : Schema) (view : View) (registry : OptionRegistry)
    (fixedData : Json) (ids : RowIds) (ops : List FormOp) :
    let f := (start schema view registry fixedData ids).run ops
    f.ui.ready = true ↔ f.ui.loading ≠ .init := by
  refine run_induction (P := fun f => f.ui.ready = true ↔ f.ui.loading ≠ .init) ?_
    (by simp [start, Ui.start]) ops
  intro f op h
  -- Only loading changes the stage of a form.
  have hkeeps {g : Form} (hstage : g.ui.loading = f.ui.loading ∧ g.ui.ready = f.ui.ready) :
      g.ui.ready = true ↔ g.ui.loading ≠ .init := by
    rw [hstage.1, hstage.2]
    exact h
  have hends {g : Form} (hready : g.ui.ready = true) (hdone : g.ui.loading ≠ .init) :
      g.replay.ui.ready = true ↔ g.replay.ui.loading ≠ .init := by
    rw [(sameOrigin_replay g).ready, (sameOrigin_replay g).loading]
    exact ⟨fun _ => hdone, fun _ => hready⟩
  cases op with
  | initialise force answer =>
    rw [Form.perform]
    rcases initialised_cases f force answer with ⟨hidle, -⟩ | ⟨loaded, htaken⟩ | ⟨e, hfailed⟩
    · rw [hidle]
      exact h
    · obtain ⟨-, -, hloading, hready⟩ := finishLoad_sameOrigin f.beginLoad loaded
      rw [htaken]
      exact hends hready (by rw [hloading]; decide)
    · have hloading : (f.beginLoad.failLoad e).ui.loading = .error := rfl
      rw [hfailed]
      exact hends rfl (by rw [hloading]; decide)
  | setInitial p value => exact hkeeps (setInitial_stage f p value)
  | reset => exact hkeeps (reset_stage f)
  | _ => exact hkeeps ⟨(sameOrigin_perform f rfl).loading, (sameOrigin_perform f rfl).ready⟩

/-- Right after a load that succeeds with no action waiting, and right after going back to the
initial document at any later time, a form has its initial document and says that there are no
changes. If completing a document twice is completing it once, going back leads to the document that
was loaded, whatever was done in between but replacing parts of the initial document and loading
another one. -/
theorem clean_after_load_and_reset (schema : Schema) (view : View) (registry : OptionRegistry)
    (fixedData : Json) (ids : RowIds) (ops : List FormOp) :
    let f := (start schema view registry fixedData ids).run ops
    (f.ui.ready = true → f.reset.Clean) ∧
    ∀ force answer loaded, f.wouldLoad force = true → f.LoadsFrom answer loaded →
      f.waiting.getD [] = [] →
      let g := f.initialised force answer
      f.initialise force answer = .ok g ∧ g.Clean ∧
      ((∀ doc, schema.initialised (schema.initialised doc) = schema.initialised doc) →
        ∀ later : List FormOp, (∀ op ∈ later, op.keepsInitial = true) →
          (g.run later).reset.Clean ∧ (g.run later).reset.session.doc = g.session.doc) := by
  intro f
  obtain ⟨hsound, hmade⟩ : f.Sound ∧ f.setting = ⟨schema, view, registry, fixedData⟩ :=
    sound_run schema view registry fixedData ids ops
  have hschema : f.schema = schema := congrArg Setting.schema hmade
  refine ⟨fun hready => clean_reset (hsound.ready_iff.mp hready) hready, ?_⟩
  intro force answer loaded hstarted hloads hnoneWait g
  let h := f.beginLoad.finishLoad loaded
  have hnoneWait' : h.waiting.getD [] = [] := by
    rw [finishLoad_waiting]
    exact hnoneWait
  have htaken : f.initialise force answer = .ok (h.awaiting none) := by
    rw [initialise_of_loadsFrom hstarted hloads, replay_of_empty hnoneWait']
  have hg : g = h.awaiting none := initialised_of_initialise htaken
  have hclean : h.Clean := clean_finishLoad f.beginLoad loaded
  rw [hg]
  refine ⟨htaken, ⟨hclean.session, hclean.unchanged⟩, fun honce later hkeep => ?_⟩
  obtain ⟨hschemaEq, hinitialData, hstage, -⟩ := finishLoad_sameOrigin f.beginLoad loaded
  have hanchored : (h.awaiting none).Anchored h.initialData := by
    have hbegan : f.beginLoad.schema = f.schema := rfl
    have hloadedSchema : (h.awaiting none).schema = schema :=
      hschemaEq.trans (hbegan.trans hschema)
    refine ⟨rfl, ?_, fun hunloaded => ?_, rfl⟩
    · rw [hloadedSchema, hinitialData, ← hschema]
      exact (hschema ▸ honce) _
    · cases hstage.symm.trans hunloaded
  have hreached : ((h.awaiting none).run later).Anchored h.initialData := hanchored.run hkeep
  have hready : ((h.awaiting none).run later).ui.ready = true := by
    have hrun : (h.awaiting none).run later = (start schema view registry fixedData ids).run
        (ops ++ .initialise force answer :: later) := by
      rw [run_append, run_cons, ← hg]
      rfl
    have hsoundLater := (sound_run schema view registry fixedData ids
      (ops ++ .initialise force answer :: later)).1
    rw [← hrun] at hsoundLater
    exact hsoundLater.ready_iff.mpr hreached.freed
  refine ⟨clean_reset hreached.freed hready, ?_⟩
  rw [hreached.reset_eq, apply_session]
  exact hclean.session.symm

/-- A table with its columns. Documents are completed by saying what they are. -/
def tableSchema : Schema :=
  ⟨[.input { FieldTraits.plain with id := some "name" } .text,
      .collection { FieldTraits.plain with id := some "columns" }
        [.input { FieldTraits.plain with id := some "name" } .text] .plain ⟨[], none, none⟩],
    { SchemaTraits.plain with
      initialiser := some fun
        | .object members => .object (Dictionary.insert members "kind" (.text "table"))
        | v => v }⟩

def oneColumn : Json := .array [.ofPairs [("name", .text "a")]]

def tableData : Json := .ofPairs [("name", .text "t"), ("columns", oneColumn)]

theorem tableSchema_initialised_twice (doc : Json) :
    tableSchema.initialised (tableSchema.initialised doc) = tableSchema.initialised doc := by
  cases doc with
  | object members => exact congrArg Json.object (Dictionary.insert_insert members _ _ _)
  | _ => rfl

private def tableEdits : List FormOp :=
  [.dispatch (.setValue (.parse "name") (.text "u")), .save (some "offline"),
    .dispatch (.addRow (.parse "columns") (.ofPairs [("name", .text "b")]) false)]

private theorem table_rowsDistinct {options : DiffOptions} {f : Form} (ops : List FormOp)
    (hreached : f = (start tableSchema (.ofMode .edit) .empty .empty ⟨0⟩).run ops)
    (hrows : ((f.initialData.rows "columns").filterMap RowId.of?).Nodup) :
    Diff.RowsDistinct options f.schema.fields f.initialData := by
  have hfields : f.schema = tableSchema := by
    rw [hreached]
    exact congrArg Setting.schema (sound_run tableSchema (.ofMode .edit) .empty .empty ⟨0⟩ ops).2
  have hone : Diff.collections options tableSchema.fields =
      [("columns", ⟨[.input { FieldTraits.plain with id := some "name" } .text], .plain⟩)] := rfl
  intro id child hheld
  rw [hfields, hone, List.mem_singleton] at hheld
  cases hheld
  exact hrows

/-- A table is renamed, gets another column, cannot be saved, and is as it was loaded then. -/
theorem clean_after_load_and_reset_table :
    let f := start tableSchema (.ofMode .edit) .empty .empty ⟨0⟩
    let g := f.initialised false (some (.ok tableData))
    f.wouldLoad false = true ∧ f.LoadsFrom (some (.ok tableData)) tableData ∧
      f.waiting.getD [] = [] ∧ (∀ op ∈ tableEdits, op.keepsInitial = true) ∧
      (∀ doc, tableSchema.initialised (tableSchema.initialised doc) =
        tableSchema.initialised doc) ∧
      g.ui.dirty = false ∧ g.changes false = .empty ∧ (g.run tableEdits).ui.dirty = true ∧
      (g.run tableEdits).reset.ui.dirty = false ∧
      (g.run tableEdits).reset.session.doc =
        .ofPairs [("kind", .text "table"), ("name", .text "t"),
          ("columns", .array [.ofPairs [("cid", .text "nn1"), ("name", .text "a")]])] := by
  have hgeneral := clean_after_load_and_reset tableSchema (.ofMode .edit) .empty .empty ⟨0⟩ []
  simp only [run_nil] at hgeneral
  dsimp only
  have hstarted : (start tableSchema (.ofMode .edit) .empty .empty ⟨0⟩).wouldLoad false = true :=
    rfl
  have hloads : (start tableSchema (.ofMode .edit) .empty .empty ⟨0⟩).LoadsFrom
      (some (.ok tableData)) tableData := .loader tableData
  have hkeep : ∀ op ∈ tableEdits, op.keepsInitial = true := by decide +kernel
  obtain ⟨-, hclean, hback⟩ := hgeneral.2 false (some (.ok tableData)) tableData hstarted hloads rfl
  obtain ⟨hclean', hsame⟩ := hback tableSchema_initialised_twice tableEdits hkeep
  obtain ⟨hundirtied, hpayload⟩ := hclean.unchanged (table_rowsDistinct
    [.initialise false (some (.ok tableData))] (by rw [run_cons, run_nil]; rfl)
    (by decide +kernel))
  obtain ⟨hundirtied', -⟩ := hclean'.unchanged (table_rowsDistinct
    (.initialise false (some (.ok tableData)) :: (tableEdits ++ [.reset]))
    (by rw [run_cons, run_append]; rfl) (by decide +kernel))
  refine ⟨hstarted, hloads, rfl, hkeep, tableSchema_initialised_twice, hundirtied,
    hpayload (by decide +kernel), by decide +kernel, hundirtied', ?_⟩
  rw [hsame]
  decide +kernel

end Form

end SchemaForm
