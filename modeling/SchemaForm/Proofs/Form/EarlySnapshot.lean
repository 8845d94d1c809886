import SchemaForm.Proofs.Form.Returning
import SchemaForm.Proofs.RowId.Respelling

set_option autoImplicit false
set_option relaxedAutoImplicit false

/-!
Going back to the initial document, or replacing a part of it, before it is there. Either changes
the initial document at once and the document being edited through an action. Before the load the
action waits, and the load puts another initial document in place. What was asked for is then done
to one of the two documents only, so that it matters whether it was asked for before the load or
after it.
-/

namespace SchemaForm

namespace Form

/-- Both documents of the forms are the same up to the spelling of identities. -/
structure Agree (f g : Form) : Prop where
  session : RowId.Agree f.session.doc g.session.doc
  initialData : RowId.Agree f.initialData g.initialData

/-- The form has the listeners of its schema, of which there are none. -/
structure Idle (f : Form) : Prop where
  static : Field.areStatic f.schema.fields = true
  wired : f.Wired

section Idle

variable {f g : Form} {action : Action} {actions : List Action}

private theorem Idle.graph (h : f.Idle) : f.graph = .empty := by
  rw [h.wired.graph, Schema.graph_of_areStatic h.static]

private theorem Idle.apply (h : f.Idle) (action : Action) : (f.apply action).Idle :=
  ⟨by rw [apply_schema]; exact h.static, h.wired.apply action⟩

private theorem Idle.foldl_apply (h : f.Idle) (actions : List Action) :
    (actions.foldl Form.apply f).Idle := by
  induction actions generalizing f with
  | nil => exact h
  | cons action actions ih => exact ih (h.apply action)

private theorem Agree.apply (h : f.Agree g) (hidle : f.Idle) (hidle' : g.Idle)
    (hplain : action.kind ≠ .deferredDepChange) : (f.apply action).Agree (g.apply action) := by
  constructor
  · rw [apply_session, apply_session, hidle.graph, hidle'.graph]
    exact RowId.agree_reduce h.session f.ids g.ids hplain
  · rw [apply_initialData, apply_initialData]
    exact h.initialData

private theorem Agree.foldl_apply (h : f.Agree g) (hidle : f.Idle) (hidle' : g.Idle)
    (hplain : ∀ action ∈ actions, action.kind ≠ .deferredDepChange) :
    (actions.foldl Form.apply f).Agree (actions.foldl Form.apply g) := by
  induction actions generalizing f g with
  | nil => exact h
  | cons action actions ih =>
    have hfirst := h.apply hidle hidle' (hplain action List.mem_cons_self)
    exact ih hfirst (hidle.apply action) (hidle'.apply action)
      fun later hmember => hplain later (List.mem_cons_of_mem action hmember)

end Idle

/-! ### After the load -/

private theorem reset_documents {f : Form} (hfreed : f.waiting = none) :
    f.reset.session.doc = f.schema.initialised f.initialData ∧
      f.reset.initialData = f.schema.initialised f.initialData := by
  rw [reset_released hfreed, apply_session, apply_initialData]
  exact ⟨rfl, rfl⟩

private theorem Idle.dispatch_setValue {f : Form} (h : f.Idle) (hfreed : f.waiting = none)
    (p : Path) (value : Json) :
    (f.dispatch (.setValue p value)).session.doc = f.session.doc.setAt p value := by
  rw [dispatch_released hfreed, apply_session, h.graph]
  rfl

private theorem Idle.setInitial_documents {f : Form} (h : f.Idle) (hfreed : f.waiting = none)
    {p : Path} (hinner : p.isRoot = false) (value : Json) :
    (f.setInitial p value).session.doc = f.session.doc.setAt p (RowId.stamp false f.ids value).1 ∧
      (f.setInitial p value).initialData =
        f.initialData.setAt p (RowId.stamp false f.ids value).1 := by
  let stamped := RowId.stamp false f.ids value
  let g : Form := { f with ids := stamped.2, initialData := f.initialData.setAt p stamped.1 }
  have hidle : g.Idle := ⟨h.static, ⟨h.wired.graph, h.wired.rowCounts⟩⟩
  have hasked : f.setInitial p value = g.dispatch (.setValue p stamped.1) := by
    rw [Form.setInitial, hinner]
    rfl
  rw [hasked]
  exact ⟨hidle.dispatch_setValue hfreed p stamped.1, (sameOrigin_dispatch g _).initialData⟩

/-! ### Before the load -/

section Load

variable {f : Form} {answer : Option (Except LoadError Json)} {loaded : Json}

private theorem LoadsFrom.of_view {f' : Form} (hloads : f.LoadsFrom answer loaded)
    (hview : f'.view = f.view) : f'.LoadsFrom answer loaded := by
  cases hloads with
  | loader => exact .loader loaded
  | defaults hmakes =>
    refine .defaults ?_
    rw [← hmakes, creates, creates, hview]

variable (hstarted : f.wouldLoad false = true) (hloads : f.LoadsFrom answer loaded)

include hstarted hloads

private theorem initialised_eq_foldl : f.initialised false answer =
    (f.waiting.getD []).foldl apply ((f.beginLoad.finishLoad loaded).awaiting none) := by
  rw [initialised_of_initialise (initialise_of_loadsFrom hstarted hloads), replay,
    finishLoad_waiting]
  rfl

private theorem initialised_released : (f.initialised false answer).waiting = none := by
  rw [initialised_eq_foldl hstarted hloads]
  exact foldl_apply_waiting _ _

private theorem initialised_origin : (f.initialised false answer).schema = f.schema ∧
    (f.initialised false answer).initialData = (f.initialDocument loaded).1 := by
  obtain ⟨hschema, hinitialData, -, -⟩ := finishLoad_sameOrigin f.beginLoad loaded
  have hsame := sameOrigin_replay (f.beginLoad.finishLoad loaded)
  rw [initialised_of_initialise (initialise_of_loadsFrom hstarted hloads)]
  exact ⟨hsame.schema.trans hschema, hsame.initialData.trans hinitialData⟩

/-- The load puts the initial document in place, whatever stood there before. So going back before
the load is to load, and then to put in place what the document that stood there is completed to. -/
private theorem initialised_reset {queue : List Action} (hwaits : f.waiting = some queue) :
    f.reset.initialised false answer =
      (f.initialised false answer).dispatch (.init (f.schema.initialised f.initialData)) := by
  let doc := f.schema.initialised f.initialData
  let g : Form := { f with initialData := doc }
  have hasked : f.reset = g.awaiting (some (queue ++ [.init doc])) := by
    simp only [reset, dispatch, hwaits]
    rfl
  have hforgotten : g.initialised false answer = f.initialised false answer := by
    rw [initialised_eq_foldl hstarted hloads,
      initialised_eq_foldl (f := g) hstarted (hloads.of_view rfl)]
    rfl
  rw [hasked, initialised_awaiting (f := g) hwaits, hforgotten]
  rfl

/-- Replacing a part of the initial document before the load is to load with identities that come
later, and then to write that part. -/
private theorem initialised_setInitial {queue : List Action} (hwaits : f.waiting = some queue)
    {p : Path} (hinner : p.isRoot = false) (value : Json) :
    (f.setInitial p value).initialised false answer =
      (({ f with ids := (RowId.stamp false f.ids value).2 } : Form).initialised false
        answer).dispatch (.setValue p (RowId.stamp false f.ids value).1) := by
  let stamped := RowId.stamp false f.ids value
  let drawn : Form := { f with ids := stamped.2 }
  let g : Form := { drawn with initialData := f.initialData.setAt p stamped.1 }
  have hasked : f.setInitial p value = g.awaiting (some (queue ++ [.setValue p stamped.1])) := by
    rw [Form.setInitial, hinner]
    simp only [dispatch, hwaits]
    rfl
  have hforgotten : g.initialised false answer = drawn.initialised false answer := by
    rw [initialised_eq_foldl (f := drawn) hstarted (hloads.of_view rfl),
      initialised_eq_foldl (f := g) hstarted (hloads.of_view rfl)]
    rfl
  rw [hasked, initialised_awaiting (f := g) hwaits, hforgotten]
  rfl

private theorem reset_agrees_iff {queue : List Action} (hwaits : f.waiting = some queue)
    (hcomplete :
    f.schema.initialised (f.initialDocument loaded).1 = (f.initialDocument loaded).1) :
    let g := f.initialised false answer
    let early := f.reset.initialised false answer
    early.session.doc = f.schema.initialised f.initialData ∧
    early.initialData = g.initialData ∧
    g.reset.session.doc = g.initialData ∧ g.reset.initialData = g.initialData ∧
    (early.Agree g.reset ↔ RowId.Agree (f.schema.initialised f.initialData) g.initialData) := by
  intro g early
  have hfreed : g.waiting = none := initialised_released hstarted hloads
  obtain ⟨hschema, hinitial⟩ : g.schema = f.schema ∧ g.initialData = (f.initialDocument loaded).1 :=
    initialised_origin hstarted hloads
  have hasked : early = g.apply (.init (f.schema.initialised f.initialData)) := by
    rw [← dispatch_released hfreed]
    exact initialised_reset hstarted hloads hwaits
  have hsession : early.session.doc = f.schema.initialised f.initialData := by
    rw [hasked, apply_session]
    rfl
  have hinitialData : early.initialData = g.initialData := by rw [hasked, apply_initialData]
  obtain ⟨hsession', hinitialData'⟩ := reset_documents hfreed
  rw [hschema, hinitial, hcomplete, ← hinitial] at hsession' hinitialData'
  refine ⟨hsession, hinitialData, hsession', hinitialData', fun hagree => ?_, fun hsame => ⟨?_, ?_⟩⟩
  · have hdocuments := hagree.session
    rwa [hsession, hsession'] at hdocuments
  · rwa [hsession, hsession']
  · rw [hinitialData, hinitialData']
    rfl

end Load

section IdleLoad

variable {f : Form} {answer : Option (Except LoadError Json)} {loaded : Json}
  (hstatic : Field.areStatic f.schema.fields = true)

include hstatic

private theorem idle_finishLoad (loaded : Json) :
    ((f.beginLoad.finishLoad loaded).awaiting none).Idle := by
  obtain ⟨hschema, -, -, -⟩ := finishLoad_sameOrigin f.beginLoad loaded
  have hwired := wired_finishLoad f.beginLoad loaded
  refine ⟨?_, ⟨hwired.graph, hwired.rowCounts⟩⟩
  have hsame : ((f.beginLoad.finishLoad loaded).awaiting none).schema = f.schema := hschema
  rw [hsame]
  exact hstatic

variable (hstarted : f.wouldLoad false = true) (hloads : f.LoadsFrom answer loaded)

include hstarted hloads

private theorem idle_initialised : (f.initialised false answer).Idle := by
  rw [initialised_eq_foldl hstarted hloads]
  exact (idle_finishLoad hstatic loaded).foldl_apply _

private theorem agree_initialised (ids : RowIds)
    (hrespects : ∀ doc doc', RowId.Agree doc doc' →
      RowId.Agree (f.schema.initialised doc) (f.schema.initialised doc'))
    (hplain : ∀ action ∈ f.waiting.getD [], action.kind ≠ .deferredDepChange) :
    (({ f with ids := ids } : Form).initialised false answer).Agree
      (f.initialised false answer) := by
  let drawn : Form := { f with ids := ids }
  have hdocuments : RowId.Agree (drawn.initialDocument loaded).1 (f.initialDocument loaded).1 :=
    hrespects _ _ (RowId.blanked_stamp f.creates .other ids f.ids (f.merged loaded))
  have hsession (f : Form) : ((f.beginLoad.finishLoad loaded).awaiting none).session.doc =
      (f.initialDocument loaded).1 :=
    congrArg Session.doc (finishLoad_session f.beginLoad loaded)
  have hinitialData (f : Form) : ((f.beginLoad.finishLoad loaded).awaiting none).initialData =
      (f.initialDocument loaded).1 := (finishLoad_sameOrigin f.beginLoad loaded).2.1
  have hloads' : drawn.LoadsFrom answer loaded := hloads.of_view rfl
  rw [initialised_eq_foldl hstarted hloads, initialised_eq_foldl (f := drawn) hstarted hloads']
  refine Agree.foldl_apply ⟨?_, ?_⟩ (idle_finishLoad (f := drawn) hstatic loaded)
    (idle_finishLoad hstatic loaded) hplain
  · rw [hsession, hsession]
    exact hdocuments
  · rw [hinitialData, hinitialData]
    exact hdocuments

private theorem setInitial_agrees_iff {queue : List Action} (hwaits : f.waiting = some queue)
    (hrespects : ∀ doc doc', RowId.Agree doc doc' →
      RowId.Agree (f.schema.initialised doc) (f.schema.initialised doc'))
    (hplain : ∀ action ∈ f.waiting.getD [], action.kind ≠ .deferredDepChange)
    {p : Path} (hinner : p.isRoot = false) (value : Json) :
    let g := f.initialised false answer
    let early := (f.setInitial p value).initialised false answer
    let late := g.setInitial p value
    RowId.Agree early.session.doc late.session.doc ∧
    RowId.Agree early.initialData g.initialData ∧
    late.session.doc = g.session.doc.setAt p (RowId.stamp false g.ids value).1 ∧
    late.initialData = g.initialData.setAt p (RowId.stamp false g.ids value).1 ∧
    (early.Agree late ↔ RowId.Agree g.initialData late.initialData) := by
  intro g early late
  let stamped := RowId.stamp false f.ids value
  let drawn : Form := { f with ids := stamped.2 }
  let g' := drawn.initialised false answer
  have hloads' : drawn.LoadsFrom answer loaded := hloads.of_view rfl
  have hfreed : g.waiting = none := initialised_released hstarted hloads
  have hfreed' : g'.waiting = none := initialised_released hstarted hloads'
  have hidle : g.Idle := idle_initialised hstatic hstarted hloads
  have hidle' : g'.Idle := idle_initialised (f := drawn) hstatic hstarted hloads'
  have hdocuments : g'.Agree g :=
    agree_initialised hstatic hstarted hloads stamped.2 hrespects hplain
  have hasked : early = g'.dispatch (.setValue p stamped.1) :=
    initialised_setInitial hstarted hloads hwaits hinner value
  obtain ⟨hsession, hinitialData⟩ := hidle.setInitial_documents hfreed hinner value
  have hsessions : RowId.Agree early.session.doc late.session.doc := by
    rw [hasked, hidle'.dispatch_setValue hfreed', hsession]
    exact RowId.agree_setAt hdocuments.session p
      fun slot => RowId.blanked_stamp false slot f.ids g.ids value
  have hinitial : RowId.Agree early.initialData g.initialData := by
    rw [hasked, (sameOrigin_dispatch g' _).initialData]
    exact hdocuments.initialData
  refine ⟨hsessions, hinitial, hsession, hinitialData, fun hagree => ?_, fun hsame => ?_⟩
  · exact hinitial.symm.trans hagree.initialData
  · exact ⟨hsessions, hinitial.trans hsame⟩

end IdleLoad

/-- A form in which nothing is recomputed goes back to its initial document, or has a part of it
replaced, before it is loaded or after. A form that is ready is not loaded any more. Otherwise going
back before the load puts in place, after all that waits, what the initial document of that time is
completed to, whatever was loaded; replacing a part before leaves the initial document as it was
loaded. After the load both documents change alike. So the two orders agree exactly if the loaded
document happens to be that one, or to have that part already. -/
theorem early_snapshot_operation_agrees_iff (schema : Schema) (view : View)
    (registry : OptionRegistry) (fixedData : Json) (ids : RowIds) (ops : List FormOp)
    (hstatic : Field.areStatic schema.fields = true)
    (honce : ∀ doc, schema.initialised (schema.initialised doc) = schema.initialised doc)
    (answer : Option (Except LoadError Json)) (loaded : Json) :
    let f := (start schema view registry fixedData ids).run ops
    let g := f.initialised false answer
    let back := f.reset.initialised false answer
    (f.ui.ready = true → back = g.reset ∧
      ∀ p value, (f.setInitial p value).initialised false answer = g.setInitial p value) ∧
    (f.ui.ready = false → f.LoadsFrom answer loaded →
      back.session.doc = schema.initialised f.initialData ∧ back.initialData = g.initialData ∧
      g.reset.session.doc = g.initialData ∧ g.reset.initialData = g.initialData ∧
      (back.Agree g.reset ↔ RowId.Agree (schema.initialised f.initialData) g.initialData) ∧
      ((∀ doc doc', RowId.Agree doc doc' →
          RowId.Agree (schema.initialised doc) (schema.initialised doc')) →
        (∀ action ∈ f.waiting.getD [], action.kind ≠ .deferredDepChange) →
        ∀ p value, p.isRoot = false →
        let early := (f.setInitial p value).initialised false answer
        let late := g.setInitial p value
        RowId.Agree early.session.doc late.session.doc ∧
        RowId.Agree early.initialData g.initialData ∧
        late.session.doc = g.session.doc.setAt p (RowId.stamp false g.ids value).1 ∧
        late.initialData = g.initialData.setAt p (RowId.stamp false g.ids value).1 ∧
        (early.Agree late ↔ RowId.Agree g.initialData late.initialData))) := by
  intro f g back
  obtain ⟨hsound, hmade⟩ : f.Sound ∧ f.setting = ⟨schema, view, registry, fixedData⟩ :=
    sound_run schema view registry fixedData ids ops
  have hschema : f.schema = schema := congrArg Setting.schema hmade
  have hstage : f.ui.ready = true ↔ f.ui.loading ≠ .init :=
    ready_iff_loading_run schema view registry fixedData ids ops
  constructor
  · intro hready
    have hidle {f' : Form} (hsame : f'.ui.loading = f.ui.loading) :
        f'.initialised false answer = f' := by
      refine initialised_of_idle ?_ answer
      rw [wouldLoad, hsame, Bool.or_false]
      exact beq_false_of_ne (hstage.mp hready)
    have hsame : g = f := hidle rfl
    rw [hsame]
    exact ⟨hidle (reset_stage f).1, fun p value => hidle (setInitial_stage f p value).1⟩
  · intro hunready hloads
    have hstarted : f.wouldLoad false = true := by
      have hfirst : f.ui.loading = .init := by
        by_contra hlater
        rw [hstage.mpr hlater] at hunready
        cases hunready
      rw [wouldLoad, hfirst]
      rfl
    obtain ⟨queue, hwaits⟩ : ∃ queue, f.waiting = some queue := by
      refine Option.ne_none_iff_exists'.mp fun hfreed => ?_
      rw [hsound.ready_iff.mpr hfreed] at hunready
      cases hunready
    rw [← hschema] at hstatic honce ⊢
    obtain ⟨hsession, hinitialData, hsession', hinitialData', hiff⟩ :=
      reset_agrees_iff hstarted hloads hwaits (honce _)
    refine ⟨hsession, hinitialData, hsession', hinitialData', hiff, ?_⟩
    intro hrespects hplain p value hinner
    exact setInitial_agrees_iff hstatic hstarted hloads hwaits hrespects hplain hinner value

private theorem tableSchema_respects (doc doc' : Json) (hagree : RowId.Agree doc doc') :
    RowId.Agree (tableSchema.initialised doc) (tableSchema.initialised doc') := by
  have hstays {v : Json} (hscalar : v.isScalar = true) : tableSchema.initialised v = v := by
    cases v with
    | object members => cases hscalar
    | _ => rfl
  rcases RowId.blanked_cases hagree with ⟨items, items', rfl, rfl, -⟩ |
    ⟨members, members', rfl, rfl, hsame⟩ | ⟨hscalar, hscalar'⟩
  · exact hagree
  · have hinside := RowId.blankedMembers_insert .other members "kind" (.text "table")
    rw [hsame, ← RowId.blankedMembers_insert] at hinside
    exact congrArg Json.object hinside
  · rwa [hstays hscalar, hstays hscalar']

private def columnAdded : List FormOp :=
  [.dispatch (.addRow (.parse "columns") (.ofPairs [("name", .text "b")]) true)]

/-- A column is added. Then the columns are fetched on their own, and are those that are loaded: it
makes no difference which comes first, except that the columns have other identities. -/
theorem early_snapshot_operation_agrees_iff_fetched :
    let f := (start tableSchema (.ofMode .edit) .empty .empty ⟨0⟩).run columnAdded
    let columns := Path.parse "columns"
    Field.areStatic tableSchema.fields = true ∧
      (∀ doc, tableSchema.initialised (tableSchema.initialised doc) =
        tableSchema.initialised doc) ∧
      f.ui.ready = false ∧
      f.LoadsFrom (some (.ok tableData)) tableData ∧
      (∀ doc doc', RowId.Agree doc doc' →
        RowId.Agree (tableSchema.initialised doc) (tableSchema.initialised doc')) ∧
      (∀ action ∈ f.waiting.getD [], action.kind ≠ .deferredDepChange) ∧
      columns.isRoot = false ∧
      ((f.setInitial columns oneColumn).initialised false (some (.ok tableData))).Agree
        ((f.initialised false (some (.ok tableData))).setInitial columns oneColumn) := by
  intro f columns
  have hunready : f.ui.ready = false := rfl
  have hloads : f.LoadsFrom (some (.ok tableData)) tableData := .loader tableData
  have hplain : ∀ action ∈ f.waiting.getD [], action.kind ≠ .deferredDepChange := by decide +kernel
  have hinner : columns.isRoot = false := by decide +kernel
  obtain ⟨-, hloading⟩ := early_snapshot_operation_agrees_iff tableSchema (.ofMode .edit) .empty
    .empty ⟨0⟩ columnAdded (by decide) tableSchema_initialised_twice (some (.ok tableData))
    tableData
  obtain ⟨-, -, -, -, -, hreplaced⟩ := hloading hunready hloads
  obtain ⟨-, -, -, -, hagrees⟩ := hreplaced tableSchema_respects hplain columns oneColumn hinner
  exact ⟨by decide, tableSchema_initialised_twice, hunready, hloads, tableSchema_respects, hplain,
    hinner, hagrees.mpr (by decide +kernel)⟩

/-- A document with a name is loaded. Going back before leaves nothing of it, going back afterwards
leaves it as it is. A name that is put into the initial document before is missing there, and one
that is put there afterwards is there. -/
theorem early_snapshot_operation_disagrees :
    let f := start ⟨[.input { FieldTraits.plain with id := some "name" } .text], .plain⟩
      (.ofMode .edit) .empty .empty ⟨0⟩
    let answer : Option (Except LoadError Json) := some (.ok (.ofPairs [("name", .text "t")]))
    let name := Path.parse "name"
    let reset := f.reset.initialised false answer
    let reset' := (f.initialised false answer).reset
    let renamed := (f.setInitial name (.text "u")).initialised false answer
    let renamed' := (f.initialised false answer).setInitial name (.text "u")
    reset.session.doc = .empty ∧ reset.initialData = .ofPairs [("name", .text "t")] ∧
      reset'.session.doc = .ofPairs [("name", .text "t")] ∧ ¬ reset.Agree reset' ∧
      renamed.initialData = .ofPairs [("name", .text "t")] ∧
      renamed'.initialData = .ofPairs [("name", .text "u")] ∧ ¬ renamed.Agree renamed' := by
  intro f answer name reset reset' renamed renamed'
  refine ⟨by decide +kernel, by decide +kernel, by decide +kernel, ?_, by decide +kernel,
    by decide +kernel, ?_⟩
  · intro hagree
    exact absurd hagree.session (by decide +kernel)
  · intro hagree
    exact absurd hagree.initialData (by decide +kernel)

end Form

end SchemaForm
