import SchemaForm.Proofs.Form.History
import SchemaForm.Proofs.Form.RowCounts

set_option autoImplicit false
set_option relaxedAutoImplicit false

/-!
The listeners of a form. They are made anew when an initial document is put in place, and else only
when the numbers of rows of the collections differ from those they were made for. These numbers tell
documents apart as far as listeners go, so listeners that were made once always match the document.
A form whose load has failed starts without any, and as long as its schema has no collection there
are no numbers to differ.
-/

namespace SchemaForm

namespace Form

/-- The listeners match the document, and so do the numbers of rows they were made for. -/
structure Wired (f : Form) : Prop where
  graph : f.graph = f.schema.graph f.session.doc
  rowCounts : f.rowCounts = f.schema.rowCounts f.session.doc

/-- No listeners were ever made. -/
structure Unwired (f : Form) : Prop where
  graph : f.graph = .empty
  rowCounts : f.rowCounts = []

theorem Wired.rests {f g : Form} (h : f.Wired) (hstill : f.Rests g) : g.Wired := by
  constructor
  · rw [hstill.graph, hstill.schema, hstill.session, h.graph]
  · rw [hstill.rowCounts, hstill.schema, hstill.session, h.rowCounts]

private theorem Unwired.rests {f g : Form} (h : f.Unwired) (hstill : f.Rests g) : g.Unwired :=
  ⟨hstill.graph.trans h.graph, hstill.rowCounts.trans h.rowCounts⟩

@[simp] theorem apply_schema (f : Form) (action : Action) :
    (f.apply action).schema = f.schema :=
  congrArg Setting.schema (apply_setting f action)

/-- The form with the document that an action makes, before anything is done about it. -/
private def redocumented (f : Form) (action : Action) : Form :=
  let r := reduce f.graph f.ids f.session action
  { f with session := r.session, ids := r.ids, deferred := updateQueue f.deferred r.queue }

private theorem apply_rests_rewire (f : Form) (action : Action) :
    ((f.redocumented action).rewire (action.kind == .init)).Rests (f.apply action) := by
  let g := (f.redocumented action).rewire (action.kind == .init)
  have hpublished : g.Rests (f.reduced action) :=
    (rests_publish g .data g.session.doc).trans
      (rests_publish _ .options (g.registry.tree g.schema g.session.doc g.view))
  exact hpublished.trans (rests_validate (f.reduced action))

/-- The listeners are made anew for an initial document and for other numbers of rows. -/
theorem wired_apply {f : Form} {action : Action} (hanew : action.kind = .init ∨
    f.schema.rowCounts (f.apply action).session.doc ≠ f.rowCounts) : (f.apply action).Wired := by
  have hrests := apply_rests_rewire f action
  have hdoc : (f.redocumented action).session.doc = (f.apply action).session.doc := by
    rw [apply_session]
    rfl
  have hwanted : (action.kind == .init || (f.redocumented action).schema.rowCounts
      (f.redocumented action).session.doc != (f.redocumented action).rowCounts) = true := by
    rw [hdoc]
    rcases hanew with hinitial | hdiffer
    · simp [hinitial]
    · simp only [Bool.or_eq_true, bne_iff_ne]
      exact .inr hdiffer
  have hwired : ((f.redocumented action).rewire (action.kind == .init)).Wired := by
    simp only [rewire, hwanted, if_true]
    exact ⟨rfl, rfl⟩
  exact hwired.rests hrests

private theorem apply_wiring_of_same {f : Form} {action : Action} (hother : action.kind ≠ .init)
    (hsame : f.schema.rowCounts (f.apply action).session.doc = f.rowCounts) :
    (f.apply action).graph = f.graph ∧ (f.apply action).rowCounts = f.rowCounts := by
  have hrests := apply_rests_rewire f action
  have hdoc : (f.redocumented action).session.doc = (f.apply action).session.doc := by
    rw [apply_session]
    rfl
  have hunwanted : (action.kind == .init || (f.redocumented action).schema.rowCounts
      (f.redocumented action).session.doc != (f.redocumented action).rowCounts) = false := by
    rw [hdoc]
    simp only [Bool.or_eq_false_iff, beq_eq_false_iff_ne, bne_eq_false_iff_eq]
    exact ⟨hother, hsame⟩
  have hkept : (f.redocumented action).rewire (action.kind == .init) = f.redocumented action := by
    simp only [rewire, hunwanted, if_false, Bool.false_eq_true]
  rw [hkept] at hrests
  exact ⟨hrests.graph, hrests.rowCounts⟩

/-- Once listeners were made they match the document after every action: if they are not made anew,
the document has the numbers of rows of the one before. -/
theorem Wired.apply {f : Form} (h : f.Wired) (action : Action) : (f.apply action).Wired := by
  by_cases hanew : action.kind = .init ∨
      f.schema.rowCounts (f.apply action).session.doc ≠ f.rowCounts
  · exact wired_apply hanew
  · simp only [not_or, ne_eq, not_not] at hanew
    obtain ⟨hother, hsame⟩ := hanew
    obtain ⟨hgraph, hrowCounts⟩ := apply_wiring_of_same hother hsame
    have halike : f.schema.rowCounts (f.apply action).session.doc =
        f.schema.rowCounts f.session.doc := hsame.trans h.rowCounts
    constructor
    · rw [hgraph, h.graph, apply_schema]
      exact (f.schema.graph_eq_of_rowCounts_eq halike).symm
    · rw [hrowCounts, h.rowCounts, apply_schema]
      exact halike.symm

private theorem Wired.reaches {f g : Form} {actions : List Action} (h : f.Wired)
    (hreaches : Reaches f actions g) : g.Wired := by
  induction hreaches with
  | rest hstill => exact h.rests hstill
  | apply hstill _ ih => exact ih ((h.rests hstill).apply _)

theorem Reaches.schema_eq {f g : Form} {actions : List Action} (hreaches : Reaches f actions g) :
    g.schema = f.schema := by
  induction hreaches with
  | rest hstill => exact hstill.schema
  | apply hstill _ ih => rw [ih, apply_schema, hstill.schema]

/-- A form without listeners gets them with the first initial document, and if its schema has a
collection with the first action of any kind. -/
theorem Unwired.reaches {f g : Form} {actions : List Action} (h : f.Unwired)
    (hreaches : Reaches f actions g) :
    if (∃ action ∈ actions, action.kind = .init) ∨
      (actions ≠ [] ∧ f.schema.rowCounts g.session.doc ≠ []) then g.Wired else g.Unwired := by
  induction hreaches with
  | rest hstill =>
    rw [if_neg (by simp)]
    exact h.rests hstill
  | @apply f' g' last action actions hstill hlater ih =>
    have hunwired : g'.Unwired := h.rests hstill
    have hschema : g'.schema = f'.schema := hstill.schema
    -- Whether there are numbers of rows to differ is the same for all documents of the schema, so
    -- the last document decides it for the one after the first action.
    by_cases hanew : action.kind = .init ∨ f'.schema.rowCounts last.session.doc ≠ []
    · rw [if_pos (by grind)]
      refine (wired_apply ?_).reaches hlater
      rw [hunwired.rowCounts, hschema]
      rcases hanew with hinitial | hcollects
      · exact .inl hinitial
      · exact .inr fun hempty => hcollects ((f'.schema.rowCounts_eq_nil_iff _ _).mp hempty)
    · simp only [not_or, ne_eq, not_not] at hanew
      obtain ⟨hother, hempty⟩ := hanew
      have hsame : g'.schema.rowCounts (g'.apply action).session.doc = g'.rowCounts := by
        rw [hunwired.rowCounts, hschema]
        exact (f'.schema.rowCounts_eq_nil_iff _ _).mp hempty
      obtain ⟨hgraph, hrowCounts⟩ := apply_wiring_of_same hother hsame
      have hreached := ih ⟨hgraph.trans hunwired.graph, hrowCounts.trans hunwired.rowCounts⟩
      rw [apply_schema, hschema] at hreached
      simpa [hother, hempty] using hreached

/-- In every state that a run reaches, the listeners are those the schema asks for in the document,
in order, exactly if an initial document was put in place at some time, or some action was applied
and the schema has a collection, or it asks for no listener at all. A load puts an initial document
in place if it succeeds, and so does going back to it. -/
theorem listeners_current_iff (schema : Schema) (view : View) (registry : OptionRegistry)
    (fixedData : Json) (ids : RowIds) (ops : List FormOp) :
    let f := (start schema view registry fixedData ids).run ops
    let applied := (start schema view registry fixedData ids).history ops
    f.graph = schema.graph f.session.doc ↔
      (∃ action ∈ applied, action.kind = .init) ∨
      (applied ≠ [] ∧ schema.rowCounts f.session.doc ≠ []) ∨
      schema.graph f.session.doc = .empty := by
  intro f applied
  have hreaches : Reaches (start schema view registry fixedData ids) applied f := reaches_run _ ops
  have hsame : f.schema = schema := hreaches.schema_eq
  have hunwired : (start schema view registry fixedData ids).Unwired := ⟨rfl, rfl⟩
  have hreached := hunwired.reaches hreaches
  rw [← or_assoc]
  by_cases hmade : (∃ action ∈ applied, action.kind = .init) ∨
      (applied ≠ [] ∧ schema.rowCounts f.session.doc ≠ [])
  · have hwired : f.Wired := (if_pos hmade).mp hreached
    rw [← hsame]
    exact ⟨fun _ => .inl (by rw [hsame]; exact hmade), fun _ => hwired.graph⟩
  · have hnever : f.Unwired := (if_neg hmade).mp hreached
    rw [hnever.graph]
    exact ⟨fun hnoneWanted => .inr hnoneWanted.symm, fun h => (h.resolve_left hmade).symm⟩

private def invoice : Form :=
  let copy : Recompute := fun level _ _ _ => (level.get? "quantity").map fun v => [("total", v)]
  start ⟨[.input { FieldTraits.plain with id := some "quantity" } .text,
      .input { FieldTraits.plain with
        id := some "total", dependencies := [.sibling "quantity"], recompute := some copy } .text],
    .plain⟩ (.ofMode .edit) .empty .empty ⟨0⟩

/-- The load of the invoice fails: the form is ready, but none of the two listeners is there, and
they are not made by writing a quantity either, so that no total appears. -/
theorem listeners_missing_after_failed_load :
    let f := invoice.run [.initialise false (some (.error ⟨"server unreachable", none⟩))]
    let g := f.dispatch (.setValue (Path.root.key "quantity") (.ofNat 5))
    f.ui.ready = true ∧ f.graph ≠ f.schema.graph f.session.doc ∧
      (f.schema.graph f.session.doc).size = 2 ∧ f.graph.size = 0 ∧ g.graph.size = 0 ∧
      g.session.doc = .object [("quantity", .ofNat 5)] := by
  intro f g
  have hwanted : (f.schema.graph f.session.doc).size = 2 := by decide +kernel
  have hmissing : f.graph.size = 0 := by decide +kernel
  refine ⟨by decide +kernel, ?_, hwanted, hmissing, by decide +kernel, by decide +kernel⟩
  intro hsame
  rw [hsame, hwanted] at hmissing
  cases hmissing

end Form

end SchemaForm
