import SchemaForm.Options.Builtin
import SchemaForm.Proofs.Diff.Whole
import SchemaForm.Proofs.Form.Lifecycle

set_option autoImplicit false
set_option relaxedAutoImplicit false

/-!
The payload of a document that is made or shown. It is the initial document with the changes laid
over it, so a field that has no changes is handed over as it was at first. Inputs, headings and
the rows of collections are handed over as they are in the session, up to tolerant equality; the
order of the rows is where this depends on an attribute, and on the view in which the attribute is
evaluated.
-/

namespace SchemaForm

namespace Json

/-- No two members of the value have one key. -/
def DistinctKeys (v : Json) : Prop := (Dictionary.keys (v.members?.getD [])).Nodup

private theorem distinctKeys_merge (layers : List Json) : (merge layers).DistinctKeys := by
  unfold merge
  refine List.foldlRecOn (motive := fun acc => (Json.object acc).DistinctKeys) layers _
    List.nodup_nil ?_
  intro acc hacc layer _
  cases layer with
  | object members => exact Dictionary.nodup_overlay hacc members
  | _ => exact hacc

private theorem get?_merge_ofPairs {base : Json} (hbase : base.DistinctKeys)
    (pairs : List (String × Json)) (key : String) :
    (merge [base, ofPairs pairs]).get? key =
      (Dictionary.get? (Dictionary.ofPairs pairs) key).or (base.get? key) := by
  have hlaid (d : Dictionary Json) :
      Dictionary.get? (Dictionary.overlay d (Dictionary.ofPairs pairs)) key =
        (Dictionary.get? (Dictionary.ofPairs pairs) key).or (Dictionary.get? d key) :=
    Dictionary.get?_overlay_ofPairs d pairs key
  cases base with
  | object members =>
    have hmembers : Dictionary.get? (Dictionary.overlay [] members) key =
        Dictionary.get? members key := Dictionary.get?_ofPairs_of_nodup hbase key
    simp only [merge, ofPairs, List.foldl_cons, List.foldl_nil, get?, hlaid, hmembers]
  | _ => simp [merge, ofPairs, get?, hlaid]

private theorem DistinctKeys.setAt {doc : Json} (hdoc : doc.DistinctKeys) {p : Path}
    (hp : p.isRoot = false) (v : Json) : (doc.setAt p v).DistinctKeys := by
  unfold Json.setAt
  obtain ⟨segments⟩ := p
  cases segments with
  | nil => cases hp
  | cons s rest =>
    rw [setAtSegments]
    generalize setAtSegments v ((doc.container? s).getD (emptyFor rest)) rest = c
    have hsingle : (Json.object [(s.text, c)]).DistinctKeys := List.nodup_singleton s.text
    cases doc with
    | object members => exact Dictionary.nodup_insert hdoc s.text c
    | array items =>
      cases s with
      | index n => exact List.nodup_nil
      | key name => exact hsingle
    | _ => exact hsingle

end Json

namespace RowId

private theorem keys_stampMembers (creating inRow : Bool) (ids : RowIds)
    (members : List (String × Json)) :
    Dictionary.keys (stampMembers creating inRow ids members).1 = Dictionary.keys members := by
  induction members generalizing ids with
  | nil => simp [stampMembers]
  | cons pair rest ih =>
    obtain ⟨k, v⟩ := pair
    rw [stampMembers]
    split
    · exact congrArg (k :: ·) (ih ids)
    · exact congrArg (k :: ·) (ih (stamp creating ids v).2)

private theorem distinctKeys_stamp (creating : Bool) (ids : RowIds) {v : Json}
    (hv : v.DistinctKeys) :
    (stamp creating ids v).1.DistinctKeys := by
  cases v with
  | object members =>
    rw [stamp]
    have hkeys := keys_stampMembers creating false ids members
    exact (congrArg List.Nodup hkeys).mpr hv
  | array items =>
    rw [stamp]
    exact List.nodup_nil
  | _ => simpa only [stamp] using hv

end RowId

/-- Completing a document gives no member twice, as it is with values that were read. -/
def Schema.KeepsKeysDistinct (s : Schema) : Prop :=
  ∀ doc : Json, doc.DistinctKeys → (s.initialised doc).DistinctKeys

namespace Form

/-! ### The initial document -/

private theorem distinctKeys_initialDocument {f : Form} (hschema : f.schema.KeepsKeysDistinct)
    (loaded : Json) : (f.initialDocument loaded).1.DistinctKeys := by
  unfold initialDocument
  exact hschema _ (RowId.distinctKeys_stamp _ _ (Json.distinctKeys_merge _))

/-- The form has the schema, and an initial document in which no member occurs twice. -/
structure WellKeyed (s : Schema) (f : Form) : Prop where
  schema : f.schema = s
  keys : f.initialData.DistinctKeys

section WellKeyed

variable {s : Schema} {f g : Form}

private theorem WellKeyed.sameOrigin (h : f.WellKeyed s) (hsame : f.SameOrigin g) : g.WellKeyed s :=
  ⟨hsame.schema.trans h.schema, by rw [hsame.initialData]; exact h.keys⟩

private theorem WellKeyed.perform (h : f.WellKeyed s) (hs : s.KeepsKeysDistinct) (op : FormOp) :
    (f.perform op).WellKeyed s := by
  have hfschema : f.schema.KeepsKeysDistinct := by rw [h.schema]; exact hs
  cases op with
  | initialise force answer =>
    rw [Form.perform]
    rcases initialised_cases f force answer with ⟨hidle, -⟩ | ⟨loaded, htaken⟩ | ⟨e, hfailed⟩
    · rw [hidle]
      exact h
    · obtain ⟨hkept, hmade, -⟩ := finishLoad_sameOrigin f.beginLoad loaded
      have hbegun : f.beginLoad.schema.KeepsKeysDistinct := hfschema
      have hloaded : (f.beginLoad.finishLoad loaded).WellKeyed s := by
        refine ⟨hkept.trans h.schema, ?_⟩
        rw [hmade]
        exact distinctKeys_initialDocument hbegun loaded
      rw [htaken]
      exact hloaded.sameOrigin (sameOrigin_replay _)
    · have hfailure : (f.beginLoad.failLoad e).WellKeyed s :=
        ⟨h.schema, by rw [failLoad_initialData]; exact h.keys⟩
      rw [hfailed]
      exact hfailure.sameOrigin (sameOrigin_replay _)
  | setInitial p value =>
    rw [Form.perform, setInitial]
    split
    · exact h
    · rename_i hp
      have hwritten : ({ f with
          ids := (RowId.stamp false f.ids value).2
          initialData := f.initialData.setAt p (RowId.stamp false f.ids value).1 } : Form).WellKeyed
            s := ⟨h.schema, h.keys.setAt (by simpa using hp) _⟩
      exact hwritten.sameOrigin (sameOrigin_dispatch _ _)
  | reset =>
    have hcompleted : ({ f with
        initialData := f.schema.initialised f.initialData } : Form).WellKeyed s :=
      ⟨h.schema, hfschema _ h.keys⟩
    exact hcompleted.sameOrigin (sameOrigin_dispatch _ _)
  | _ => exact h.sameOrigin (sameOrigin_perform f rfl)

private theorem wellKeyed_run (hs : s.KeepsKeysDistinct) (view : View) (registry : OptionRegistry)
    (fixedData : Json) (ids : RowIds) (ops : List FormOp) :
    ((start s view registry fixedData ids).run ops).WellKeyed s := by
  have hstart : (start s view registry fixedData ids).WellKeyed s := ⟨rfl, List.nodup_nil⟩
  exact run_induction (fun _ op h => h.perform hs op) hstart ops

end WellKeyed

/-! ### The payload -/

private theorem get?_changes_of_whole {f : Form} (hmode : f.view.mode ≠ .edit)
    (hkeep : f.view.keepRowIds = true) (hkeys : f.initialData.DistinctKeys)
    (includeSkipChange : Bool) (key : String) : (f.changes includeSkipChange).get? key =
      (Dictionary.get? (f.diff includeSkipChange) key).or (f.initialData.get? key) := by
  rw [changes, payload, if_neg hmode]
  simp only [hkeep, if_true]
  exact Json.get?_merge_ofPairs hkeys _ key

/-- The payload of a form that makes or shows a document, with all changes and with the identities
of the rows, is the document of the session. Of every field that is included, with all that is
around it, an input or a heading has the value of the session, up to tolerant equality, and a
collection whose rows are identified has the rows of the session, each up to tolerant equality.
The rows are in the order of the session exactly if some row was added, removed or changed, if the
order was not changed at all, or if the attribute that allows to change it is true in a view of
which only the mode is known. -/
theorem changes_agree_with_session (schema : Schema) (view : View) (registry : OptionRegistry)
    (fixedData : Json) (ids : RowIds) (ops : List FormOp) (hmode : view.mode ≠ .edit)
    (hkeep : view.keepRowIds = true) (hunique : Diff.UniqueIds schema)
    (hcompleted : schema.KeepsKeysDistinct) :
    let f := (start schema view registry fixedData ids).run ops
    let payload := f.changes true
    ∀ d ∈ schema.declared, d.isTracked ⟨view.mode, true, false, true⟩ = true →
    ∀ id, d.field.id? = some id →
      (d.field.rowSchema? = none →
        Json.alike? (payload.get? id) (f.session.doc.get? id) = true) ∧
      ∀ t fields child rows, d.field = .collection t fields child rows → rows.fixedRows = none →
        RowDiff.Identified (f.initialData.rows id) →
        RowDiff.Identified (f.session.doc.rows id) →
        let before := f.initialData.rows id
        let after := f.session.doc.rows id
        ((payload.rows id).map RowId.of?).Perm (after.map RowId.of?) ∧
        (∀ row ∈ payload.rows id, ∀ current ∈ after, RowId.of? row = RowId.of? current →
          row.alikeObjects current = true) ∧
        ((payload.rows id).map RowId.of? = after.map RowId.of? ↔
          before.map RowId.of? = after.map RowId.of? ∨
          (RowDiff.of before after).isEmpty = false ∨
          t.attrOr "canReorder"
            ⟨d.schema.traits.idAttribute, f.session.doc, .ofMode view.mode⟩ false = true) := by
  intro f payload d hd htracked id hid
  have hkeyed : f.WellKeyed schema := wellKeyed_run hcompleted view registry fixedData ids ops
  have hmade : f.setting = ⟨schema, view, registry, fixedData⟩ :=
    (sound_run schema view registry fixedData ids ops).2
  have hview : f.view = view := congrArg Setting.view hmade
  clear_value f
  let options : DiffOptions := ⟨view.mode, true, false, true⟩
  let top : Diff.Level := ⟨schema, true, f.initialData, f.session.doc⟩
  have hpayload (key : String) : payload.get? key =
      (Dictionary.get? (top.changes options) key).or (f.initialData.get? key) := by
    have hdiff : f.diff true = top.changes options := by
      rw [diff, hview, hkeep, hkeyed.schema]
      rfl
    rw [← hdiff]
    exact get?_changes_of_whole (by rw [hview]; exact hmode) (by rw [hview]; exact hkeep)
      hkeyed.keys true key
  refine ⟨fun hscalar => ?_, fun t fields child rows hfield hfree hbefore hafter => ?_⟩
  · rw [hpayload]
    exact Diff.alike?_laid_over rfl hunique hd htracked hscalar hid
  · have hid' : t.id = some id := by rw [hfield] at hid; exact hid
    have hrows := Diff.rows_laid_over (l := top) (show options.mode ≠ .edit from hmode) rfl rfl
      hunique.level hd htracked hfield hid' hfree
    rw [← hpayload] at hrows
    have hsent : payload.rows id = _ := hrows
    obtain ⟨hperm, halike⟩ := RowDiff.handedOver_faithful hbefore hafter
    intro before after
    rw [hsent]
    exact ⟨hperm, halike, RowDiff.handedOver_order_iff⟩

private def stepFields : List Field := [.input { FieldTraits.plain with id := some "name" } .text]

private def stepsField (reorders : Expr) : Field :=
  .collection { FieldTraits.plain with id := some "steps", attrs := [("canReorder", reorders)] }
    stepFields .plain ⟨[], none, none⟩

private def titleField : Field := .input { FieldTraits.plain with id := some "title" } .text

private def planSchema (reorders : Expr) : Schema := ⟨[titleField, stepsField reorders], .plain⟩

private theorem declared_planSchema (reorders : Expr) : (planSchema reorders).declared =
    [⟨titleField, planSchema reorders, []⟩, ⟨stepsField reorders, planSchema reorders, []⟩] := rfl

private theorem uniqueIds_planSchema (reorders : Expr) : Diff.UniqueIds (planSchema reorders) := by
  have hstep : Diff.UniqueIds ⟨stepFields, .plain⟩ := by
    refine ⟨by decide, fun d hd child hchild => ?_⟩
    rcases List.mem_singleton.mp hd with rfl
    cases hchild
  refine ⟨?_, fun d hd child hchild => ?_⟩
  · have hids : ((planSchema reorders).declared.filterMap fun d => d.field.id?) =
        ["title", "steps"] := rfl
    rw [hids]
    decide
  · simp only [declared_planSchema, List.mem_cons, List.not_mem_nil, or_false] at hd
    rcases hd with rfl | rfl
    · cases hchild
    · rw [← Option.some.inj hchild]
      exact hstep

private def planView : View := ⟨.create, some ⟨"pg", 150000⟩, false, true⟩

private def planner (s : Schema) : Form := start s planView .builtin .empty ⟨0⟩

private def turned : List FormOp :=
  [.initialise false (some (.ok (.ofPairs [("steps", .array
      [.ofPairs [("name", .text "a")], .ofPairs [("name", .text "b")]])]))),
    .dispatch (.setValue (.parse "title") (.text "plan")),
    .dispatch (.moveRow (.parse "steps") 0 1)]

private def freePlan : Schema := planSchema (.literal (.bool true))

/-- Where the steps may always be put in another order, the payload has them as they were put. -/
theorem changes_agree_with_session_turned :
    let f := (planner freePlan).run turned
    f.view.mode ≠ .edit ∧ f.view.keepRowIds = true ∧ Diff.UniqueIds freePlan ∧
      freePlan.KeepsKeysDistinct ∧ f.ui.ready = true ∧
      RowDiff.Identified (f.initialData.rows "steps") ∧
      RowDiff.Identified (f.session.doc.rows "steps") ∧
      (f.session.doc.rows "steps").map RowId.of? = [some "c2", some "c1"] ∧
      ((f.changes true).rows "steps").map RowId.of? = [some "c2", some "c1"] ∧
      Json.alike? ((f.changes true).get? "title") (f.session.doc.get? "title") = true := by
  have hunique : Diff.UniqueIds freePlan := uniqueIds_planSchema _
  have hcompleted : freePlan.KeepsKeysDistinct := fun _ hdoc => hdoc
  have hagree := changes_agree_with_session freePlan planView .builtin .empty ⟨0⟩ turned (by decide)
    rfl hunique hcompleted
  -- The run is evaluated for each of the facts about its end, and is just a name beside them.
  rw [planner]
  generalize hf : (start freePlan planView .builtin .empty ⟨0⟩).run turned = f at hagree ⊢
  have hshown : f.view.mode ≠ .edit ∧ f.view.keepRowIds = true ∧ f.ui.ready = true := by
    rw [← hf]
    decide +kernel
  have hbefore : RowDiff.Identified (f.initialData.rows "steps") := by
    rw [← hf]
    decide +kernel
  have hafter : RowDiff.Identified (f.session.doc.rows "steps") := by
    rw [← hf]
    decide +kernel
  have hids : (f.session.doc.rows "steps").map RowId.of? = [some "c2", some "c1"] := by
    rw [← hf]
    decide +kernel
  have hsteps := hagree ⟨stepsField (.literal (.bool true)), freePlan, []⟩
    (by simp [freePlan, declared_planSchema]) (by decide) "steps" rfl
  have htitle := hagree ⟨titleField, freePlan, []⟩ (by simp [freePlan, declared_planSchema])
    (by decide) "title" rfl
  obtain ⟨-, -, horder⟩ := hsteps.2 _ _ _ _ rfl rfl hbefore hafter
  have hsent := horder.mpr (.inr (.inr rfl))
  exact ⟨hshown.1, hshown.2.1, hunique, hcompleted, hshown.2.2, hbefore, hafter, hids,
    hsent.trans hids, htitle.1 rfl⟩

/-- Whether the steps may be put in another order is up to the type of the server. -/
private def onServer : Expr :=
  .computed fun ctx => .bool (ctx.view.server.map Server.type == some "pg")

/-- In the view of the form the steps may be put in another order, and the options say so, but the
payload has them in the order in which they were at first. -/
theorem changes_in_initial_order_on_server :
    let f := (planner (planSchema onServer)).run turned
    f.ui.ready = true ∧ f.view.mode = .create ∧ f.view.keepRowIds = true ∧
      Diff.UniqueIds (planSchema onServer) ∧
      (stepsField onServer).traits.attrOr "canReorder"
        ⟨f.schema.traits.idAttribute, f.session.doc, f.view⟩ false = true ∧
      optionFlag? f.options.state (.parse "steps") "canReorder" = some true ∧
      RowDiff.Identified (f.initialData.rows "steps") ∧
      RowDiff.Identified (f.session.doc.rows "steps") ∧
      (f.session.doc.rows "steps").map RowId.of? = [some "c2", some "c1"] ∧
      ((f.changes true).rows "steps").map RowId.of? = [some "c1", some "c2"] := by
  intro f
  refine ⟨?_, ?_, ?_, uniqueIds_planSchema onServer, ?_, ?_, ?_, ?_, ?_, ?_⟩ <;> decide +kernel

end Form

end SchemaForm
