import SchemaForm.Proofs.Form.Listeners
import SchemaForm.Proofs.RowId.Actions

set_option autoImplicit false
set_option relaxedAutoImplicit false

/-!
The identity of rows over whole runs. A form without recomputations and without an initialiser is
loaded, and then its values and rows are edited. All rows of the documents it has are identified at
every depth; a row keeps its identity as long as it is there, and those that are added get
identities of the session. Other forms may draw numbers from the supply in between.
-/

namespace SchemaForm

/-- Whether nothing is recomputed for the field itself. -/
def FieldTraits.isStatic (t : FieldTraits) : Bool := t.recompute.isNone && t.defer.isNone

namespace Field

mutual

def isStatic : Field → Bool
  | .nested _ _ fields _ => areStatic fields
  | .collection t fields _ _ => t.isStatic && areStatic fields
  | .input t _ | .group t _ => t.isStatic

def areStatic : List Field → Bool
  | [] => true
  | f :: rest => isStatic f && areStatic rest

end

end Field

namespace Wiring

theorem ownListeners_of_isStatic {t : FieldTraits} (hstatic : t.isStatic = true)
    (access dest : Path) : ownListeners t access dest = [] := by
  obtain ⟨hnever, hnever'⟩ := Bool.and_eq_true_iff.mp hstatic
  rw [Option.isNone_iff_eq_none] at hnever hnever'
  rw [ownListeners, hnever, hnever']
  rfl

mutual

theorem fieldListeners_of_isStatic {data : Json} {access : Path} : (f : Field) →
    f.isStatic = true → fieldListeners data access f = []
  | .nested _ _ fields _, hstatic => by
    rw [Field.isStatic] at hstatic
    rw [fieldListeners]
    exact listeners_of_areStatic fields hstatic
  | .collection t fields _ _, hstatic => by
    rw [Field.isStatic] at hstatic
    obtain ⟨hown, hbelow⟩ := Bool.and_eq_true_iff.mp hstatic
    rw [fieldListeners]
    split
    · rfl
    · rw [ownListeners_of_isStatic hown, List.nil_append, List.flatMap_eq_nil_iff]
      intro pair _
      exact listeners_of_areStatic fields hbelow
  | .input t _, hstatic => by
    rw [Field.isStatic] at hstatic
    rw [fieldListeners]
    split
    · rfl
    · exact ownListeners_of_isStatic hstatic _ _
  | .group t _, hstatic => by
    rw [Field.isStatic] at hstatic
    rw [fieldListeners]
    split
    · rfl
    · exact ownListeners_of_isStatic hstatic _ _

theorem listeners_of_areStatic {data : Json} {access : Path} : (fields : List Field) →
    Field.areStatic fields = true → listeners data access fields = []
  | [], _ => rfl
  | f :: rest, hstatic => by
    obtain ⟨hfirst, hlater⟩ := Bool.and_eq_true_iff.mp hstatic
    rw [listeners, fieldListeners_of_isStatic f hfirst, listeners_of_areStatic rest hlater]
    rfl

end

end Wiring

theorem Schema.graph_of_areStatic {s : Schema} (hstatic : Field.areStatic s.fields = true)
    (doc : Json) : s.graph doc = .empty :=
  congrArg DependencyGraph.mk (Wiring.listeners_of_areStatic s.fields hstatic)

namespace Form

/-- The loaded data as they are laid over the defaults, and the fixed data over them, before any row
is identified. -/
def merged (f : Form) (loaded : Json) : Json :=
  let loaded := if loaded.isNull then .empty else loaded
  .merge (if f.creates then [.object f.schema.traits.defaults, loaded, f.fixedData]
    else [loaded, f.fixedData])

/-- The loader answers with data, or there is none and the form makes its document from defaults. -/
inductive LoadsFrom (f : Form) : Option (Except LoadError Json) → Json → Prop where
  | loader (loaded : Json) : LoadsFrom f (some (.ok loaded)) loaded
  | defaults (hcreates : f.creates = true) : LoadsFrom f none .empty

/-- The forms that are reached from a successful load by editing values and rows, while other forms
draw numbers from the supply. In the loaded document no array is directly an item of an array. -/
inductive Edited (schema : Schema) (view : View) (registry : OptionRegistry) (fixedData : Json)
    (ids : RowIds) : Form → Prop where
  | loaded {answer : Option (Except LoadError Json)} {loaded : Json}
      (hloads : (start schema view registry fixedData ids).LoadsFrom answer loaded)
      (hisFlat : ((start schema view registry fixedData ids).merged loaded).isFlat = true) :
      Edited schema view registry fixedData ids
        ((start schema view registry fixedData ids).initialised false answer)
  | drawn {f : Form} (hreached : Edited schema view registry fixedData ids f) (count : Nat) :
      Edited schema view registry fixedData ids { f with ids := ⟨f.ids.last + count⟩ }
  | dispatched {f : Form} {action : Action}
      (hreached : Edited schema view registry fixedData ids f)
      (hedits : action.Edits f.session.doc) :
      Edited schema view registry fixedData ids (f.dispatch action)

/-- What is kept of a form while it is edited. -/
structure Tracking (schema : Schema) (f : Form) : Prop where
  schema : f.schema = schema
  waiting : f.waiting = none
  wired : f.Wired
  identified : RowId.Identified f.ids.last f.session.doc

theorem apply_ids (f : Form) (action : Action) :
    (f.apply action).ids = (reduce f.graph f.ids f.session action).ids := by
  rw [apply, validate_eq, reduced, rewire_eq]
  rfl

private theorem initialDocument_eq {f : Form} (hplain : f.schema.traits.initialiser = none)
    (loaded : Json) :
    f.initialDocument loaded = RowId.stamp f.creates f.ids (f.merged loaded) := by
  have hsame (doc : Json) : f.schema.initialised doc = doc := by rw [Schema.initialised, hplain]
  simp only [initialDocument, hsame]
  rfl

private theorem finishLoad_ids (f : Form) (loaded : Json) :
    (f.finishLoad loaded).ids = (f.initialDocument loaded).2 := by
  have hshown (g : Form) (ui : Ui) : (g.display ui).ids = g.ids := rfl
  rw [finishLoad_eq, hshown, apply_ids]
  rfl

theorem wired_finishLoad (f : Form) (loaded : Json) : (f.finishLoad loaded).Wired := by
  have hwired : ((f.readied loaded).apply (.init (f.initialDocument loaded).1)).Wired :=
    wired_apply (.inl rfl)
  rw [finishLoad_eq]
  exact hwired.rests (rests_display _ _)

section Edited

variable {schema : Schema} {view : View} {registry : OptionRegistry} {fixedData : Json}
  {ids : RowIds}

private theorem tracking_loaded (hplain : schema.traits.initialiser = none)
    {answer : Option (Except LoadError Json)} {loaded : Json}
    (hloads : (start schema view registry fixedData ids).LoadsFrom answer loaded)
    (hisFlat : ((start schema view registry fixedData ids).merged loaded).isFlat = true) :
    Tracking schema ((start schema view registry fixedData ids).initialised false answer) := by
  let f := start schema view registry fixedData ids
  let g := f.beginLoad.finishLoad loaded
  have htaken : f.initialised false answer = g.replay := by
    have hstarted : f.wouldLoad false = true := rfl
    cases hloads with
    | loader => rfl
    | defaults hcreates =>
      have hmade : f.creates = true := hcreates
      simp only [initialised, initialise, hstarted, hmade, Bool.not_true, Bool.false_eq_true,
        if_false, if_true]
      rfl
  have hwaits : g.waiting = some [] := finishLoad_waiting f.beginLoad loaded
  have hreplayed : g.replay = g.awaiting none := by
    rw [replay, hwaits]
    rfl
  have hdoc : f.beginLoad.initialDocument loaded = RowId.stamp f.creates f.ids (f.merged loaded) :=
    initialDocument_eq (f := f.beginLoad) hplain loaded
  have hsession : g.session.doc = (RowId.stamp f.creates f.ids (f.merged loaded)).1 := by
    rw [← hdoc]
    exact congrArg Session.doc (finishLoad_session f.beginLoad loaded)
  have hdrawn : g.ids = (RowId.stamp f.creates f.ids (f.merged loaded)).2 := by
    rw [← hdoc]
    exact finishLoad_ids f.beginLoad loaded
  have hstill : g.Rests (g.awaiting none) := ⟨rfl, rfl, rfl, rfl⟩
  have hnumbered := RowId.numbered_stamp f.creates (f.merged loaded) f.ids hisFlat
  rw [← hsession, ← hdrawn] at hnumbered
  rw [htaken, hreplayed]
  exact ⟨(reaches_finishLoad f.beginLoad loaded).schema_eq, rfl,
    (wired_finishLoad f.beginLoad loaded).rests hstill, hnumbered.identified⟩

variable {f : Form}

private theorem Tracking.graph (h : Tracking schema f)
    (hstatic : Field.areStatic schema.fields = true) :
    f.graph = .empty := by
  rw [h.wired.graph, h.schema, Schema.graph_of_areStatic hstatic]

private theorem Tracking.dispatch_eq (h : Tracking schema f)
    (hstatic : Field.areStatic schema.fields = true) (action : Action) :
    (f.dispatch action).session = (reduce .empty f.ids f.session action).session ∧
      (f.dispatch action).ids = (reduce .empty f.ids f.session action).ids := by
  rw [dispatch_released h.waiting, apply_session, apply_ids, h.graph hstatic]
  exact ⟨rfl, rfl⟩

private theorem Tracking.dispatch (h : Tracking schema f)
    (hstatic : Field.areStatic schema.fields = true) {action : Action}
    (hedits : action.Edits f.session.doc) :
    Tracking schema (f.dispatch action) := by
  obtain ⟨hsession, hids⟩ := h.dispatch_eq hstatic action
  have hidentified := hedits.identified h.identified
  rw [← hsession, ← hids] at hidentified
  rw [dispatch_released h.waiting] at hidentified ⊢
  exact ⟨(apply_schema f action).trans h.schema, (apply_waiting f action).trans h.waiting,
    h.wired.apply action, hidentified⟩

private theorem Edited.tracking (hstatic : Field.areStatic schema.fields = true)
    (hplain : schema.traits.initialiser = none)
    (hreached : Edited schema view registry fixedData ids f) : Tracking schema f := by
  induction hreached with
  | loaded hloads hisFlat => exact tracking_loaded hplain hloads hisFlat
  | drawn _ count ih =>
    exact ⟨ih.schema, ih.waiting, ih.wired.rests ⟨rfl, rfl, rfl, rfl⟩,
      ih.identified.mono (Nat.le_add_right _ count)⟩
  | dispatched _ hedits ih => exact ih.dispatch hstatic hedits

/-- In every form that is reached, every row at every depth has an identity, and no two rows have
the same. With every edit, rows that go to another place along the route of the action, or stay,
keep their identities; every row of the new document is one of those, or is made by the action; and
the row that is made is there, and it and all rows below it have identities of the session. -/
theorem rows_keep_identities (schema : Schema) (view : View) (registry : OptionRegistry)
    (fixedData : Json) (ids : RowIds) (hstatic : Field.areStatic schema.fields = true)
    (hplain : schema.traits.initialiser = none) (f : Form)
    (hreached : Edited schema view registry fixedData ids f) :
    let doc := f.session.doc
    (∀ l row, doc.RowAt l row → ∃ id, RowId.of? row = some id) ∧
    (∀ l l' row row', doc.RowAt l row → doc.RowAt l' row' →
      RowId.of? row = RowId.of? row' → l = l') ∧
    ∀ action, action.Edits doc →
      let doc' := (f.dispatch action).session.doc
      (∀ l l' row, doc.RowAt l row → action.route doc l = some l' →
        ∃ row', doc'.RowAt l' row' ∧ RowId.of? row' = RowId.of? row) ∧
      (∀ l' row', doc'.RowAt l' row' → action.Makes doc l' ∨
        ∃ l row, doc.RowAt l row ∧ action.route doc l = some l' ∧
          RowId.of? row' = RowId.of? row) ∧
      ∀ base, action.rowMade? doc = some base → (∃ row, doc'.RowAt base row) ∧
        ∀ l row, base <+: l → doc'.RowAt l row →
          ∃ id, RowId.of? row = some id ∧ RowId.isNew id = true := by
  intro doc
  have htracking : Tracking schema f := hreached.tracking hstatic hplain
  refine ⟨htracking.identified.exists_of?, htracking.identified.distinct, ?_⟩
  intro action hedits doc'
  have hreduced : doc' = (reduce .empty f.ids f.session action).session.doc :=
    congrArg Session.doc (htracking.dispatch_eq hstatic action).1
  have hcarries := hedits.carries htracking.identified
  rw [← hreduced] at hcarries
  refine ⟨hcarries.kept, hcarries.origin, ?_⟩
  intro base hmakes
  rw [hreduced]
  exact hedits.isNew_of_makes hmakes

end Edited

private def orders : Schema :=
  ⟨[.collection { FieldTraits.plain with id := some "orders" }
      [.input { FieldTraits.plain with id := some "note" } .text,
        .collection { FieldTraits.plain with id := some "parts" }
          [.input { FieldTraits.plain with id := some "size" } .text] .plain ⟨[], none, none⟩]
      .plain ⟨[], none, none⟩], .plain⟩

private def order (cid : Option String) (note : String) (parts : List Json) : Json :=
  .ofPairs ((cid.map fun id => ("cid", .text id)).toList ++
    [("note", .text note), ("parts", .array parts)])

private def part (cid : Option String) (size : String) : Json :=
  .ofPairs ((cid.map fun id => ("cid", .text id)).toList ++ [("size", .text size)])

private def ordersLoaded : Form :=
  (start orders (.ofMode .edit) .empty .empty ⟨0⟩).initialised false
    (some (.ok (.ofPairs [("orders", .array [order none "a" [part none "1"], order none "b" []])])))

private def ordersAdded : Form :=
  ordersLoaded.dispatch (.addRow (.parse "orders") (order none "c" [part none "2"]) true)

private theorem edited_ordersAdded :
    Edited orders (.ofMode .edit) .empty .empty ⟨0⟩ ordersAdded := by
  have hloaded : Edited orders (.ofMode .edit) .empty .empty ⟨0⟩ ordersLoaded :=
    .loaded (.loader _) (by decide +kernel)
  have hheld : ordersLoaded.session.doc.valueAt? (.parse "orders") =
      some (.array
        [order (some "nn1") "a" [part (some "nn2") "1"], order (some "nn3") "b" []]) := by
    decide +kernel
  exact .dispatched hloaded (.addRow hheld ⟨_, rfl⟩ (by decide +kernel))

/-- A third order is added on top, which has a part as well, and is moved to the end: the part of
the first order is at another place then, and has the identity that it was loaded with. -/
theorem rows_keep_identities_moved :
    Field.areStatic orders.fields = true ∧ orders.traits.initialiser = none ∧
      Edited orders (.ofMode .edit) .empty .empty ⟨0⟩ ordersAdded ∧
      ordersAdded.session.doc.valueAt? (.parse "orders") =
        some (.array [order (some "c4") "c" [part (some "c5") "2"],
          order (some "nn1") "a" [part (some "nn2") "1"], order (some "nn3") "b" []]) ∧
      ∃ row, (ordersAdded.dispatch (.moveRow (.parse "orders") 0 2)).session.doc.RowAt
          [.member "orders", .item 0, .member "parts", .item 0] row ∧
        RowId.of? row = some "nn2" := by
  have hheld : ordersAdded.session.doc.valueAt? (.parse "orders") =
      some (.array [order (some "c4") "c" [part (some "c5") "2"],
        order (some "nn1") "a" [part (some "nn2") "1"], order (some "nn3") "b" []]) := by
    decide +kernel
  obtain ⟨-, -, hedited⟩ := rows_keep_identities orders (.ofMode .edit) .empty .empty ⟨0⟩
    (by decide) rfl ordersAdded edited_ordersAdded
  obtain ⟨hkept, -⟩ := hedited (.moveRow (.parse "orders") 0 2) (.moveRow hheld)
  have hthere : ordersAdded.session.doc.RowAt [.member "orders", .item 1, .member "parts", .item 0]
      (part (some "nn2") "1") := by
    refine ⟨?_, ⟨0, rfl⟩, ⟨_, rfl⟩⟩
    decide +kernel
  have hgoes : (Action.moveRow (.parse "orders") 0 2).route ordersAdded.session.doc
      [.member "orders", .item 1, .member "parts", .item 0] =
        some [.member "orders", .item 0, .member "parts", .item 0] := by
    decide +kernel
  obtain ⟨row, hmoved, hsame⟩ := hkept _ _ _ hthere hgoes
  have hname : RowId.of? (part (some "nn2") "1") = some "nn2" := by decide +kernel
  exact ⟨by decide, rfl, edited_ordersAdded, hheld, row, hmoved, hsame.trans hname⟩

end Form

end SchemaForm
