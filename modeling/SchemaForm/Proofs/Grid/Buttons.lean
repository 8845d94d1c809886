import SchemaForm.Proofs.Grid.FeatureOrder

set_option autoImplicit false
set_option relaxedAutoImplicit false

/-!
The columns of a grid after a refresh. Every feature looks for the first column of a field and puts
its button in front of it. What stands before that column are the buttons of earlier features and
nothing else, so the buttons end up in the order of the features.
-/

namespace SchemaForm

open OptionName

namespace Column

private theorem insertButton_append {buttons fields : List Column}
    (hbuttons : ∀ c ∈ buttons, c.fieldId? = none) (hfields : ∀ c ∈ fields, c.fieldId? ≠ none)
    (c : Column) : insertButton (buttons ++ fields) c = (buttons ++ [c]) ++ fields := by
  have hpast : ∀ c ∈ buttons, c.fieldId?.isNone = true := by
    intro c hc
    rw [hbuttons c hc]
    rfl
  -- The search stops at the first field, and where there is none it runs to the end.
  have hstop : fields.takeWhile (fun c => c.fieldId?.isNone) = [] ∧
      fields.dropWhile (fun c => c.fieldId?.isNone) = fields := by
    cases fields with
    | nil => exact ⟨rfl, rfl⟩
    | cons first rest =>
      have hfirst : ¬ first.fieldId?.isNone = true := by
        rw [Option.isNone_iff_eq_none]
        exact hfields first List.mem_cons_self
      exact ⟨List.takeWhile_cons_of_neg hfirst, List.dropWhile_cons_of_neg hfirst⟩
  rw [insertButton, List.takeWhile_append_of_pos hpast, List.dropWhile_append_of_pos hpast,
    hstop.1, hstop.2, List.append_nil, List.append_assoc, List.singleton_append]

end Column

namespace GridFeature

/-- The button of a feature, none where the options do not enable it. -/
def button? (options : Json) : GridFeature → Option Column
  | .reorder =>
    if options.flag canReorder then some (.button "btn-reorder" .reorderHandle) else none
  | .expandableEdit => if options.flag canEdit then some (.button "btn-edit" .editToggle) else none
  | .deleteRow => if options.flag canDelete then some (.button "btn-delete" .deleteButton) else none
  | .fixedRows | .globalSearch | .inert => none

variable {options : Json} {feature : GridFeature} {c : Column}

private theorem addColumns_eq (feature : GridFeature) (options : Json) (columns : List Column) :
    feature.addColumns options columns =
      match feature.button? options with
      | some c => Column.insertButton columns c
      | none => columns := by
  cases feature with
  | reorder | expandableEdit | deleteRow =>
    simp only [addColumns, button?]
    split <;> rfl
  | fixedRows | globalSearch | inert => rfl

private theorem fieldId?_of_button (hbutton : feature.button? options = some c) :
    c.fieldId? = none := by
  cases feature with
  | reorder | expandableEdit | deleteRow =>
    obtain ⟨-, hc⟩ := Option.ite_none_right_eq_some.mp hbutton
    cases hc
    rfl
  | fixedRows | globalSearch | inert => cases hbutton

theorem fieldId?_of_mem_buttons {features : List FeatureEntry}
    (hc : c ∈ features.filterMap fun e => e.feature.button? options) : c.fieldId? = none := by
  obtain ⟨e, -, hbutton⟩ := List.mem_filterMap.mp hc
  exact fieldId?_of_button hbutton

private theorem foldl_addColumns (options : Json) (features : List FeatureEntry)
    {buttons fields : List Column} (hbuttons : ∀ c ∈ buttons, c.fieldId? = none)
    (hfields : ∀ c ∈ fields, c.fieldId? ≠ none) :
    features.foldl (fun columns e => e.feature.addColumns options columns) (buttons ++ fields) =
      buttons ++ features.filterMap (fun e => e.feature.button? options) ++ fields := by
  induction features generalizing buttons with
  | nil => simp
  | cons e features ih =>
    rw [List.foldl_cons, addColumns_eq]
    cases hbutton : e.feature.button? options with
    | none => simp only [ih hbuttons, List.filterMap_cons, hbutton]
    | some c =>
      have hbuttons' : ∀ c' ∈ buttons ++ [c], c'.fieldId? = none := by
        intro c' hc'
        rcases List.mem_append.mp hc' with hc' | hc'
        · exact hbuttons c' hc'
        · rw [List.mem_singleton.mp hc']
          exact fieldId?_of_button hbutton
      simp only [Column.insertButton_append hbuttons hfields, List.filterMap_cons, hbutton]
      rw [ih hbuttons', List.append_assoc buttons, List.singleton_append]

end GridFeature

namespace CollectionField

/-- The inputs that have columns, by the ids under which they are shown. -/
def shownInputs (c : CollectionField) : List (String × Field) :=
  match c.rows.columns with
  | some wanted => wanted.filterMap fun id =>
      ((c.fields.find? fun f => f.id? == some id).filter Field.isInput).map fun f => (id, f)
  | none => (c.fields.filter Field.isInput).filterMap fun f => f.id?.map fun id => (id, f)

def dataColumn (shown : String × Field) : Column :=
  .ofField shown.1 shown.2.traits.displayLabel

private theorem column?_eq (f : Field) :
    column? f = if f.isInput then (f.id?.map fun id => (id, f)).map dataColumn else none := by
  rw [column?]
  split
  · rw [Option.map_map]
    rfl
  · rfl

private theorem columns_eq (c : CollectionField) : c.columns = c.shownInputs.map dataColumn := by
  unfold columns shownInputs
  cases c.rows.columns with
  | some wanted =>
    rw [List.map_filterMap]
    refine List.filterMap_congr fun id _ => ?_
    simp only [Schema.field?]
    cases hfound : c.fields.find? fun f => f.id? == some id with
    | none => rfl
    | some f =>
      have hid : f.id? = some id := by simpa using List.find?_some hfound
      cases hinput : f.isInput <;> simp [column?_eq, hid, hinput, Option.filter]
  | none =>
    rw [List.map_filterMap, List.filterMap_filter]
    refine List.filterMap_congr fun f _ => ?_
    rw [column?_eq]

private theorem fieldId?_of_mem_columns {c : CollectionField} {column : Column}
    (h : column ∈ c.columns) :
    column.fieldId? ≠ none := by
  rw [columns_eq] at h
  obtain ⟨shown, -, rfl⟩ := List.mem_map.mp h
  exact Option.some_ne_none _

end CollectionField

namespace Grid

theorem columns_refresh (g : Grid) (f : Form) : (g.refresh f).columns =
    g.features.filterMap (fun e => e.feature.button? (g.collectionOptions f)) ++
      g.collection.columns := by
  have hcolumns := GridFeature.foldl_addColumns (g.collectionOptions f) g.features
    (List.forall_mem_nil fun c : Column => c.fieldId? = none)
    fun c hc => CollectionField.fieldId?_of_mem_columns (c := g.collection) hc
  rw [List.nil_append, List.nil_append] at hcolumns
  exact hcolumns

/-- After a refresh the columns are the buttons of the features that are enabled, in the order in
which the features take effect, and then the columns of the inputs that are to be shown. -/
theorem buttons_precede_columns (ops : List RegistryOp) (g : Grid)
    (hfeatures : g.features = (FeatureRegistry.empty.run ops).ordered) (f : Form) :
    let r := FeatureRegistry.empty.run ops
    let buttons := r.ordered.filterMap fun e => e.feature.button? (g.collectionOptions f)
    let fields := g.collection.shownInputs.map CollectionField.dataColumn
    (g.refresh f).columns = buttons ++ fields ∧
      r.ordered.Pairwise (fun a b => a.rank.Before b.rank) ∧
      (∀ c ∈ buttons, c.fieldId? = none) ∧
      fields.map Column.fieldId? = g.collection.shownInputs.map fun shown => some shown.1 := by
  intro r buttons fields
  refine ⟨?_, (FeatureRegistry.empty_hasUniqueNames.run ops).pairwise_ordered,
    fun c hc => GridFeature.fieldId?_of_mem_buttons hc, ?_⟩
  · rw [columns_refresh, hfeatures, CollectionField.columns_eq]
  · rw [List.map_map]
    rfl

/-- Two features that put the same handle in front of the rows, one of them under a name of its own,
stand around the one that deletes rows. -/
theorem buttons_precede_columns_parts :
    let ops := [.register ⟨"remove", 1, .deleteRow⟩, .register ⟨"drag", 2, .reorder⟩,
      .replace ⟨"grip", 0, .reorder⟩, .register ⟨"remove", 9, .expandableEdit⟩]
    let parts : CollectionField :=
      ⟨.plain, [.input { FieldTraits.plain with id := some "code" } .text, .group .plain false],
        .plain, ⟨[], none, some ["price", "code"]⟩⟩
    let g : Grid := ⟨Path.root.key "parts", parts, (FeatureRegistry.empty.run ops).ordered, [],
      .plain, "", []⟩
    let f : Form :=
      { Form.start ⟨[], .plain⟩ (.ofMode .edit) .empty .empty ⟨0⟩ with
        options := .ofState (.ofPairs [("parts", .ofPairs [(canReorder, .bool true),
          (canEdit, .bool true), (canDelete, .bool true)])]) }
    (g.refresh f).columns = [.button "btn-reorder" .reorderHandle,
      .button "btn-delete" .deleteButton, .button "btn-reorder" .reorderHandle,
      .ofField "code" "code"] := by
  intro ops parts g f
  obtain ⟨hcolumns, -⟩ := buttons_precede_columns ops g rfl f
  have hordered : (FeatureRegistry.empty.run ops).ordered =
      [⟨"drag", 2, .reorder⟩, ⟨"remove", 1, .deleteRow⟩, ⟨"grip", 0, .reorder⟩] :=
    (FeatureRegistry.empty_hasUniqueNames.run ops).ordered_eq (by decide) (by decide)
  rw [hcolumns, hordered]
  decide

end Grid

end SchemaForm
