import SchemaForm.Proofs.Diff.Level

set_option autoImplicit false
set_option relaxedAutoImplicit false

/-!
The fields that a schema declares for one data level. Nested schemas have no data of their own, so
their fields lie on the level around them, and a change set tracks these only where it tracks
every nested schema on the way. In all modes a level reports what its tracked fields report, each
under its own id.
-/

namespace SchemaForm

namespace Diff

/-- A field with data of its own, the schema that declares it, and the nested schemas around it. -/
structure Declared where
  field : Field
  schema : Schema
  around : List FieldTraits

namespace Declared

/-- Whether a change set tracks the field: it does with the field and all that is around it. -/
def isTracked (options : DiffOptions) (d : Declared) : Bool :=
  (d.field.traits :: d.around).all fun t => t.isTracked options.mode options.includeSkipChange

/-- What the field contributes to the reports of its level. -/
def reports (options : DiffOptions) (atTop : Bool) (original current : Json) (d : Declared) :
    List (String × Json) :=
  if d.isTracked options then fieldReports options d.schema.traits atTop original current d.field
  else []

end Declared

mutual

/-- The field itself, or in place of a nested schema the fields that it declares. -/
def declaredOf (schema : Schema) (around : List FieldTraits) : Field → List Declared
  | .nested t _ fields child => declared ⟨fields, child⟩ (t :: around) fields
  | .input t kind => [⟨.input t kind, schema, around⟩]
  | .group t inline => [⟨.group t inline, schema, around⟩]
  | .collection t fields child rows => [⟨.collection t fields child rows, schema, around⟩]

def declared (schema : Schema) (around : List FieldTraits) : List Field → List Declared
  | [] => []
  | f :: rest => declaredOf schema around f ++ declared schema around rest

end

mutual

private theorem around_of_mem_declaredOf {schema : Schema} {around : List FieldTraits}
    {d : Declared} : (f : Field) → d ∈ declaredOf schema around f → around ⊆ d.around ∧
      f.traits ∈ d.field.traits :: d.around ∧ IsData d.field
  | .nested t _ fields child, hd => by
    obtain ⟨hsub, hdata⟩ := around_of_mem_declared fields hd
    exact ⟨fun u hu => hsub (List.mem_cons_of_mem t hu),
      List.mem_cons_of_mem _ (hsub List.mem_cons_self), hdata⟩
  | .input t kind, hd => by
    rw [declaredOf, List.mem_singleton] at hd
    subst hd
    exact ⟨List.Subset.refl _, List.mem_cons_self, by simp [IsData]⟩
  | .group t inline, hd => by
    rw [declaredOf, List.mem_singleton] at hd
    subst hd
    exact ⟨List.Subset.refl _, List.mem_cons_self, by simp [IsData]⟩
  | .collection t fields child rows, hd => by
    rw [declaredOf, List.mem_singleton] at hd
    subst hd
    exact ⟨List.Subset.refl _, List.mem_cons_self, by simp [IsData]⟩

private theorem around_of_mem_declared {schema : Schema} {around : List FieldTraits}
    {d : Declared} :
    (fields : List Field) → d ∈ declared schema around fields → around ⊆ d.around ∧ IsData d.field
  | [], hd => by cases hd
  | f :: rest, hd => by
    rw [declared, List.mem_append] at hd
    rcases hd with hfirst | hlater
    · obtain ⟨hsub, -, hdata⟩ := around_of_mem_declaredOf f hfirst
      exact ⟨hsub, hdata⟩
    · exact around_of_mem_declared rest hlater

end

section Reports

variable {options : DiffOptions} {atTop : Bool} {original current : Json}

private theorem reports_declaredOf_untracked {schema : Schema} {around : List FieldTraits}
    {f : Field} (hf : f.traits.isTracked options.mode options.includeSkipChange = false) :
    (declaredOf schema around f).flatMap (Declared.reports options atTop original current) =
      [] := by
  rw [List.flatMap_eq_nil_iff]
  intro d hd
  obtain ⟨-, htraits, -⟩ := around_of_mem_declaredOf f hd
  have huntracked : d.isTracked options = false := by
    rw [Declared.isTracked, List.all_eq_false]
    exact ⟨f.traits, htraits, by simp [hf]⟩
  rw [Declared.reports, huntracked]
  rfl

mutual

private theorem fieldReports_eq_declaredOf (schema : Schema) {around : List FieldTraits}
    (haround : ∀ t ∈ around, t.isTracked options.mode options.includeSkipChange = true) :
    (f : Field) → f.traits.isTracked options.mode options.includeSkipChange = true →
    fieldReports options schema.traits atTop original current f =
      (declaredOf schema around f).flatMap (Declared.reports options atTop original current)
  | .nested t _ fields child, hf => by
    rw [fieldReports, declaredOf]
    refine levelReports_eq_declared ⟨fields, child⟩ (fun u hu => ?_) fields
    rcases List.mem_cons.mp hu with rfl | hout
    · exact hf
    · exact haround u hout
  | .input t kind, hf => by
    have htracked : Declared.isTracked options ⟨.input t kind, schema, around⟩ = true :=
      List.all_eq_true.mpr (List.forall_mem_cons.mpr ⟨hf, haround⟩)
    simp only [declaredOf, List.flatMap_singleton, Declared.reports, htracked, if_true]
  | .group t inline, hf => by
    have htracked : Declared.isTracked options ⟨.group t inline, schema, around⟩ = true :=
      List.all_eq_true.mpr (List.forall_mem_cons.mpr ⟨hf, haround⟩)
    simp only [declaredOf, List.flatMap_singleton, Declared.reports, htracked, if_true]
  | .collection t fields child rows, hf => by
    have htracked :
        Declared.isTracked options ⟨.collection t fields child rows, schema, around⟩ = true :=
      List.all_eq_true.mpr (List.forall_mem_cons.mpr ⟨hf, haround⟩)
    simp only [declaredOf, List.flatMap_singleton, Declared.reports, htracked, if_true]

private theorem levelReports_eq_declared (schema : Schema) {around : List FieldTraits}
    (haround : ∀ t ∈ around, t.isTracked options.mode options.includeSkipChange = true) :
    (fields : List Field) → levelReports options schema.traits atTop original current fields =
      (declared schema around fields).flatMap (Declared.reports options atTop original current)
  | [] => rfl
  | f :: rest => by
    rw [levelReports, declared, List.flatMap_append, levelReports_eq_declared schema haround rest]
    cases hf : f.traits.isTracked options.mode options.includeSkipChange with
    | true => rw [if_pos rfl, fieldReports_eq_declaredOf schema haround f hf]
    | false => rw [reports_declaredOf_untracked hf, if_neg (by simp)]

end

/-- A declared field contributes nothing, or one value under its own id. -/
theorem Declared.reports_cases {d : Declared} (hdata : IsData d.field) :
    d.reports options atTop original current = [] ∨
    ∃ id v, d.field.id? = some id ∧
      d.reports options atTop original current = [(id, reported options atTop v)] := by
  unfold reports
  split
  · exact fieldReports_cases hdata
  · exact .inl rfl

end Reports

end Diff

/-- The fields that a schema declares for its data level. -/
def Schema.declared (s : Schema) : List Diff.Declared := Diff.declared s [] s.fields

namespace Diff

theorem isData_of_mem_declared {s : Schema} {d : Declared} (hd : d ∈ s.declared) :
    IsData d.field := (around_of_mem_declared s.fields hd).2

theorem levelReports_eq_flatMap_declared (s : Schema) (options : DiffOptions) (atTop : Bool)
    (original current : Json) : levelReports options s.traits atTop original current s.fields =
      s.declared.flatMap (Declared.reports options atTop original current) :=
  levelReports_eq_declared s (by simp) s.fields

/-- No two fields of a level have one id, and neither have those of the levels below. -/
inductive UniqueIds : Schema → Prop where
  | intro {s : Schema} (hlevel : (s.declared.filterMap fun d => d.field.id?).Nodup)
      (hbelow : ∀ d ∈ s.declared, ∀ child, d.field.rowSchema? = some child → UniqueIds child) :
      UniqueIds s

theorem UniqueIds.level {s : Schema} (h : UniqueIds s) :
    (s.declared.filterMap fun d => d.field.id?).Nodup := by
  cases h with
  | intro hlevel _ => exact hlevel

theorem UniqueIds.child {s : Schema} (h : UniqueIds s) {d : Declared} (hd : d ∈ s.declared)
    {child : Schema} (hchild : d.field.rowSchema? = some child) : UniqueIds child := by
  cases h with
  | intro _ hbelow => exact hbelow d hd child hchild

/-- Where no two fields have one id, the changes of a level have for each what it contributes. -/
theorem get?_changes_of_declared {options : DiffOptions} {l : Level}
    (hunique : (l.schema.declared.filterMap fun d => d.field.id?).Nodup) {d : Declared}
    (hd : d ∈ l.schema.declared) {id : String} (hid : d.field.id? = some id) :
    Dictionary.get? (l.changes options) id =
      Dictionary.get? (d.reports options l.atTop l.before l.after) id := by
  rw [Level.changes, levelReports_eq_flatMap_declared]
  refine Dictionary.get?_ofPairs_flatMap (fun e : Declared => e.field.id?) _ hunique ?_ hd hid
  intro e he
  have hreports : e.reports options l.atTop l.before l.after = [] ∨ _ :=
    Declared.reports_cases (isData_of_mem_declared he)
  rcases hreports with hsilent | ⟨name, v, hname, hsingle⟩
  · exact .inl hsilent
  · exact .inr ⟨name, _, hname, hsingle⟩

end Diff

end SchemaForm
