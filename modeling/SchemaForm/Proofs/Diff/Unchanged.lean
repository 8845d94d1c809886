import SchemaForm.Proofs.Diff.Level
import SchemaForm.Proofs.Diff.Rows

set_option autoImplicit false
set_option relaxedAutoImplicit false

/-!
A document compared with itself. Nothing is reported of it, in any mode, if no two rows of a
collection have one identity: every row is then compared with itself, or with an equal row.
-/

namespace SchemaForm

namespace RowDiff

variable {rows : List Json}

private theorem counterpart?_self (hdistinct : (rows.filterMap RowId.of?).Nodup) {row : Json}
    (hmember : row ∈ rows) :
    ∃ other, counterpart? rows row = some other ∧ other.same row = true := by
  cases hnamed : RowId.of? row with
  | none =>
    simp only [counterpart?, hnamed]
    cases hfound : rows.find? fun candidate => candidate.same row with
    | none => exact absurd (Json.same_refl row) (List.find?_eq_none.mp hfound row hmember)
    | some other =>
      have hsame := List.find?_some hfound
      exact ⟨other, rfl, hsame⟩
  | some id =>
    simp only [counterpart?, hnamed]
    cases hfound : rows.find? fun candidate => RowId.of? candidate == some id with
    | none => exact absurd (by simp [hnamed]) (List.find?_eq_none.mp hfound row hmember)
    | some other =>
      obtain ⟨hsame, front, rest, hsplit, hearlier⟩ := List.find?_eq_some_iff_append.mp hfound
      have hpairwise := List.pairwise_filterMap.mp hdistinct
      rw [hsplit, List.pairwise_append, List.pairwise_cons] at hpairwise
      obtain ⟨-, ⟨hapart, -⟩, -⟩ := hpairwise
      rw [hsplit, List.mem_append, List.mem_cons] at hmember
      rcases hmember with hbefore | rfl | hafter
      · have hdiffers := hearlier row hbefore
        simp [hnamed] at hdiffers
      · exact ⟨row, rfl, Json.same_refl row⟩
      · exact absurd rfl (hapart row hafter id (by simpa using hsame) id hnamed)

private theorem counterpart?_eq_of_same {row row' : Json} (hsame : row.same row' = true) :
    counterpart? rows row = counterpart? rows row' := by
  have hcandidates (candidate : Json) : candidate.same row = candidate.same row' := by
    rw [Bool.eq_iff_iff]
    exact ⟨fun hfirst => Json.same_trans hfirst hsame,
      fun hsecond => Json.same_trans hsecond (Json.same_symm hsame)⟩
  simp only [counterpart?, of?_eq_of_same hsame, hcandidates]

private theorem exists_counterpart?_of_same {before after : List Json}
    (hsame : List.Forall₂ (fun u v => u.same v = true) before after)
    (hdistinct : (before.filterMap RowId.of?).Nodup) {row : Json} (hmember : row ∈ after) :
    ∃ old, counterpart? before row = some old ∧ old.same row = true := by
  obtain ⟨n, hn, rfl⟩ := List.getElem_of_mem hmember
  have hn' : n < before.length := hsame.length_eq ▸ hn
  have hplace : before[n].same after[n] = true := hsame.get hn' hn
  obtain ⟨old, hfound, hequal⟩ := counterpart?_self hdistinct (List.getElem_mem hn')
  rw [counterpart?_eq_of_same hplace] at hfound
  exact ⟨old, hfound, Json.same_trans hequal hplace⟩

theorem of_same {before after : List Json}
    (hsame : List.Forall₂ (fun u v => u.same v = true) before after)
    (hdistinct : (before.filterMap RowId.of?).Nodup) : RowDiff.of before after = ⟨[], [], []⟩ := by
  have hadded : (after.filter fun row => (counterpart? before row).isNone) = [] := by
    refine List.filter_eq_nil_iff.mpr fun row hmember => ?_
    obtain ⟨old, hfound, -⟩ := exists_counterpart?_of_same hsame hdistinct hmember
    simp [hfound]
  have hupdated : after.filter (isUpdated before) = [] := by
    refine List.filter_eq_nil_iff.mpr fun row hmember => ?_
    obtain ⟨old, hfound, hequal⟩ := exists_counterpart?_of_same hsame hdistinct hmember
    simp [isUpdated, hfound, Json.alikeObjects_of_same hequal]
  have hremoved : (before.filter fun old => (counterpart? after old).isNone) = [] := by
    have hback : List.Forall₂ (fun u v => u.same v = true) after before :=
      hsame.flip.imp fun _ _ hequal => Json.same_symm hequal
    have hnames : before.filterMap RowId.of? = after.filterMap RowId.of? := by
      simpa [List.filterMap_map] using congrArg (List.filterMap id) (map_of?_eq_of_same hsame)
    refine List.filter_eq_nil_iff.mpr fun old hmember => ?_
    obtain ⟨row, hfound, -⟩ := exists_counterpart?_of_same hback (hnames ▸ hdistinct) hmember
    simp [hfound]
  rw [RowDiff.of, hadded, hupdated, hremoved]

private theorem of_self (hdistinct : (rows.filterMap RowId.of?).Nodup) :
    RowDiff.of rows rows = ⟨[], [], []⟩ :=
  of_same (List.forall₂_same.mpr fun row _ => Json.same_refl row) hdistinct

end RowDiff

namespace Json

private theorem same?_refl (v : Option Json) : same? v v = true := by
  cases v with
  | none => rfl
  | some v => exact same_refl v

end Json

namespace Diff

/-- No two rows of an included collection of the level have one identity. -/
def RowsDistinct (options : DiffOptions) (fields : List Field) (doc : Json) : Prop :=
  ∀ id child, (id, child) ∈ collections options fields →
    ((doc.rows id).filterMap RowId.of?).Nodup

private theorem collectionChanged_self {doc : Json} {id : String}
    (hdistinct : ((doc.rows id).filterMap RowId.of?).Nodup) (mode : Mode) (schema : SchemaTraits)
    (t : FieldTraits) (rows : CollectionTraits) :
    collectionChanged mode schema t rows id doc doc = false := by
  have horder : ((doc.rows id).map RowId.of? != (doc.rows id).map RowId.of?) = false := by simp
  simp only [collectionChanged, RowDiff.of_self hdistinct, horder, Bool.and_false, Bool.or_false]
  split <;> rfl

section Self

variable {options : DiffOptions} {doc : Json}

private theorem valueReport_self (schema : SchemaTraits) (atTop : Bool) (id : String) :
    fieldReports options schema atTop doc doc
      (.input { FieldTraits.plain with id := some id } .text) = [] := by
  simp [fieldReports, Json.alike?_of_same? (Json.same?_refl (doc.get? id))]

mutual

private theorem fieldReports_self (schema : SchemaTraits) (atTop : Bool) : (f : Field) →
    (∀ id child, (id, child) ∈ collections options [f] →
      ((doc.rows id).filterMap RowId.of?).Nodup) →
    f.traits.isTracked options.mode options.includeSkipChange = true →
    fieldReports options schema atTop doc doc f = []
  | .nested t style fields child, hdistinct, htracked => by
    rw [fieldReports]
    refine levelReports_self child atTop fields fun id row hheld => hdistinct id row ?_
    have hinside : included options [.nested t style fields child] = included options fields := by
      simp only [included, htracked, if_true, includedOf, List.append_nil]
    rwa [collections, hinside]
  | .input t _, _, _ => by
    rw [fieldReports]
    cases t.id with
    | none => rfl
    | some id => simpa only [fieldReports] using valueReport_self schema atTop id
  | .group t _, _, _ => by
    rw [fieldReports]
    cases t.id with
    | none => rfl
    | some id => simpa only [fieldReports] using valueReport_self schema atTop id
  | .collection t fields child rows, hdistinct, htracked => by
    rw [fieldReports]
    cases hnamed : t.id with
    | none => rfl
    | some id =>
      have hheld : (id, ⟨fields, child⟩) ∈
          collections options [.collection t fields child rows] := by
        simp [collections, included, htracked, includedOf, hnamed]
      have hunchanged := collectionChanged_self (hdistinct id _ hheld) options.mode schema t rows
      simp only [Json.same?_refl, if_true, hunchanged, Bool.false_eq_true, if_false, ite_self]

private theorem levelReports_self (schema : SchemaTraits) (atTop : Bool) : (fields : List Field) →
    RowsDistinct options fields doc → levelReports options schema atTop doc doc fields = []
  | [], _ => rfl
  | f :: rest, hdistinct => by
    have hparts : collections options (f :: rest) =
        collections options [f] ++ collections options rest := by
      simp only [collections, included, List.append_nil, List.filterMap_append]
    have hfirst (id : String) (child : Schema) (hheld : (id, child) ∈ collections options [f]) :=
      hdistinct id child (hparts ▸ List.mem_append_left _ hheld)
    have hlater : RowsDistinct options rest doc := fun id child hheld =>
      hdistinct id child (hparts ▸ List.mem_append_right _ hheld)
    rw [levelReports, levelReports_self schema atTop rest hlater, List.append_nil]
    split
    · rename_i htracked
      exact fieldReports_self schema atTop f hfirst htracked
    · rfl

end

end Self

end Diff

/-- The change set of a document and itself is empty, in every mode. -/
theorem Schema.diff_self (s : Schema) {options : DiffOptions} {doc : Json}
    (hdistinct : Diff.RowsDistinct options s.fields doc) : s.diff options doc doc = [] := by
  rw [Schema.diff, Diff.levelReports_self s.traits true s.fields hdistinct]
  rfl

end SchemaForm
