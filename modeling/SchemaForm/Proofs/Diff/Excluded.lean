import SchemaForm.Proofs.Diff.Collection
import SchemaForm.Proofs.Diff.Declared
import SchemaForm.Proofs.Diff.Unchanged

set_option autoImplicit false
set_option relaxedAutoImplicit false

/-!
What excluded fields have to do with the change set. They are passed over on every level, so that a
change of theirs is never reported as such. But rows are also compared and handed over as a whole,
and then their excluded values count. Two documents that differ in excluded values only have one
change set as long as this does not happen to a row in which they differ.
-/

namespace SchemaForm

namespace RowDiff

/-- Two rows in one place of two arrays: one row, or two that have the identity of an older row. -/
def InPlace (before : List Json) (row row' : Json) : Prop :=
  row = row' ∨ (RowId.of? row).isSome = true ∧ RowId.of? row' = RowId.of? row ∧
    (version? before row).isSome = true

variable {before rows rows' : List Json}

private theorem filterMap_eq_of_forall₂ {α : Type} {f : Json → Option α}
    (h : List.Forall₂ (fun row row' => f row = f row') rows rows') :
    rows.filterMap f = rows'.filterMap f := by
  induction h with
  | nil => rfl
  | cons hfirst _ ih => rw [List.filterMap_cons, List.filterMap_cons, hfirst, ih]

private theorem isNone_find?_eq_of_forall₂ {p : Json → Bool}
    (h : List.Forall₂ (fun row row' => p row = p row') rows rows') :
    (rows.find? p).isNone = (rows'.find? p).isNone := by
  induction h with
  | nil => rfl
  | @cons row row' _ _ hfirst _ ih =>
    rw [List.find?_cons, List.find?_cons, hfirst]
    cases p row' with
    | true => rfl
    | false => exact ih

private theorem InPlace.of?_eq {row row' : Json} (h : InPlace before row row') :
    RowId.of? row' = RowId.of? row := by
  rcases h with rfl | ⟨-, hname, -⟩
  · rfl
  · exact hname

private theorem InPlace.counterpart?_eq {row row' : Json} (h : InPlace before row row') :
    counterpart? before row' = counterpart? before row := by
  rcases h with rfl | ⟨hnamed, hname, -⟩
  · rfl
  · rw [counterpart?_of_named hnamed, counterpart?_of_named (hname ▸ hnamed), version?, version?,
      hname]

private theorem added_eq (h : List.Forall₂ (InPlace before) rows rows') :
    (RowDiff.of before rows).added = (RowDiff.of before rows').added := by
  rw [RowDiff.of, RowDiff.of, ← List.filterMap_eq_filter, ← List.filterMap_eq_filter]
  refine filterMap_eq_of_forall₂ (h.imp fun row row' hplace => ?_)
  have hcounterpart := hplace.counterpart?_eq
  rcases hplace with rfl | ⟨hnamed, -, holder⟩
  · rfl
  · have hfound : (counterpart? before row).isNone = false := by
      rw [counterpart?_of_named hnamed]
      simpa using holder
    simp [Option.guard, hcounterpart, hfound]

private theorem removed_eq (h : List.Forall₂ (InPlace before) rows rows') :
    (RowDiff.of before rows).removed = (RowDiff.of before rows').removed := by
  refine List.filter_congr fun old _ => ?_
  unfold counterpart?
  cases hold : RowId.of? old with
  | some id =>
    refine isNone_find?_eq_of_forall₂ (h.imp fun row row' hplace => ?_)
    rw [hplace.of?_eq]
  | none =>
    refine isNone_find?_eq_of_forall₂ (h.imp fun row row' hplace => ?_)
    rcases hplace with rfl | ⟨hnamed, hname, -⟩
    · rfl
    · -- A row with an identity is not strictly equal to one without.
      have hdiffers {named : Json} (hsome : (RowId.of? named).isSome = true) :
          named.same old = false := by
        rw [Bool.eq_false_iff]
        intro hsame
        rw [of?_eq_of_same hsame, hold] at hsome
        cases hsome
      rw [hdiffers hnamed, hdiffers (hname ▸ hnamed)]

end RowDiff

namespace Diff

/-! ### Differing in excluded fields -/

/-- Whether the field is excluded, be it with a nested schema around it. -/
def Declared.isExcluded (d : Declared) : Bool :=
  (d.field.traits :: d.around).any FieldTraits.excluded

private theorem Declared.isExcluded_of_isTracked {options : DiffOptions} {d : Declared}
    (h : d.isTracked options = true) : d.isExcluded = false := by
  rw [isTracked, List.all_eq_true] at h
  refine List.any_eq_false.mpr fun t ht => ?_
  have htracked := h t ht
  simp only [FieldTraits.isTracked, Bool.and_eq_true, Bool.not_eq_true'] at htracked
  simp [htracked.1.1]

/-- The field is a collection with an id and with rows of a schema. -/
structure Declared.IsCollection (d : Declared) (id : String) (child : Schema) : Prop where
  named : d.field.id? = some id
  rows : d.field.rowSchema? = some child

private theorem Declared.IsCollection.exists_eq {d : Declared} {id : String} {child : Schema}
    (h : d.IsCollection id child) :
    ∃ t rows, d.field = .collection t child.fields child.traits rows ∧ t.id = some id := by
  obtain ⟨f, schema, around⟩ := d
  obtain ⟨hid, hrows⟩ := h
  cases f with
  | collection t fields traits rows =>
    cases hrows
    exact ⟨t, rows, rfl, hid⟩
  | _ => cases hrows

/-- Two different rows that stand in one place of a collection in two versions of a level. -/
def DifferentRows (u v : Json) (id : String) (row row' : Json) : Prop :=
  row ≠ row' ∧ ∃ n : Nat, (u.rows id)[n]? = some row ∧ (v.rows id)[n]? = some row'

/-- Two versions of the data of a level that differ in nothing but the values of excluded fields, on
the level itself or in rows that stand in one place of a collection. -/
inductive DifferInExcluded : Schema → Json → Json → Prop where
  | intro {s : Schema} {u v : Json}
      (hobjects : u = v ∨ u.members?.isSome = true ∧ v.members?.isSome = true)
      (hundeclared : ∀ key, (∀ d ∈ s.declared, d.field.id? ≠ some key) → u.get? key = v.get? key)
      (hscalars : ∀ d ∈ s.declared, d.isExcluded = false → d.field.rowSchema? = none →
        ∀ id, d.field.id? = some id → u.get? id = v.get? id)
      (hrows : ∀ d ∈ s.declared, d.isExcluded = false → ∀ id child, d.IsCollection id child →
        u.get? id = v.get? id ∨ ∃ rows rows', u.get? id = some (.array rows) ∧
          v.get? id = some (.array rows') ∧ rows.length = rows'.length)
      (hbelow : ∀ d ∈ s.declared, d.isExcluded = false → ∀ id child, d.IsCollection id child →
        ∀ row row', DifferentRows u v id row row' → DifferInExcluded child row row') :
      DifferInExcluded s u v

/-- Two versions of a row are reported by their changes against an older one: both have its
identity, which is that of no other older row, and one value of the id attribute. Only where nothing
has changed there need be none. -/
structure ReportedByChanges (options : DiffOptions) (child : Schema) (before : List Json)
    (old row row' : Json) : Prop where
  distinct : (before.filterMap RowId.of?).Nodup
  older : RowDiff.version? before row = some old
  named : (RowId.of? row).isSome = true
  name : RowId.of? row' = RowId.of? row
  idAttribute : row'.get? child.traits.idAttribute = row.get? child.traits.idAttribute
  reduced : (row.get? child.traits.idAttribute).isSome = true ∨
    Level.changes options ⟨child, false, old, row⟩ = []

/-- Two versions of the data of a level do not differ in what a change set takes as a whole from the
tracked collections. When a document is edited, that is every row that is not reported by its
changes. Otherwise it is every collection that has changed, and whether it has. -/
inductive WholesKept (options : DiffOptions) : Schema → Json → Json → Json → Prop where
  | edit {s : Schema} {original u v : Json} (hmode : options.mode = .edit)
      (hrows : ∀ d ∈ s.declared, d.isTracked options = true → ∀ id child, d.IsCollection id child →
        ∀ row row', DifferentRows u v id row row' →
          ∃ old, ReportedByChanges options child (original.rows id) old row row')
      (hbelow : ∀ d ∈ s.declared, d.isTracked options = true → ∀ id child, d.IsCollection id child →
        ∀ old row row', DifferentRows u v id row row' →
          ReportedByChanges options child (original.rows id) old row row' →
          WholesKept options child old row row') :
      WholesKept options s original u v
  | whole {s : Schema} {original u v : Json} (hmode : options.mode ≠ .edit)
      (hcollections : ∀ d ∈ s.declared, d.isTracked options = true →
        ∀ (t : FieldTraits) (id : String) (child : Schema) (traits : CollectionTraits),
        d.field = .collection t child.fields child.traits traits → t.id = some id →
        let changed (doc : Json) : Bool :=
          collectionChanged options.mode d.schema.traits t traits id original doc
        changed u = changed v ∧ (changed u = true → u.get? id = v.get? id)) :
      WholesKept options s original u v

section Collection

variable {options : DiffOptions} {atTop : Bool} {original u v : Json} {schema : SchemaTraits}
  {t : FieldTraits} {child : Schema} {traits : CollectionTraits} {id : String}

/-- The entry of a row among the changed rows, if it has an older version and changes. -/
def entryOf? (options : DiffOptions) (child : Schema) (before : List Json) (row : Json) :
    Option Json :=
  (RowDiff.counterpart? before row).bind fun old => rowReport? options child old row

private theorem fieldReports_edited (hedit : options.mode = .edit) (hid : t.id = some id)
    (hdistinct : ((original.rows id).filterMap RowId.of?).Nodup) (current : Json) :
    fieldReports options schema atTop original current
      (.collection t child.fields child.traits traits) =
    partitions options atTop id (RowDiff.of (original.rows id) (current.rows id))
      ((current.rows id).filterMap (entryOf? options child (original.rows id))) := by
  have hchanged := RowDiff.filterMap_changed (original.rows id) (current.rows id)
    fun old row halike => rowReport?_of_alike hedit child halike
  unfold entryOf?
  rw [← hchanged]
  simp only [fieldReports, hid, hedit, if_true, rowReport?_eq]
  split
  · rename_i hsame
    rw [RowDiff.of_same (Json.rows_same hsame) hdistinct]
    rfl
  · rfl

private theorem ReportedByChanges.rowReport?_eq {before : List Json} {old row row' : Json}
    (h : ReportedByChanges options child before old row row')
    (hlevel : levelReports options child.traits false old row child.fields =
      levelReports options child.traits false old row' child.fields) :
    rowReport? options child old row = rowReport? options child old row' := by
  have hchanges : Level.changes options ⟨child, false, old, row'⟩ =
      Level.changes options ⟨child, false, old, row⟩ := by rw [Level.changes, Level.changes, hlevel]
  rw [rowReport?, rowReport?, hchanges]
  rcases h.reduced with hattribute | hnone
  · obtain ⟨value, hvalue⟩ := Option.isSome_iff_exists.mp hattribute
    have hvalue' := h.idAttribute.trans hvalue
    simp only [changedRow, hvalue, hvalue']
  · rw [hnone]
    rfl

private theorem ReportedByChanges.inPlace {before : List Json} {old row row' : Json}
    (h : ReportedByChanges options child before old row row') :
    RowDiff.InPlace before row row' :=
  .inr ⟨h.named, h.name, by rw [h.older, Option.isSome_some]⟩

private theorem ReportedByChanges.entryOf?_eq {before : List Json} {old row row' : Json}
    (h : ReportedByChanges options child before old row row')
    (hlevel : levelReports options child.traits false old row child.fields =
      levelReports options child.traits false old row' child.fields) :
    entryOf? options child before row = entryOf? options child before row' := by
  have holder := (RowDiff.counterpart?_of_named h.named).trans h.older
  rw [entryOf?, entryOf?, h.inPlace.counterpart?_eq, holder, Option.bind_some, Option.bind_some,
    h.rowReport?_eq hlevel]

private theorem forall₂_differentRows (hlength : (u.rows id).length = (v.rows id).length) :
    List.Forall₂ (fun row row' => row = row' ∨ DifferentRows u v id row row') (u.rows id)
      (v.rows id) := by
  refine List.forall₂_of_length_eq_of_get hlength fun n hn hn' => ?_
  by_cases hrow : (u.rows id).get ⟨n, hn⟩ = (v.rows id).get ⟨n, hn'⟩
  · exact .inl hrow
  · exact .inr ⟨hrow, n, List.getElem?_eq_getElem hn, List.getElem?_eq_getElem hn'⟩

private theorem rows_of_arrays (h : u.get? id = v.get? id ∨
      ∃ rows rows', u.get? id = some (.array rows) ∧ v.get? id = some (.array rows') ∧
        rows.length = rows'.length) :
    (u.rows id).length = (v.rows id).length ∧ (u.get? id = v.get? id ∨ u.rows id ≠ v.rows id) := by
  rcases h with hsame | ⟨rows, rows', hrows, hrows', hlength⟩
  · exact ⟨by rw [Json.rows, Json.rows, hsame], .inl hsame⟩
  · have hu : u.rows id = rows := by rw [Json.rows, hrows]; rfl
    have hv : v.rows id = rows' := by rw [Json.rows, hrows']; rfl
    rw [hu, hv, hrows, hrows']
    refine ⟨hlength, (em (rows = rows')).imp_left fun hequal => ?_⟩
    rw [hequal]

/-- Two versions of a collection report the same when it is edited, if all rows in which they differ
are reported by their changes, and by the same ones. -/
private theorem fieldReports_edited_eq (hedit : options.mode = .edit) (hid : t.id = some id)
    (hlength : (u.rows id).length = (v.rows id).length)
    (hdiffer : u.get? id = v.get? id ∨ u.rows id ≠ v.rows id)
    (hrows : ∀ row row', DifferentRows u v id row row' →
      ∃ old, ReportedByChanges options child (original.rows id) old row row' ∧
        levelReports options child.traits false old row child.fields =
          levelReports options child.traits false old row' child.fields) :
    fieldReports options schema atTop original u
        (.collection t child.fields child.traits traits) =
      fieldReports options schema atTop original v
        (.collection t child.fields child.traits traits) := by
  rcases hdiffer with hsame | hdiffer
  · simp only [fieldReports, hid, hedit, if_true, Json.rows, hsame]
  have hplaces : List.Forall₂ (fun row row' => row = row' ∨ DifferentRows u v id row row') _ _ :=
    forall₂_differentRows hlength
  have hdistinct : ((original.rows id).filterMap RowId.of?).Nodup := by
    by_contra htwice
    refine hdiffer (List.forall₂_eq_eq_eq ▸ hplaces.imp fun row row' hplace => ?_)
    refine hplace.resolve_right fun hdifferent => ?_
    obtain ⟨old, hreported, -⟩ := hrows row row' hdifferent
    exact htwice hreported.distinct
  have hinPlace : List.Forall₂ (RowDiff.InPlace (original.rows id)) (u.rows id) (v.rows id) := by
    refine hplaces.imp fun row row' hplace => ?_
    rcases hplace with rfl | hdifferent
    · exact .inl rfl
    · obtain ⟨old, hreported, -⟩ := hrows row row' hdifferent
      exact hreported.inPlace
  have hentries : (u.rows id).filterMap (entryOf? options child (original.rows id)) =
      (v.rows id).filterMap (entryOf? options child (original.rows id)) := by
    refine RowDiff.filterMap_eq_of_forall₂ (hplaces.imp fun row row' hplace => ?_)
    rcases hplace with rfl | hdifferent
    · rfl
    · obtain ⟨old, hreported, hlevel⟩ := hrows row row' hdifferent
      exact hreported.entryOf?_eq hlevel
  rw [fieldReports_edited hedit hid hdistinct, fieldReports_edited hedit hid hdistinct, hentries,
    partitions, partitions, RowDiff.added_eq hinPlace, RowDiff.removed_eq hinPlace]

private theorem fieldReports_whole_eq (hwhole : options.mode ≠ .edit) (hid : t.id = some id)
    (hchanged : collectionChanged options.mode schema t traits id original u =
      collectionChanged options.mode schema t traits id original v)
    (hequal : collectionChanged options.mode schema t traits id original u = true →
      u.get? id = v.get? id) :
    fieldReports options schema atTop original u
        (.collection t child.fields child.traits traits) =
      fieldReports options schema atTop original v
        (.collection t child.fields child.traits traits) := by
  rw [fieldReports, fieldReports, hid]
  simp only [hwhole, if_false, ← hchanged]
  split
  · rename_i hreported
    rw [hequal hreported]
  · rfl

end Collection

private theorem levelReports_eq_of_differInExcluded {options : DiffOptions} {s : Schema}
    {u v : Json} (hdiffer : DifferInExcluded s u v) {original : Json}
    (hkept : WholesKept options s original u v) (atTop : Bool) :
    levelReports options s.traits atTop original u s.fields =
      levelReports options s.traits atTop original v s.fields := by
  induction hdiffer generalizing original atTop with
  | @intro s u v _ _ hscalars hcollections _ ih =>
    rw [levelReports_eq_flatMap_declared, levelReports_eq_flatMap_declared]
    refine List.flatMap_congr fun d hd => ?_
    rw [Declared.reports, Declared.reports]
    split
    case isFalse => rfl
    rename_i htracked
    have hdata := isData_of_mem_declared hd
    have hincluded := Declared.isExcluded_of_isTracked htracked
    cases hid : d.field.id? with
    | none => rw [fieldReports_unnamed hdata hid, fieldReports_unnamed hdata hid]
    | some id =>
      cases hrows : d.field.rowSchema? with
      | none =>
        rw [fieldReports_scalar hdata hrows hid, fieldReports_scalar hdata hrows hid,
          hscalars d hd hincluded hrows id hid]
      | some child =>
        have hcollection : d.IsCollection id child := ⟨hid, hrows⟩
        obtain ⟨t, traits, hfield, ht⟩ := hcollection.exists_eq
        cases hkept with
        | edit hedit hreported hbelow =>
          obtain ⟨hlength, hdifferent⟩ :=
            rows_of_arrays (hcollections d hd hincluded id child hcollection)
          rw [hfield]
          refine fieldReports_edited_eq hedit ht hlength hdifferent fun row row' hrow => ?_
          obtain ⟨old, hold⟩ := hreported d hd htracked id child hcollection row row' hrow
          have hbelow := hbelow d hd htracked id child hcollection old row row' hrow hold
          exact ⟨old, hold, ih d hd hincluded id child hcollection row row' hrow hbelow false⟩
        | whole hwhole hkept =>
          obtain ⟨hchanged, hequal⟩ := hkept d hd htracked t id child traits hfield ht
          rw [hfield]
          exact fieldReports_whole_eq hwhole ht hchanged hequal

end Diff

open Diff

/-- Excluded fields do not influence the change set, apart from rows that are compared or handed
over as a whole: two documents that differ in nothing but excluded values, at whatever depth, have
one change set against every original document, as long as they do not differ in such a row. -/
theorem Schema.diff_eq_of_differInExcluded {s : Schema} {options : DiffOptions}
    {original u v : Json} (hdiffer : DifferInExcluded s u v)
    (hkept : WholesKept options s original u v) :
    s.diff options original u = s.diff options original v := by
  rw [Schema.diff, Schema.diff, levelReports_eq_of_differInExcluded hdiffer hkept true]

namespace Diff

private def secretField : Field :=
  .input { FieldTraits.plain with id := some "secret", excluded := true } .text

private def noteField : Field := .input { FieldTraits.plain with id := some "note" } .text

private def entrySchema (traits : SchemaTraits) : Schema := ⟨[noteField, secretField], traits⟩

private def entriesField (traits : SchemaTraits) (attrs : Dictionary Expr) : Field :=
  .collection { FieldTraits.plain with id := some "entries", attrs := attrs }
    (entrySchema traits).fields traits ⟨[], none, none⟩

private def diarySchema (traits : SchemaTraits) (attrs : Dictionary Expr) : Schema :=
  ⟨[secretField, entriesField traits attrs], .plain⟩

private def withSecret (members : Dictionary Json) (secret : String) : Json :=
  .object (Dictionary.insert members "secret" (.text secret))

private def diary (secret : String) (entries : List Json) : Json :=
  withSecret [("entries", .array entries)] secret

private theorem get?_withSecret {members : Dictionary Json} {secret key : String}
    (hkey : key ≠ "secret") :
    (withSecret members secret).get? key = Dictionary.get? members key := by
  rw [withSecret, Json.get?, Dictionary.get?_insert, if_neg (Ne.symm hkey)]

private theorem mem_declared_entry {traits : SchemaTraits} {d : Declared} :
    d ∈ (entrySchema traits).declared ↔
      d = ⟨noteField, entrySchema traits, []⟩ ∨ d = ⟨secretField, entrySchema traits, []⟩ := by
  have hdeclared : (entrySchema traits).declared =
    [⟨noteField, entrySchema traits, []⟩, ⟨secretField, entrySchema traits, []⟩] := rfl
  rw [hdeclared, List.mem_pair]

private theorem mem_declared_diary {traits : SchemaTraits} {attrs : Dictionary Expr}
    {d : Declared} : d ∈ (diarySchema traits attrs).declared ↔
      d = ⟨secretField, diarySchema traits attrs, []⟩ ∨
        d = ⟨entriesField traits attrs, diarySchema traits attrs, []⟩ := by
  have hdeclared : (diarySchema traits attrs).declared =
    [⟨secretField, diarySchema traits attrs, []⟩,
      ⟨entriesField traits attrs, diarySchema traits attrs, []⟩] := rfl
  rw [hdeclared, List.mem_pair]

private theorem not_isCollection_entry {traits : SchemaTraits} {d : Declared}
    (hd : d ∈ (entrySchema traits).declared) {id : String} {child : Schema} :
    ¬ d.IsCollection id child := by
  intro hchild
  rcases mem_declared_entry.mp hd with rfl | rfl <;> cases hchild.rows

private theorem differInExcluded_entry (traits : SchemaTraits) (members : Dictionary Json)
    (secret secret' : String) : DifferInExcluded (entrySchema traits)
      (withSecret members secret) (withSecret members secret') := by
  refine .intro (.inr ⟨rfl, rfl⟩) (fun key hkey => ?_) (fun d hd hincluded _ id hid => ?_)
    (fun d hd _ id child hchild => absurd hchild (not_isCollection_entry hd))
    fun d hd _ id child hchild => absurd hchild (not_isCollection_entry hd)
  · have hother : key ≠ "secret" := by
      rintro rfl
      exact hkey _ (mem_declared_entry.mpr (.inr rfl)) rfl
    rw [get?_withSecret hother, get?_withSecret hother]
  · rcases mem_declared_entry.mp hd with rfl | rfl
    · cases hid
      rw [get?_withSecret (by decide), get?_withSecret (by decide)]
    · cases hincluded

private theorem differInExcluded_diary (traits : SchemaTraits) (attrs : Dictionary Expr)
    (secret secret' : String) (entries : List (Dictionary Json × String × String)) :
    DifferInExcluded (diarySchema traits attrs)
      (diary secret (entries.map fun e => withSecret e.1 e.2.1))
      (diary secret' (entries.map fun e => withSecret e.1 e.2.2)) := by
  have hentries (secret : String) (entries : List Json) :
      (diary secret entries).get? "entries" = some (.array entries) := get?_withSecret (by decide)
  refine .intro (.inr ⟨rfl, rfl⟩) (fun key hkey => ?_) (fun d hd hincluded hscalar _ _ => ?_)
    (fun d hd hincluded id child hchild => ?_)
    fun d hd hincluded id child hchild row row' hrow => ?_
  · have hsecret : key ≠ "secret" := by
      rintro rfl
      exact hkey _ (mem_declared_diary.mpr (.inl rfl)) rfl
    have hcollection : key ≠ "entries" := by
      rintro rfl
      exact hkey _ (mem_declared_diary.mpr (.inr rfl)) rfl
    rw [diary, diary, get?_withSecret hsecret, get?_withSecret hsecret, Dictionary.get?_cons,
      Dictionary.get?_cons, if_neg (Ne.symm hcollection), if_neg (Ne.symm hcollection)]
  · rcases mem_declared_diary.mp hd with rfl | rfl
    · cases hincluded
    · cases hscalar
  · rcases mem_declared_diary.mp hd with rfl | rfl
    · cases hincluded
    · cases hchild.named
      refine .inr ⟨_, _, hentries _ _, hentries _ _, ?_⟩
      rw [List.length_map, List.length_map]
  · rcases mem_declared_diary.mp hd with rfl | rfl
    · cases hincluded
    · cases hchild.named
      cases hchild.rows
      obtain ⟨-, n, hn, hn'⟩ := hrow
      have hat (secret : String) (entries : List Json) :
          (diary secret entries).rows "entries" = entries := by rw [Json.rows, hentries]; rfl
      rw [hat, List.getElem?_map] at hn hn'
      obtain ⟨e, he, rfl⟩ := Option.map_eq_some_iff.mp hn
      rw [he] at hn'
      cases hn'
      exact differInExcluded_entry traits e.1 e.2.1 e.2.2

end Diff

/-- The secret of a diary and of its only entry is changed, and with it the note of the entry, which
is known by its id attribute. When a diary is made, only its own secret may be another. -/
theorem Schema.diff_eq_of_differInExcluded_diary :
    let s := diarySchema .plain []
    let options (mode : Mode) : DiffOptions := ⟨mode, false, false, false⟩
    let entry (note secret : String) : Json :=
      withSecret [("cid", .text "nn1"), ("note", .text note), ("oid", .ofNat 7)] secret
    let original := diary "p" [entry "x" "a"]
    let u := diary "p" [entry "y" "a"]
    let v := diary "q" [entry "y" "b"]
    let w := diary "q" [entry "y" "a"]
    (DifferInExcluded s u v ∧ WholesKept (options .edit) s original u v ∧ u ≠ v ∧
      s.diff (options .edit) original u = [("entries", .ofPairs [
        ("changed", .array [.ofPairs [("note", .text "y"), ("oid", .ofNat 7)]])])] ∧
      s.diff (options .edit) original u = s.diff (options .edit) original v) ∧
    DifferInExcluded s u w ∧ WholesKept (options .create) s original u w ∧ u ≠ w ∧
      s.diff (options .create) original u = s.diff (options .create) original w := by
  intro s options entry original u v w
  let members : Dictionary Json := [("cid", .text "nn1"), ("note", .text "y"), ("oid", .ofNat 7)]
  have hdiffer : DifferInExcluded s u v :=
    differInExcluded_diary .plain [] "p" "q" [(members, "a", "b")]
  have hdiffer' : DifferInExcluded s u w :=
    differInExcluded_diary .plain [] "p" "q" [(members, "a", "a")]
  have hreported : ReportedByChanges (options .edit) (entrySchema .plain) [entry "x" "a"]
      (entry "x" "a") (entry "y" "a") (entry "y" "b") :=
    ⟨by decide +kernel, by decide +kernel, by decide +kernel, by decide +kernel, by decide +kernel,
      .inl (by decide +kernel)⟩
  have hrows (row row' : Json) (h : DifferentRows u v "entries" row row') :
      row = entry "y" "a" ∧ row' = entry "y" "b" := by
    obtain ⟨-, n, hn, hn'⟩ := h
    have hu : u.rows "entries" = [entry "y" "a"] := by decide +kernel
    have hv : v.rows "entries" = [entry "y" "b"] := by decide +kernel
    rw [hu] at hn
    rw [hv] at hn'
    cases n with
    | zero => exact ⟨(Option.some.inj hn).symm, (Option.some.inj hn').symm⟩
    | succ n => cases hn
  have hkept : WholesKept (options .edit) s original u v := by
    refine .edit rfl (fun d hd htracked id child hchild row row' hrow => ?_)
      fun d hd htracked id child hchild old row row' _ _ => ?_
    · rcases mem_declared_diary.mp hd with rfl | rfl
      · cases htracked
      · cases hchild.named
        cases hchild.rows
        obtain ⟨rfl, rfl⟩ := hrows row row' hrow
        exact ⟨_, hreported⟩
    · rcases mem_declared_diary.mp hd with rfl | rfl
      · cases htracked
      · cases hchild.rows
        exact .edit rfl (fun d hd _ id child hchild => absurd hchild (not_isCollection_entry hd))
          fun d hd _ id child hchild => absurd hchild (not_isCollection_entry hd)
  have hkept' : WholesKept (options .create) s original u w := by
    refine .whole (by decide) fun d hd _ t id child traits hfield hid => ?_
    rcases mem_declared_diary.mp hd with rfl | rfl
    · cases hfield
    · obtain ⟨rfl, -, -, rfl⟩ := Field.collection.inj hfield
      cases hid
      exact ⟨by decide +kernel, fun _ => by decide +kernel⟩
  exact ⟨⟨hdiffer, hkept, by decide +kernel, by decide +kernel,
    diff_eq_of_differInExcluded hdiffer hkept⟩, hdiffer', hkept', by decide +kernel,
    diff_eq_of_differInExcluded hdiffer' hkept'⟩

/-- Each of the conditions is needed. A collection that is handed over as a whole brings the secrets
of its rows into the change set, and is itself brought into it by a secret that tells whether it may
be reordered. When a document is edited, secrets come in with a new row, with a changed row that has
no id attribute or has the secret for it, and where two older rows have one identity. -/
theorem Schema.diff_ne_of_differInExcluded :
    let entry (cid note secret : String) : Json :=
      withSecret [("cid", .text cid), ("note", .text note)] secret
    let influences (s : Schema) (mode : Mode) (original u v : Json) : Prop :=
      let options : DiffOptions := ⟨mode, false, false, false⟩
      DifferInExcluded s u v ∧ s.diff options original u ≠ s.diff options original v
    let reorders : Dictionary Expr :=
      [("canReorder", .computed fun ctx => (ctx.value.get? "secret").getD .null)]
    influences (diarySchema .plain []) .create (diary "p" [entry "nn1" "x" "a"])
      (diary "p" [entry "nn1" "x" "a"]) (diary "p" [entry "nn1" "x" "b"]) ∧
    influences (diarySchema .plain reorders) .create
      (diary "" [entry "nn1" "x" "a", entry "nn2" "y" "a"])
      (diary "" [entry "nn2" "y" "a", entry "nn1" "x" "a"])
      (diary "p" [entry "nn2" "y" "a", entry "nn1" "x" "a"]) ∧
    influences (diarySchema .plain []) .edit (diary "p" [])
      (diary "p" [entry "nn1" "x" "a"]) (diary "p" [entry "nn1" "x" "b"]) ∧
    influences (diarySchema .plain []) .edit (diary "p" [entry "nn1" "x" "a"])
      (diary "p" [entry "nn1" "y" "a"]) (diary "p" [entry "nn1" "y" "b"]) ∧
    influences (diarySchema { SchemaTraits.plain with idAttribute := "secret" } []) .edit
      (diary "p" [entry "nn1" "x" "a"])
      (diary "p" [entry "nn1" "y" "a"]) (diary "p" [entry "nn1" "y" "b"]) ∧
    influences (diarySchema .plain []) .edit
      (diary "p" [entry "nn1" "x" "a", entry "nn1" "y" "a"])
      (diary "p" [entry "nn1" "x" "a", entry "nn1" "y" "a"])
      (diary "p" [entry "nn1" "x" "b", entry "nn1" "y" "a"]) := by
  intro entry influences reorders
  let named (cid note : String) : Dictionary Json := [("cid", .text cid), ("note", .text note)]
  refine ⟨⟨?_, by decide +kernel⟩, ⟨?_, by decide +kernel⟩, ⟨?_, by decide +kernel⟩,
    ⟨?_, by decide +kernel⟩, ⟨?_, by decide +kernel⟩, ⟨?_, by decide +kernel⟩⟩
  · exact differInExcluded_diary _ _ _ _ [(named "nn1" "x", "a", "b")]
  · exact differInExcluded_diary _ _ _ _
      [(named "nn2" "y", "a", "a"), (named "nn1" "x", "a", "a")]
  · exact differInExcluded_diary _ _ _ _ [(named "nn1" "x", "a", "b")]
  · exact differInExcluded_diary _ _ _ _ [(named "nn1" "y", "a", "b")]
  · exact differInExcluded_diary _ _ _ _ [(named "nn1" "y", "a", "b")]
  · exact differInExcluded_diary _ _ _ _
      [(named "nn1" "x", "a", "b"), (named "nn1" "y", "a", "a")]

end SchemaForm
