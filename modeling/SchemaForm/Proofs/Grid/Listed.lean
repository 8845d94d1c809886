import SchemaForm.Proofs.Form.Listeners
import SchemaForm.Proofs.Grid.Finding
import SchemaForm.Proofs.Path.Place
import SchemaForm.Proofs.Path.Parsing
import SchemaForm.Run

set_option autoImplicit false
set_option relaxedAutoImplicit false

/-!
A run shows each collection it lists as a grid, at the path its id reads as. Which ids lead back to
their collection that way, and which runs end for lack of one.
-/

namespace SchemaForm

namespace Path

/-- Text that reads as the path of one member, under that very name: it is not empty, has no dot and
is no numeral. -/
def IsOneKey (id : String) : Prop :=
  id ≠ "" ∧ '.' ∉ id.toList ∧ Segment.index? id.toList = none

instance (id : String) : Decidable (IsOneKey id) :=
  inferInstanceAs (Decidable (id ≠ "" ∧ '.' ∉ id.toList ∧ Segment.index? id.toList = none))

private theorem segments_parse_of_isOneKey {id : String} (hid : IsOneKey id) :
    (parse id).segments = [.key id] := by
  obtain ⟨hne, hdot, hnumeral⟩ := hid
  simp [parse, hne, splitAtDots_of_free hdot, Segment.ofChars, hnumeral]

private theorem isOneKey_of_getLast? {id : String}
    (hlast : (parse id).segments.getLast? = some (.key id)) : IsOneKey id := by
  have hmem : Segment.key id ∈ (parse id).segments := List.mem_of_getLast? hlast
  refine ⟨?_, (isRead_parse id).keys id hmem⟩
  rintro rfl
  cases hmem

end Path

namespace Run

mutual

private theorem mem_fieldCollectionIds {id : String} : (f : Field) →
    (id ∈ fieldCollectionIds f ↔
      ∃ c : CollectionField, c.field ∈ f.spread ∧ c.traits.id = some id)
  | .nested t style fields schema => by
    simp [fieldCollectionIds, Field.spread, mem_collectionIds fields, CollectionField.field]
  | .input t kind => by simp [fieldCollectionIds, Field.spread, CollectionField.field]
  | .group t inline => by simp [fieldCollectionIds, Field.spread, CollectionField.field]
  | .collection t fields schema rows => by
    constructor
    · intro hid
      exact ⟨⟨t, fields, schema, rows⟩, List.mem_singleton_self _, by
        simpa [fieldCollectionIds] using hid⟩
    · rintro ⟨c, hc, hid⟩
      obtain ⟨rfl, -⟩ : c.traits = t ∧ _ := by
        simpa [Field.spread, CollectionField.field] using hc
      simpa [fieldCollectionIds] using hid

private theorem mem_collectionIds {id : String} : (fields : List Field) →
    (id ∈ collectionIds fields ↔
      ∃ c : CollectionField, c.field ∈ Field.spreadAll fields ∧ c.traits.id = some id)
  | [] => by simp [collectionIds, Field.spreadAll]
  | f :: rest => by
    simp only [collectionIds, Field.spreadAll, List.mem_append, mem_fieldCollectionIds f,
      mem_collectionIds rest, or_and_right, exists_or]

end

end Run

/-- The first field of the level with the id is a collection. -/
def Schema.StartsCollection (s : Schema) (id : String) : Prop :=
  ∃ c : CollectionField, (Field.spreadAll s.fields).find? (fun f => f.id? == some id) = some c.field

namespace Grid

/-- The grid shows a collection of the level that has the id. -/
def Shows (g : Grid) (s : Schema) (id : String) : Prop :=
  g.collection.field ∈ Field.spreadAll s.fields ∧ g.collection.traits.id = some id ∧
    g.label = g.collection.traits.displayLabel

private theorem ofPath_eq_ok_iff {s : Schema} {p : Path} {r : FeatureRegistry} :
    (∃ g, ofPath s p r = .ok g) ↔ ∃ c, CollectionField.find? s.fields p.segments = some c := by
  unfold ofPath
  cases CollectionField.find? s.fields p.segments <;> simp

private theorem collection_of_ofPath {s : Schema} {p : Path} {r : FeatureRegistry} {g : Grid}
    (hg : ofPath s p r = .ok g) :
    CollectionField.find? s.fields p.segments = some g.collection := by
  unfold ofPath at hg
  split at hg
  · rename_i c hfind
    cases hg
    exact hfind
  · cases hg

/-- A listed id leads back to its collection just when it reads as one key and no other field of the
level comes first under it. -/
private theorem shows_parse_iff (s : Schema) (r : FeatureRegistry) (id : String) :
    (∃ g, ofPath s (.parse id) r = .ok g ∧ g.Shows s id) ↔
      Path.IsOneKey id ∧ s.StartsCollection id := by
  constructor
  · rintro ⟨g, hg, -, hid, -⟩
    have hfind := collection_of_ofPath hg
    obtain ⟨last, hlast, hid'⟩ := CollectionField.getLast?_of_find? hfind
    have hone : Path.IsOneKey id := by
      refine Path.isOneKey_of_getLast? ?_
      rw [hlast, Option.some.inj (hid'.symm.trans hid)]
    rw [Path.segments_parse_of_isOneKey hone, CollectionField.find?] at hfind
    obtain ⟨f, hfirst, hf⟩ := Option.bind_eq_some_iff.mp hfind
    refine ⟨hone, g.collection, ?_⟩
    rw [← CollectionField.fieldAmong?_eq, hfirst, CollectionField.ofField?_eq_some_iff.mp hf]
  · rintro ⟨hone, c, hfirst⟩
    rw [← CollectionField.fieldAmong?_eq] at hfirst
    have hfind : CollectionField.find? s.fields (Path.parse id).segments = some c := by
      rw [Path.segments_parse_of_isOneKey hone, CollectionField.find?, hfirst, Option.bind_some]
      exact CollectionField.ofField?_eq_some_iff.mpr rfl
    obtain ⟨g, hg⟩ := (ofPath_eq_ok_iff (r := r)).mpr ⟨c, hfind⟩
    have hcollection : g.collection = c :=
      Option.some.inj ((collection_of_ofPath hg).symm.trans hfind)
    obtain ⟨hmem, hid⟩ := CollectionField.field_id?_of_fieldAmong? hfirst
    exact ⟨g, hg, hcollection ▸ hmem, hcollection ▸ hid, rfl⟩

end Grid

private theorem Schema.startsCollection_of_nodup {s : Schema} {id : String}
    (hunique : ((Field.spreadAll s.fields).filterMap Field.id?).Nodup)
    (hlisted : id ∈ Run.collectionIds s.fields) : s.StartsCollection id := by
  obtain ⟨c, hc, hid⟩ := (Run.mem_collectionIds s.fields).mp hlisted
  obtain ⟨before, after, hsplit⟩ := List.append_of_mem hc
  have hfield : c.field.id? = some id := hid
  rw [hsplit, List.filterMap_append, List.filterMap_cons_some hfield, List.nodup_middle,
    List.nodup_cons] at hunique
  have hbefore : before.find? (fun f => f.id? == some id) = none := by
    rw [List.find?_eq_none]
    intro f hf hsame
    refine hunique.1 (List.mem_append_left _ (List.mem_filterMap.mpr ⟨f, hf, ?_⟩))
    simpa using hsame
  refine ⟨c, ?_⟩
  rw [hsplit, List.find?_append, hbefore, Option.none_or, List.find?_cons, hfield, beq_self_eq_true]

namespace Run

private theorem exists_of_showGrids_grid {c : CommandLine} {f : Form} {ids : List String}
    {t : FileTree} {e : NotACollection} (hshown : (showGrids c f ids t).1 = .error (.grid e)) :
    ∃ id ∈ ids, Grid.ofPath f.schema (.parse id) .builtin = .error e := by
  induction ids generalizing t with
  | nil => cases hshown
  | cons id rest ih =>
    unfold showGrids at hshown
    split at hshown
    · rename_i e' hgrid
      cases hshown
      exact ⟨id, List.mem_cons_self, hgrid⟩
    · dsimp only at hshown
      split at hshown
      · cases hshown
      · rename_i t' _
        cases hrest : (showGrids c f rest t').1 with
        | ok reports => simp [hrest, Except.map] at hshown
        | error e' =>
          have hsame : e' = .grid e := by simpa [hrest, Except.map] using hshown
          obtain ⟨other, hother, hgrid⟩ := ih (hsame ▸ hrest)
          exact ⟨other, List.mem_cons_of_mem id hother, hgrid⟩

/-- Without an export, showing grids fails at the first id that leads to no collection. -/
private theorem showGrids_grid_of_mem {c : CommandLine} (hcsv : c.exportCsv = none) {f : Form}
    {ids : List String} {id : String} (hid : id ∈ ids) {e : NotACollection}
    (hgrid : Grid.ofPath f.schema (.parse id) .builtin = .error e) (t : FileTree) :
    ∃ e, (showGrids c f ids t).1 = .error (.grid e) := by
  induction ids with
  | nil => cases hid
  | cons first rest ih =>
    unfold showGrids
    cases hfirst : Grid.ofPath f.schema (.parse first) .builtin with
    | error e' => exact ⟨e', rfl⟩
    | ok g =>
      have hrest : id ∈ rest := by
        rcases List.mem_cons.mp hid with rfl | hrest
        · rw [hgrid] at hfirst
          cases hfirst
        · exact hrest
      obtain ⟨e', he'⟩ := ih hrest
      refine ⟨e', ?_⟩
      simp [hcsv, he', Except.map]

private theorem schema_of_form {c : CommandLine} {settings : Settings} {t : FileTree} {ids : RowIds}
    {s : Schema} {f : Form} (hschema : t.readSchema c.schema = .ok s)
    (hform : form c settings t ids = .ok f) : f.schema = s := by
  unfold form at hform
  simp only [hschema] at hform
  cases hscript : c.script.elim (.ok []) t.readScript with
  | error e => simp [hscript] at hform
  | ok actions =>
    simp only [hscript] at hform
    split at hform
    · cases hform
    · rename_i loaded hloaded
      cases hform
      let start := Form.start s (c.view settings) .builtin .empty ids
      have hrun : loaded.applyDeferred.2 = start.run (actions.map .dispatch ++
          [.initialise false (c.data.map t.load), .settleDeferred .byDelay]) := by
        have hdispatched : start.run (actions.map .dispatch) = actions.foldl Form.dispatch start :=
          List.foldl_map
        have hinitialised :
            (actions.foldl Form.dispatch start).initialised false (c.data.map t.load) = loaded := by
          rw [Form.initialised, hloaded]
        rw [Form.run_append, hdispatched, Form.run_cons, Form.run_cons, Form.run_nil, Form.perform,
          hinitialised]
        rfl
      rw [hrun]
      exact (Form.reaches_run start _).schema_eq

private theorem form_ne_grid (c : CommandLine) (settings : Settings) (t : FileTree) (ids : RowIds)
    (e : NotACollection) : form c settings t ids ≠ .error (.grid e) := by
  intro hform
  unfold form at hform
  split at hform
  · cases hform
  · split at hform
    · cases hform
    · dsimp only at hform
      split at hform <;> cases hform

private theorem save_ne_grid (c : CommandLine) (f : Form) (t : FileTree) (e : NotACollection) :
    (save c f t).2.1 ≠ .error (.grid e) := by
  intro hsaved
  unfold save at hsaved
  split at hsaved
  · cases hsaved
  · dsimp only at hsaved
    split at hsaved <;> cases hsaved

/-- A run ends for lack of a collection just when there is a form whose grids do. -/
private theorem report_grid_iff {c : CommandLine} {settings : Settings} {t : FileTree}
    {ids : RowIds} {e : NotACollection} :
    (start c settings t ids).report = .error (.grid e) ↔
      ∃ f, form c settings t ids = .ok f ∧
        (showGrids c f (collectionIds f.schema.fields) t).1 = .error (.grid e) := by
  unfold start
  cases hform : form c settings t ids with
  | error e' =>
    have hother : e' ≠ .grid e := fun h => form_ne_grid c settings t ids e (h ▸ hform)
    simpa using hother
  | ok f =>
    simp only [Except.ok.injEq, exists_eq_left']
    cases hshown : showGrids c f (collectionIds f.schema.fields) t with
    | mk shown t' =>
      cases shown with
      | error e' => simp
      | ok grids =>
        have hsaved := save_ne_grid c f t' e
        cases hsave : save c f t' with
        | mk g rest =>
          obtain ⟨saved, t''⟩ := rest
          cases saved with
          | error e' => simpa [hsave] using hsaved
          | ok payload => simp [hsave]

/-- The id of a collection leads to its grid just when it reads as one key and the first field under
it is the collection, which where no two fields have one id is so for all that are listed. A run
whose collections all do never ends for lack of one, and without an export it ends so just when one
of them leads to no collection at all. -/
theorem listed_collections_shown (s : Schema) :
    (∀ r id, (∃ g, Grid.ofPath s (.parse id) r = .ok g ∧ g.Shows s id) ↔
      Path.IsOneKey id ∧ s.StartsCollection id) ∧
    (((Field.spreadAll s.fields).filterMap Field.id?).Nodup →
      ∀ id ∈ collectionIds s.fields, s.StartsCollection id) ∧
    ∀ c settings t ids, t.readSchema c.schema = .ok s →
      ((∀ id ∈ collectionIds s.fields, Path.IsOneKey id ∧ s.StartsCollection id) →
        ∀ e, (start c settings t ids).report ≠ .error (.grid e)) ∧
      ∀ f, form c settings t ids = .ok f → c.exportCsv = none →
        ((∃ e, (start c settings t ids).report = .error (.grid e)) ↔
          ∃ id ∈ collectionIds s.fields, ∃ e, Grid.ofPath s (.parse id) .builtin = .error e) := by
  refine ⟨fun r id => Grid.shows_parse_iff s r id,
    fun hunique id => Schema.startsCollection_of_nodup hunique, fun c settings t ids hschema => ?_⟩
  constructor
  · intro hlisted e hreport
    obtain ⟨f, hform, hshown⟩ := report_grid_iff.mp hreport
    obtain ⟨id, hid, hgrid⟩ := exists_of_showGrids_grid hshown
    rw [schema_of_form hschema hform] at hid hgrid
    obtain ⟨g, hg, -⟩ := (Grid.shows_parse_iff s .builtin id).mpr (hlisted id hid)
    rw [hg] at hgrid
    cases hgrid
  · intro f hform hcsv
    rw [← schema_of_form hschema hform]
    constructor
    · rintro ⟨e, hreport⟩
      obtain ⟨f', hform', hshown⟩ := report_grid_iff.mp hreport
      obtain rfl : f = f' := Except.ok.inj (hform.symm.trans hform')
      obtain ⟨id, hid, hgrid⟩ := exists_of_showGrids_grid hshown
      exact ⟨id, hid, e, hgrid⟩
    · rintro ⟨id, hid, e, hgrid⟩
      obtain ⟨e', hshown⟩ := showGrids_grid_of_mem hcsv hid hgrid t
      exact ⟨e', report_grid_iff.mpr ⟨f, hform, hshown⟩⟩

private def linesHead (id kind : String) (label : Option String) : FieldHead where
  id := some id
  kind := kind
  label := label
  group := none
  modes := []
  serverTypes := []
  minVersion := none
  maxVersion := none
  noEmpty := false
  emptyLabel := none
  excluded := false
  skipChange := false
  min := none
  max := none
  uniqueColumns := []
  fixedRows := none
  columns := none
  attrs := []

private def linesDescription (id : String) : SchemaDescription where
  head := ⟨none, []⟩
  fields := [.parent (linesHead id "collection" (some "Lines")) ⟨none, []⟩
    [.leaf (linesHead "name" "text" none)]]

private def linesSchema (id : String) : Schema :=
  ⟨[.collection { FieldTraits.plain with id := some id, label := some "Lines" }
    [.input { FieldTraits.plain with id := some "name" } .text] .plain ⟨[], none, none⟩], .plain⟩

private theorem build_linesDescription (id : String) :
    (linesDescription id).build = .ok (linesSchema id) := rfl

theorem listed_collections_shown_lines :
    (linesDescription "lines").build = .ok (linesSchema "lines") ∧
      collectionIds (linesSchema "lines").fields = ["lines"] ∧
      ∃ g, Grid.ofPath (linesSchema "lines") (.parse "lines") .builtin = .ok g ∧
        g.Shows (linesSchema "lines") "lines" := by
  obtain ⟨hshown, hfirst, -⟩ := listed_collections_shown (linesSchema "lines")
  exact ⟨build_linesDescription "lines", rfl,
    (hshown .builtin "lines").mpr ⟨by decide, hfirst (by decide) "lines" List.mem_cons_self⟩⟩

/-- An id with a dot is listed, but leads to no collection: every run without an export ends so. -/
theorem dotted_collection_not_shown :
    (linesDescription "a.b").build = .ok (linesSchema "a.b") ∧
      collectionIds (linesSchema "a.b").fields = ["a.b"] ∧
      (∃ e, Grid.ofPath (linesSchema "a.b") (.parse "a.b") .builtin = .error e) ∧
      ∀ c settings t ids f, t.readSchema c.schema = .ok (linesSchema "a.b") →
        form c settings t ids = .ok f → c.exportCsv = none →
          ∃ e, (start c settings t ids).report = .error (.grid e) := by
  have hgrid : Grid.ofPath (linesSchema "a.b") (.parse "a.b") .builtin = .error ⟨.parse "a.b"⟩ := by
    have hfind : CollectionField.find? (linesSchema "a.b").fields (Path.parse "a.b").segments =
        none := by decide
    rw [Grid.ofPath, hfind]
  refine ⟨build_linesDescription "a.b", rfl, ⟨_, hgrid⟩, ?_⟩
  intro c settings t ids f hschema hform hcsv
  have hfields := schema_of_form hschema hform
  rw [← hfields] at hgrid
  have hlisted : "a.b" ∈ collectionIds f.schema.fields := by
    rw [hfields]
    exact List.mem_cons_self
  obtain ⟨e, hshown⟩ := showGrids_grid_of_mem hcsv hlisted hgrid t
  exact ⟨e, report_grid_iff.mpr ⟨f, hform, hshown⟩⟩

end Run

end SchemaForm
