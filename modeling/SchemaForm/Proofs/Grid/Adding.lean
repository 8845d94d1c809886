import SchemaForm.Proofs.Grid.Pinned
import SchemaForm.Proofs.Path.Lens
import SchemaForm.Proofs.Reduction.Rows

set_option autoImplicit false
set_option relaxedAutoImplicit false

/-!
Adding a row through a grid. The flags that let a row be added, put it on top and ask for it to be
opened are read before the row is there, and whether rows can be opened afterwards. The row itself
is found again by its position, in what the form publishes then.
-/

namespace SchemaForm

open Dictionary
open OptionName

namespace RowId

private theorem NamesItems.exists_of? {names : List String} {members : Dictionary Json} {row : Json}
    (h : NamesItems names [.object members] [row]) : ∃ id ∈ names, of? row = some id := by
  cases h with
  | row hid hothers hrest =>
    refine ⟨_, List.mem_append_left _ List.mem_cons_self, ?_⟩
    rw [of?, Json.get?, hid]
    rfl
  | other hother hrest => cases hother

end RowId

namespace Json

private theorem setAt_key_eq {doc : Json} {q : Path} {members : Dictionary Json}
    (hat : doc.at? q.steps = some (.object members)) (id : String) (new : Json) :
    doc.setAt (q.key id) new = replaceAt (.object (insert members id new)) doc q.steps := by
  have hleads : doc.valueAtSegments? q.segments = some (.object members) :=
    valueAt?_of_at?_steps hat
  have hplace : doc.readPlace q.segments = q.steps := by
    have hends := readPlace_append (l := q.segments) hat []
    rwa [List.append_nil, readPlace, List.append_nil] at hends
  have hwritten := setAtSegments_append_eq (writesWhereRead_of_at?_steps hat) hleads
    (.inr ⟨members, rfl⟩) new [.key id]
  rw [hplace, setAtSegments, putChild, Segment.text_key] at hwritten
  exact hwritten

end Json

namespace Grid

variable {g : Grid} {f : Form}

private theorem mem_expand (g : Grid) (id other : String) :
    other ∈ (g.expand id).expanded ↔ other ∈ g.expanded ∨ other = id := by
  unfold expand
  split
  · rename_i hopen
    have hid : id ∈ g.expanded := by simpa using hopen
    refine ⟨.inl, ?_⟩
    rintro (hother | rfl)
    · exact hother
    · exact hid
  · simp

private theorem expand_settings (g : Grid) (id : String) : (g.expand id).settings = g.settings := by
  unfold expand
  split <;> rfl

/-- The form after a row of the defaults was added. -/
def withDefaults (g : Grid) (f : Form) : Form :=
  f.dispatch (.addRow g.path (.object (ofPairs g.collection.schema.defaults))
    ((g.collectionOptions f).flag addOnTop))

/-- The identity of the row on top or at the end. -/
def outerId? (onTop : Bool) (rows : List Json) : Option String :=
  (if onTop then rows.head? else rows.getLast?).bind RowId.of?

private theorem outerId?_of_same {rows shown : List Json} {row : Json} {onTop : Bool}
    (hsame : List.Forall₂ (fun u v => u.same v = true) shown (Rows.add rows row onTop)) :
    outerId? onTop shown = RowId.of? row := by
  have hids := RowDiff.map_of?_eq_of_same hsame
  cases onTop with
  | true =>
    have hhead : shown.head?.map RowId.of? = some (RowId.of? row) := by
      rw [← List.head?_map, hids]
      rfl
    obtain ⟨first, hfirst, hid⟩ := Option.map_eq_some_iff.mp hhead
    rw [outerId?, if_pos rfl, hfirst, Option.bind_some, hid]
  | false =>
    have hlast : shown.getLast?.map RowId.of? = some (RowId.of? row) := by
      rw [← List.getLast?_map, hids]
      simp [Rows.add]
    obtain ⟨last, hlast, hid⟩ := Option.map_eq_some_iff.mp hlast
    rw [outerId?, if_neg Bool.false_ne_true, hlast, Option.bind_some, hid]

section Open

variable (hflag : (g.collectionOptions f).flag canAddRow = true)

include hflag

private theorem addRow_eq {id : String}
    (hid : outerId? ((g.collectionOptions f).flag addOnTop) (g.rows (g.withDefaults f)) = some id) :
    let g' := g.refresh (g.withDefaults f)
    g.addRow f = ⟨true,
      if ((g.collectionOptions f).flag expandEditOnAdd && g'.settings.expandable) = true then
        g'.expand id
      else g', g.withDefaults f⟩ := by
  intro g'
  have hrows : outerId? ((g.collectionOptions f).flag addOnTop) (g'.rows (g.withDefaults f)) =
      some id := hid
  rw [addRow, if_pos hflag]
  by_cases hopens : ((g.collectionOptions f).flag expandEditOnAdd && g'.settings.expandable) = true
  · rw [if_pos hopens]
    refine (if_pos hopens).trans ?_
    dsimp only
    generalize hfound : Option.bind _ RowId.of? = found
    cases hfound.symm.trans hrows
    rfl
  · rw [if_neg hopens]
    exact if_neg hopens

private theorem grid_addRow {id : String}
    (hid : outerId? ((g.collectionOptions f).flag addOnTop) (g.rows (g.withDefaults f)) = some id) :
    (g.addRow f).grid.settings = (g.refresh (g.withDefaults f)).settings ∧
      ∀ other, other ∈ (g.addRow f).grid.expanded ↔ other ∈ g.expanded ∨
        ((g.collectionOptions f).flag expandEditOnAdd = true ∧
          (g.refresh (g.withDefaults f)).settings.expandable = true ∧ other = id) := by
  have hadded := addRow_eq hflag hid
  have hexpanded : (g.refresh (g.withDefaults f)).expanded = g.expanded := rfl
  rw [hadded]
  dsimp only
  split
  · rename_i hopens
    rw [Bool.and_eq_true] at hopens
    refine ⟨expand_settings _ id, fun other => ?_⟩
    rw [mem_expand, hexpanded]
    simp only [hopens.1, hopens.2, true_and]
  · rename_i hshut
    rw [Bool.and_eq_true, not_and] at hshut
    refine ⟨rfl, fun other => ⟨.inl, ?_⟩⟩
    rintro (hother | ⟨hasked, hexpandable, -⟩)
    · exact hother
    · exact absurd hexpandable (hshut hasked)

end Open

section Added

variable {schema : Schema} {view : View} {fixedData : Json} {ids : RowIds}
  (hf : f.ReadyIn schema view .builtin fixedData ids)
  (hstatic : Field.areStatic schema.fields = true)

include hf hstatic

private theorem doc_withDefaults (g : Grid) : (g.withDefaults f).session.doc =
    f.session.doc.setAt g.path (.array (Rows.add (f.session.doc.rowsAt g.path)
      (Rows.stamped f.ids (.object (ofPairs g.collection.schema.defaults))).1
      ((g.collectionOptions f).flag addOnTop))) := by
  rw [withDefaults, hf.dispatch_session hstatic]
  rfl

private theorem replaced_withDefaults
    (hcollection : CollectionField.find? schema.fields g.path.segments = some g.collection)
    (hflag : (g.collectionOptions f).flag canAddRow = true) {q : Path} {name : String}
    {members : Dictionary Json} (hpath : g.path = q.key name)
    (habove : f.session.doc.valueAt? q = some (.object members)) :
    f.session.doc.at? q.steps = some (.object members) ∧
      (g.withDefaults f).session.doc = Json.replaceAt (.object (insert members name
        (.array ((g.withDefaults f).session.doc.rowsAt g.path)))) f.session.doc q.steps := by
  have hodd := CollectionField.odd_length_of_find? hcollection
  have hlevel := OptionRegistry.exists_level_of_flag OptionRegistry.truthValued_builtin
    (CollectionField.takesTurns_of_find? hcollection) hodd
    (hf.flag_of_published (Path.ne_root_of_odd hodd) hflag)
  obtain ⟨q', name', level, hpath', hat⟩ := hlevel
  have hsegments : q.segments ++ [.key name] = q'.segments ++ [.key name'] :=
    congrArg Path.segments (hpath.symm.trans hpath')
  obtain ⟨hq, -⟩ := List.append_inj' hsegments rfl
  have hsame : q' = q := congrArg Path.mk hq.symm
  subst hsame
  rw [Json.valueAt?_of_at?_steps hat] at habove
  cases habove
  refine ⟨hat, ?_⟩
  rw [doc_withDefaults hf hstatic, Json.rowsAt_setAt, hpath, Json.setAt_key_eq hat]

/-- A row of the defaults with new identities has been added to the rows of a grid, and nothing but
its own identity is open that was not before. -/
structure RowAdded (g : Grid) (f : Form) (after : Attempt) (row : Json) (id : String) : Prop where
  rows : after.form.session.doc.rowsAt g.path =
    if (g.collectionOptions f).flag addOnTop then row :: f.session.doc.rowsAt g.path
    else f.session.doc.rowsAt g.path ++ [row]
  named : ∃ names, RowId.NamesItems names [.object (ofPairs g.collection.schema.defaults)] [row] ∧
    names.Nodup ∧ id ∈ names ∧
    ∀ name ∈ names, ∃ n, f.ids.last < n ∧ n ≤ after.form.ids.last ∧ name = RowId.named true n
  identity : RowId.of? row = some id
  expanded : ∀ other, other ∈ after.grid.expanded ↔ other ∈ g.expanded ∨
    ((g.collectionOptions f).flag expandEditOnAdd = true ∧ after.grid.settings.expandable = true ∧
      other = id)

private theorem exists_rowAdded (hflag : (g.collectionOptions f).flag canAddRow = true) :
    (g.addRow f).grid.settings = (g.refresh (g.withDefaults f)).settings ∧
      List.Forall₂ (fun u v => u.same v = true) (g.rows (g.withDefaults f))
        ((g.withDefaults f).session.doc.rowsAt g.path) ∧
      ∃ row id, g.RowAdded f (g.addRow f) row id := by
  let row := (Rows.stamped f.ids (.object (ofPairs g.collection.schema.defaults))).1
  have hform : (g.addRow f).form = g.withDefaults f := (addRow_of_open g f hflag).2
  have hrows : (g.withDefaults f).session.doc.rowsAt g.path = Rows.add
      (f.session.doc.rowsAt g.path) row ((g.collectionOptions f).flag addOnTop) := by
    rw [doc_withDefaults hf hstatic g, Json.rowsAt_setAt]
  have hpos : 0 < ((g.withDefaults f).session.doc.rowsAt g.path).length := by
    rw [hrows, Rows.add]
    split <;> simp
  have hshown := (hf.dispatch _).forall₂_rows hpos
  have hnames := RowId.namesItems_stamped f.ids (ofPairs g.collection.schema.defaults)
  obtain ⟨id, hdrawn, hid⟩ := hnames.exists_of?
  have houter : outerId? ((g.collectionOptions f).flag addOnTop) (g.rows (g.withDefaults f)) =
      some id := (outerId?_of_same (hrows ▸ hshown)).trans hid
  obtain ⟨hsettings, hexpanded⟩ := grid_addRow hflag houter
  have hlast : (g.withDefaults f).ids.last =
      (Rows.stamped f.ids (.object (ofPairs g.collection.schema.defaults))).2.last := by
    rw [withDefaults, hf.dispatch_ids hstatic]
    rfl
  refine ⟨hsettings, hshown, row, id, ?_, ?_, hid, ?_⟩
  · rw [hform]
    exact hrows
  · rw [hform, hlast]
    exact ⟨_, hnames, RowId.nodup_drawn _ _ _, hdrawn, fun name => RowId.mem_drawn⟩
  · rw [hsettings]
    exact hexpanded

end Added

/-- Adding a row is permitted exactly by the flag of the collection. A row that is added is that of
the defaults with new identities, on top or at the end as the options say, and nothing else changes
in the document; it is opened exactly if the options ask for it and rows can be opened then. -/
theorem row_added_as_permitted (schema : Schema) (view : View) (fixedData : Json) (ids : RowIds)
    (ops : List FormOp) (hstatic : Field.areStatic schema.fields = true) (g : Grid)
    (hcollection : CollectionField.find? schema.fields g.path.segments = some g.collection)
    (hfeatures : g.features = FeatureRegistry.builtin.ordered) :
    let f := (Form.start schema view .builtin fixedData ids).run ops
    let added := g.addRow f
    let flag (f : Form) (name : String) : Bool :=
      ((OptionRegistry.builtin.tree schema f.session.doc view).valueAtOrNull g.path).flag name
    f.ui.ready = true →
    (f.session.changeId ≠ 0 → ∀ name, (g.collectionOptions f).flag name = flag f name) ∧
    (added.succeeded = true ↔ (g.collectionOptions f).flag canAddRow = true) ∧
    (added.succeeded = false → added = ⟨false, g, f⟩) ∧
    (added.succeeded = true →
      (∃ row id, g.RowAdded f added row id) ∧
      added.grid.settings.expandable = flag added.form canEdit ∧
      List.Forall₂ (fun u v => u.same v = true) (added.grid.rows added.form)
        (added.form.session.doc.rowsAt g.path) ∧
      added.form.session.changeId = f.session.changeId + 1 ∧
      ∀ q name members, g.path = q.key name →
        f.session.doc.valueAt? q = some (.object members) →
        f.session.doc.at? q.steps = some (.object members) ∧ added.form.session.doc =
          .replaceAt (.object (insert members name
            (.array (added.form.session.doc.rowsAt g.path)))) f.session.doc q.steps) := by
  intro f added flag hready
  have hf : f.ReadyIn schema view .builtin fixedData ids := ⟨hready, ops, rfl⟩
  refine ⟨fun hreduced => hf.flag_eq hreduced g.path, ?_⟩
  cases hflag : (g.collectionOptions f).flag canAddRow with
  | false =>
    have hrefused : added = ⟨false, g, f⟩ := addRow_of_shut g f hflag
    rw [hrefused]
    exact ⟨iff_of_false Bool.false_ne_true Bool.false_ne_true, fun _ => rfl,
      fun hsucceeded => nomatch hsucceeded⟩
  | true =>
    obtain ⟨hsucceeded, hform⟩ : added.succeeded = true ∧ added.form = g.withDefaults f :=
      addRow_of_open g f hflag
    obtain ⟨hsettings, hshown, hadded⟩ := exists_rowAdded hf hstatic hflag
    have hchangeId : (g.withDefaults f).session.changeId = f.session.changeId + 1 := by
      rw [withDefaults, hf.dispatch_session hstatic, reduce_changeId]
    have hpath : added.grid.path = g.path := (attempt_grid g f .addRow).1
    have hf' : (g.withDefaults f).ReadyIn schema view .builtin fixedData ids := hf.dispatch _
    refine ⟨iff_of_true hsucceeded rfl, fun hrefused => ?_, fun _ => ⟨hadded, ?_, ?_, ?_, ?_⟩⟩
    · cases hsucceeded.symm.trans hrefused
    · rw [hsettings, settings_refresh hfeatures, hform]
      exact hf'.flag_eq (by rw [hchangeId]; exact Nat.succ_ne_zero _) g.path canEdit
    · rw [Grid.rows, hpath, hform]
      exact hshown
    · rw [hform, hchangeId]
    · intro q name members hpath habove
      rw [hform]
      exact replaced_withDefaults hf hstatic hcollection hflag hpath habove

private def stopsField : CollectionField where
  traits :=
    { FieldTraits.plain with
      id := some "stops"
      attrs := [(addOnTop, .literal (.bool true)), (canEdit, .literal (.bool true)),
        (expandEditOnAdd, .literal (.bool true))] }
  fields := [.input { FieldTraits.plain with id := some "town" } .text]
  schema := { SchemaTraits.plain with
    defaults := [("guests", .array [.empty]), ("town", .text "?")] }
  rows := ⟨[], none, none⟩

private def routeSchema : Schema :=
  ⟨[.collection stopsField.traits stopsField.fields stopsField.schema stopsField.rows], .plain⟩

private def stopsGrid : Grid where
  path := Path.root.key "stops"
  collection := stopsField
  features := FeatureRegistry.builtin.entries
  columns := stopsField.columns
  settings := .plain
  search := ""
  expanded := []

private def routeOps : List FormOp :=
  [.initialise false (some (.ok (.ofPairs [("stops", .array [.ofPairs [("town", .text "Ulm")]])])))]

private def routeForm : Form :=
  (Form.start routeSchema (.ofMode .create) .builtin .empty ⟨0⟩).run routeOps

/-- A stop is added in front of another one, and only the new one is open. -/
theorem row_added_as_permitted_route :
    Field.areStatic routeSchema.fields = true ∧
      CollectionField.find? routeSchema.fields stopsGrid.path.segments =
        some stopsGrid.collection ∧
      routeForm.ui.ready = true ∧ (stopsGrid.addRow routeForm).succeeded = true ∧
      (routeForm.session.doc.rowsAt stopsGrid.path).length = 1 ∧
      ∃ row id, (stopsGrid.addRow routeForm).form.session.doc.rowsAt stopsGrid.path =
          row :: routeForm.session.doc.rowsAt stopsGrid.path ∧
        RowId.of? row = some id ∧
        ∀ other, other ∈ (stopsGrid.addRow routeForm).grid.expanded ↔ other = id := by
  have hready : routeForm.ui.ready = true := by decide +kernel
  have hflags : (stopsGrid.collectionOptions routeForm).flag canAddRow = true ∧
      (stopsGrid.collectionOptions routeForm).flag addOnTop = true ∧
      (stopsGrid.collectionOptions routeForm).flag expandEditOnAdd = true := by decide +kernel
  have hexpandable : (stopsGrid.addRow routeForm).grid.settings.expandable = true := by
    decide +kernel
  have hroute : (Form.start routeSchema (.ofMode .create) .builtin .empty ⟨0⟩).run routeOps =
      routeForm := rfl
  have hpermitted := row_added_as_permitted routeSchema (.ofMode .create) .empty ⟨0⟩ routeOps
    (by decide) stopsGrid rfl FeatureRegistry.builtin_ordered.symm
  simp only [hroute] at hpermitted
  obtain ⟨-, hsucceeds, -, hadds⟩ := hpermitted hready
  have hsucceeded := hsucceeds.mpr hflags.1
  obtain ⟨⟨row, id, hadded⟩, -⟩ := hadds hsucceeded
  refine ⟨by decide, rfl, hready, hsucceeded, by decide +kernel, row, id,
    hadded.rows.trans (if_pos hflags.2.1), hadded.identity, fun other => ?_⟩
  refine (hadded.expanded other).trans ⟨?_, fun hother => .inr ⟨hflags.2.2, hexpandable, hother⟩⟩
  rintro (hopen | ⟨-, -, hother⟩)
  · cases hopen
  · exact hother

end Grid

end SchemaForm
