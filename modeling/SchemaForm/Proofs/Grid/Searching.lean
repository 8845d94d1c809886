import SchemaForm.Proofs.Grid.Permitted
import SchemaForm.Proofs.Path.Writing
import SchemaForm.Proofs.Text.Lowercase

set_option autoImplicit false
set_option relaxedAutoImplicit false

/-!
Which rows a search leaves. The text searched for and the texts of the cells are put into lower case
apart from each other, so a row may hold the text and yet be hidden: a sigma at an end of the text
has another form where the word goes on in the cell. It depends on the text alone whether this can
happen.
-/

namespace SchemaForm

open OptionName

namespace GridFeature

private theorem hidden_decorate {feature : GridFeature} (hfeature : feature ≠ .globalSearch)
    (ctx : RowContext) (d : RowDecoration) : (feature.decorate ctx d).hidden = d.hidden := by
  cases feature with
  | globalSearch => exact absurd rfl hfeature
  | reorder | fixedRows =>
    simp only [decorate]
    split <;> rfl
  | expandableEdit =>
    simp only [decorate]
    split
    · split <;> rfl
    · rfl
  | deleteRow | inert => rfl

private theorem hidden_globalSearch (ctx : RowContext) {d : RowDecoration} (hd : d.hidden = false) :
    (globalSearch.decorate ctx d).hidden =
      ctx.settings.search.any fun needle => !matchesSearch ctx needle := by
  rw [decorate]
  cases ctx.settings.search with
  | none => exact hd
  | some needle => rfl

end GridFeature

namespace Grid

/-- The fields that have columns. -/
def dataColumns (g : Grid) : List String := g.collection.columns.filterMap Column.fieldId?

/-- A column of a row holds a text that contains another one. -/
def HoldsText (g : Grid) (row : Json) (t : String) : Prop :=
  ∃ column ∈ g.dataColumns, ∃ before after,
    row.get? column = some (.text (before ++ t ++ after))

/-- A column of a row holds a value, not null, whose text in lower case contains another one in
lower case. -/
def Matches (g : Grid) (row : Json) (t : String) : Prop :=
  ∃ column ∈ g.dataColumns, ∃ value, row.get? column = some value ∧ value ≠ .null ∧
    (Text.toLower t).toList <:+: (Text.toLower value.unquoted).toList

/-- The row at a position is among those that are shown. -/
def ShowsRow (g : Grid) (f : Form) (n : Nat) : Prop :=
  ∃ row ∈ (g.refresh f).rendered f, row.position = n

variable {g : Grid} {f : Form} {n : Nat} {row : Json} {t : String}

private theorem matchesSearch_iff {ctx : RowContext} (hrow : ctx.row = row)
    (hcolumns : ctx.columns.filterMap Column.fieldId? = g.dataColumns) :
    GridFeature.matchesSearch ctx (Text.toLower t) = true ↔ g.Matches row t := by
  rw [GridFeature.matchesSearch, hcolumns, hrow, List.any_eq_true, Matches]
  refine exists_congr fun column => and_congr_right fun _ => ?_
  cases row.get? column with
  | none => simp
  | some value =>
    cases value <;> simp [GridFeature.searchText?, Text.contains, Text.occursIn_iff]

private theorem renderRow?_position {options : Json} {shown : GridRow}
    (hshown : g.renderRow? options n row = some shown) : shown.position = n := by
  simp only [renderRow?] at hshown
  split at hshown <;> cases hshown
  rfl

private theorem showsRow_iff_isSome (hrow : (g.rows f)[n]? = some row) : g.ShowsRow f n ↔
    ((g.refresh f).renderRow? (g.collectionOptions f) n row).isSome = true := by
  rw [Option.isSome_iff_exists]
  constructor
  · rintro ⟨shown, hshown, rfl⟩
    obtain ⟨⟨value, m⟩, hvalue, hrender⟩ := List.mem_filterMap.mp hshown
    rw [List.mem_zipIdx_iff_getElem?] at hvalue
    rw [renderRow?_position hrender] at hrow ⊢
    obtain rfl : value = row := Option.some_inj.mp (hvalue.symm.trans hrow)
    exact ⟨shown, hrender⟩
  · rintro ⟨shown, hrender⟩
    exact ⟨shown, List.mem_filterMap.mpr
      ⟨(row, n), List.mem_zipIdx_iff_getElem?.mpr hrow, hrender⟩, renderRow?_position hrender⟩

section Builtin

variable (hfeatures : g.features = FeatureRegistry.builtin.ordered)

include hfeatures

private theorem hidden_of_builtin (ctx : RowContext) :
    (g.features.foldl (fun d e => e.feature.decorate ctx d) RowDecoration.plain).hidden =
      ctx.settings.search.any fun needle => !GridFeature.matchesSearch ctx needle := by
  rw [hfeatures, FeatureRegistry.builtin_ordered]
  simp only [FeatureRegistry.builtin, List.foldl]
  refine GridFeature.hidden_globalSearch ctx ?_
  rw [GridFeature.hidden_decorate (by decide), GridFeature.hidden_decorate (by decide),
    GridFeature.hidden_decorate (by decide), GridFeature.hidden_decorate (by decide),
    RowDecoration.plain]

private theorem showsRow_iff (hrow : (g.rows f)[n]? = some row) : g.ShowsRow f n ↔
    ((g.collectionOptions f).flag canSearch = true → Text.trim g.search ≠ "" →
      g.Matches row (Text.trim g.search)) := by
  let ctx : RowContext := ⟨n, row, rowOptions (g.collectionOptions f) n, (g.refresh f).settings,
    (g.refresh f).columns, (g.refresh f).expanded⟩
  have hhidden : g.ShowsRow f n ↔
      (g.needle? f).any (fun needle => !GridFeature.matchesSearch ctx needle) = false := by
    have hfeatures' : (g.refresh f).features = FeatureRegistry.builtin.ordered := hfeatures
    have hsearch : ctx.settings.search = g.needle? f :=
      congrArg TableSettings.search (settings_refresh hfeatures)
    have hdecoration := hidden_of_builtin hfeatures' ctx
    rw [showsRow_iff_isSome hrow, ← hsearch, ← hdecoration, renderRow?]
    split <;> simp_all [ctx]
  have hmatches : GridFeature.matchesSearch ctx (Text.toLower (Text.trim g.search)) = true ↔
      g.Matches row (Text.trim g.search) := matchesSearch_iff rfl (filterMap_columns_refresh g f)
  rw [hhidden, ← hmatches, needle?]
  cases (g.collectionOptions f).flag canSearch <;> by_cases ht : Text.trim g.search = "" <;>
    simp [ht]

end Builtin

private theorem toList_toLower (s : String) :
    (Text.toLower s).toList = Text.lowerFrom [] s.toList :=
  String.toList_ofList

private theorem HoldsText.matches (hrow : g.HoldsText row t)
    (ht : Text.settlesSigmas [] t.toList = true) : g.Matches row t := by
  obtain ⟨column, hcolumn, before, after, hvalue⟩ := hrow
  refine ⟨column, hcolumn, _, hvalue, Json.noConfusion, ?_⟩
  rw [toList_toLower, toList_toLower]
  refine Text.infix_lowerFrom_of_settles ht ⟨before.toList, after.toList, ?_⟩
  rw [Json.unquoted, String.toList_append, String.toList_append]

private theorem exists_holdsText_not_matches {column : String} (hcolumn : column ∈ g.dataColumns)
    (ht : Text.settlesSigmas [] t.toList = false) :
    ∃ row, g.HoldsText row t ∧ ¬ g.Matches row t := by
  obtain ⟨s, ⟨before, after, hs⟩, hmissed⟩ := Text.exists_missed_of_unsettled ht
  refine ⟨.object [(column, .text (String.ofList s))], ⟨column, hcolumn, String.ofList before,
    String.ofList after, ?_⟩, ?_⟩
  · have hwhole : String.ofList s = String.ofList before ++ t ++ String.ofList after := by
      rw [← hs, String.ofList_append, String.ofList_append, String.ofList_toList]
    simp [Json.get?, Dictionary.get?, hwhole]
  · rintro ⟨column', -, value, hvalue, -, hpart⟩
    obtain rfl : .text (String.ofList s) = value := by
      simp only [Json.get?, Dictionary.get?] at hvalue
      split at hvalue <;> simp_all
    rw [toList_toLower, toList_toLower, Json.unquoted, String.toList_ofList] at hpart
    exact hmissed hpart

private theorem exists_form_searched (g : Grid) (rows : List Json) :
    ∃ f : Form, (g.collectionOptions f).flag canSearch = true ∧ g.rows f = rows := by
  let options : Json := .object [(canSearch, .bool true)]
  refine ⟨{ Form.start ⟨[], .plain⟩ (.ofMode .edit) .empty .empty ⟨0⟩ with
    data := .ofState (Json.empty.setAt g.path (.array rows))
    options := .ofState (Json.empty.setAt g.path options) }, ?_, Json.rowsAt_setAt _ _ _⟩
  have hread : (Json.empty.setAt g.path options).valueAtOrNull g.path = options := by
    rw [Json.valueAtOrNull, Json.valueAt?, Json.setAt, Json.valueAtSegments?_setAtSegments]
    rfl
  show ((Json.empty.setAt g.path options).valueAtOrNull g.path).flag canSearch = true
  rw [hread]
  rfl

/-- With the built-in features nothing is hidden unless there is a text to search for and the search
is allowed. A row is then shown just if a cell matches the text, both in lower case. That a row is
shown whenever a cell holds the text as it stands depends on the sigmas of the text alone. -/
theorem search_shows_holders_iff (g : Grid)
    (hfeatures : g.features = FeatureRegistry.builtin.ordered) :
    let t := Text.trim g.search
    (∀ f n, n < (g.rows f).length →
      (g.collectionOptions f).flag canSearch = false ∨ t = "" → g.ShowsRow f n) ∧
    (∀ f n row, (g.collectionOptions f).flag canSearch = true → t ≠ "" →
      (g.rows f)[n]? = some row → (g.ShowsRow f n ↔ g.Matches row t)) ∧
    (t ≠ "" → g.dataColumns ≠ [] →
      ((∀ f n row, (g.collectionOptions f).flag canSearch = true → (g.rows f)[n]? = some row →
          g.HoldsText row t → g.ShowsRow f n) ↔
        Text.settlesSigmas [] t.toList = true)) := by
  intro t
  refine ⟨fun f n hn hidle => ?_, fun f n row hflag ht hrow => ?_, fun ht hcolumns => ?_⟩
  · rw [showsRow_iff hfeatures (List.getElem?_eq_getElem hn)]
    intro hflag ht
    rcases hidle with hidle | hidle
    · rw [hflag] at hidle
      cases hidle
    · exact absurd hidle ht
  · rw [showsRow_iff hfeatures hrow]
    exact ⟨fun hshown => hshown hflag ht, fun hmatches _ _ => hmatches⟩
  · constructor
    · intro hholders
      by_contra hsigmas
      obtain ⟨column, hcolumn⟩ := List.exists_mem_of_ne_nil _ hcolumns
      obtain ⟨row, hholds, hmissed⟩ :=
        exists_holdsText_not_matches hcolumn (eq_false_of_ne_true hsigmas)
      obtain ⟨f, hflag, hrows⟩ := exists_form_searched g [row]
      have hrow : (g.rows f)[0]? = some row := by rw [hrows]; rfl
      have hshown := hholders f 0 row hflag hrow hholds
      exact hmissed ((showsRow_iff hfeatures hrow).mp hshown hflag ht)
    · intro hsigmas f n row hflag hrow hholds
      rw [showsRow_iff hfeatures hrow]
      exact fun _ _ => hholds.matches hsigmas

private def names : CollectionField where
  traits :=
    { FieldTraits.plain with id := some "names", attrs := [(canSearch, .literal (.bool true))] }
  fields := [.input { FieldTraits.plain with id := some "name" } .text]
  schema := .plain
  rows := ⟨[], none, none⟩

private def namesGrid (search : String) : Grid where
  path := Path.root.key "names"
  collection := names
  features := FeatureRegistry.builtin.entries
  columns := [.ofField "name" "name"]
  settings := .plain
  search := search
  expanded := []

private def namesForm (name : String) : Form :=
  let schema : Schema :=
    ⟨[.collection names.traits names.fields names.schema names.rows], .plain⟩
  (Form.start schema (.ofMode .edit) .builtin .empty ⟨0⟩).run
    [.initialise false (some (.ok (.ofPairs [("names",
      .array [.ofPairs [("name", .text name)]])])))]

theorem search_shows_holders_iff_names :
    let g := namesGrid " ΣΟ "
    let f := namesForm "ΜΕΣΟΣ"
    g.features = FeatureRegistry.builtin.ordered ∧
      (g.collectionOptions f).flag canSearch = true ∧
      (g.rows f)[0]? = some (.ofPairs [("cid", .text "nn1"), ("name", .text "ΜΕΣΟΣ")]) ∧
      g.ShowsRow f 0 := by
  intro g f
  have hfeatures : g.features = FeatureRegistry.builtin.ordered :=
    FeatureRegistry.builtin_ordered.symm
  have hflag : (g.collectionOptions f).flag canSearch = true := by decide +kernel
  have hrow : (g.rows f)[0]? =
      some (.ofPairs [("cid", .text "nn1"), ("name", .text "ΜΕΣΟΣ")]) := by decide +kernel
  have htrim : Text.trim g.search = "ΣΟ" := by decide +kernel
  obtain ⟨-, -, hholders⟩ := search_shows_holders_iff g hfeatures
  rw [htrim] at hholders
  have hsettled : Text.settlesSigmas [] "ΣΟ".toList = true := by decide +kernel
  refine ⟨hfeatures, hflag, hrow, (hholders (by decide) (by decide)).mpr hsettled f 0 _ hflag hrow
    ⟨"name", by decide, "ΜΕ", "Σ", ?_⟩⟩
  decide +kernel

/-- A sigma that ends the text has the form of the end of a word, and is missed inside one. -/
theorem row_hidden_that_holds_text :
    let g := namesGrid "ΑΣ"
    let f := namesForm "ΑΣΑ"
    let row : Json := .ofPairs [("cid", .text "nn1"), ("name", .text "ΑΣΑ")]
    g.features = FeatureRegistry.builtin.ordered ∧
      (g.collectionOptions f).flag canSearch = true ∧ Text.trim g.search = "ΑΣ" ∧
      (g.rows f)[0]? = some row ∧ g.HoldsText row "ΑΣ" ∧ ¬ g.ShowsRow f 0 := by
  intro g f row
  refine ⟨FeatureRegistry.builtin_ordered.symm, by decide +kernel, by decide +kernel,
    by decide +kernel, ⟨"name", by decide, "", "Α", by decide +kernel⟩, ?_⟩
  have hnone : (g.refresh f).rendered f = [] := List.isEmpty_iff.mp (by decide +kernel)
  rintro ⟨shown, hshown, -⟩
  rw [hnone] at hshown
  cases hshown

end Grid

end SchemaForm
