import SchemaForm.Proofs.Validation.Walk

set_option autoImplicit false
set_option relaxedAutoImplicit false

/-!
The answer of a validation is right: there is none just when every rule of the document holds, and
else it is the failure of the first rule that does not.
-/

namespace SchemaForm

namespace Check

/-- A number lies between the bounds there are. -/
def InBounds (value : Option Json) (min max : Option Binary64) : Prop :=
  ∀ x, number? value = some x →
    (∀ b, min = some b → x.less b = false) ∧ ∀ b, max = some b → b.less x = false

/-- A value suits its kind of input. -/
def Suits (value : Option Json) : InputKind → Prop
  | .int min max => (isEmpty value = false → isInteger value = true) ∧ InBounds value min max
  | .numeric min max =>
    (isEmpty value = false → ∃ x, number? value = some x) ∧ InBounds value min max
  | _ => True

/-- Two rows have different values in a column, null standing for none. -/
def Differ (columns : List String) (a b : Json) : Prop :=
  ∃ column ∈ columns, ((a.get? column).getD .null).same ((b.get? column).getD .null) = false

private theorem given?_eq_none_iff {label : String} {value : Option Json} :
    given? label value = none ↔ isEmpty value = false := by
  simp [given?]

private theorem bounds?_eq_none_iff {label : String} {value : Option Json}
    {min max : Option Binary64} :
    bounds? label value min max = none ↔ InBounds value min max := by
  unfold bounds? InBounds
  cases number? value with
  | none => simp
  | some x =>
    cases min <;> cases max <;> simp [atLeast?, atMost?, Option.filter]

private theorem kind?_eq_none_iff {kind : InputKind} {label : String} {value : Option Json} :
    kind? kind label value = none ↔ Suits value kind := by
  cases kind with
  | int min max =>
    have hinteger : integer? label value = none ↔
        (isEmpty value = false → isInteger value = true) := by
      cases h : isEmpty value <;> simp [integer?, h]
    simp only [kind?, Suits, Option.or_eq_none_iff, hinteger, bounds?_eq_none_iff]
  | numeric min max =>
    have hnumeric : numeric? label value = none ↔
        (isEmpty value = false → ∃ x, number? value = some x) := by
      cases h : isEmpty value <;> simp [numeric?, h, Option.isSome_iff_exists]
    simp only [kind?, Suits, Option.or_eq_none_iff, hnumeric, bounds?_eq_none_iff]
  | _ => simp [kind?, Suits]

private theorem sameItems_columnValues {columns : List String} {a b : Json} :
    Json.sameItems (columnValues columns a) (columnValues columns b) = false ↔
      Differ columns a b := by
  induction columns with
  | nil => simp [columnValues, Json.sameItems, Differ]
  | cons column columns ih =>
    simp only [Differ, columnValues, List.map_cons, Json.sameItems, Bool.and_eq_false_iff,
      List.exists_mem_cons_iff] at ih ⊢
    rw [ih]

private theorem repeatedFrom?_eq_none_iff {columns : List String} {rows : List Json}
    (seen : List Json) (place : Nat) :
    repeatedFrom? columns (seen.map (columnValues columns)) place rows = none ↔
      (∀ a ∈ seen, ∀ b ∈ rows, Differ columns a b) ∧ rows.Pairwise (Differ columns) := by
  induction rows generalizing seen place with
  | nil => simp [repeatedFrom?]
  | cons row rest ih =>
    have hseen : ((seen.map (columnValues columns)).any fun earlier =>
        Json.sameItems earlier (columnValues columns row)) = false ↔
          ∀ a ∈ seen, Differ columns a row := by
      simp [List.any_eq_false, ← sameItems_columnValues]
    have hlater := ih (seen ++ [row]) (place + 1)
    rw [List.map_append, List.map_singleton] at hlater
    by_cases hnew : ∀ a ∈ seen, Differ columns a row
    · have hstep : repeatedFrom? columns (seen.map (columnValues columns)) place (row :: rest) =
          repeatedFrom? columns (seen.map (columnValues columns) ++ [columnValues columns row])
            (place + 1) rest := by
        simp only [repeatedFrom?, hseen.mpr hnew, Bool.false_eq_true, if_false]
      rw [hstep, hlater]
      constructor
      · rintro ⟨hapart, hrest⟩
        refine ⟨fun a ha b hb => ?_, List.pairwise_cons.mpr ⟨fun b hb => ?_, hrest⟩⟩
        · rcases List.mem_cons.mp hb with rfl | hb
          · exact hnew a ha
          · exact hapart a (List.mem_append_left _ ha) b hb
        · exact hapart row (by simp) b hb
      · rintro ⟨hapart, hrows⟩
        obtain ⟨hrow, hrest⟩ := List.pairwise_cons.mp hrows
        refine ⟨fun a ha b hb => ?_, hrest⟩
        rcases List.mem_append.mp ha with ha | ha
        · exact hapart a ha b (List.mem_cons_of_mem row hb)
        · rw [List.mem_singleton.mp ha]
          exact hrow b hb
    · have hfound := eq_true_of_ne_false (mt hseen.mp hnew)
      have hstep : repeatedFrom? columns (seen.map (columnValues columns)) place (row :: rest) =
          some place := by
        simp only [repeatedFrom?, hfound, if_true]
      rw [hstep]
      constructor
      · intro h
        cases h
      · rintro ⟨hapart, _⟩
        exact absurd (fun a ha => hapart a ha row List.mem_cons_self) hnew

private theorem repeatedRow?_eq_none_iff {columns : List String} {rows : List Json} :
    repeatedRow? columns rows = none ↔ (columns ≠ [] → rows.Pairwise (Differ columns)) := by
  have hfrom := @repeatedFrom?_eq_none_iff columns rows [] 0
  by_cases hempty : columns = []
  · simp [repeatedRow?, hempty]
  · have hisEmpty : columns.isEmpty = false := by simpa using hempty
    simpa [repeatedRow?, hisEmpty, hempty] using hfrom

end Check

namespace Validation

/-- What a rule asks for. -/
def Rule.Holds : Rule → Prop
  | .input t kind value _ _ =>
    (t.noEmpty = true → Check.isEmpty value = false) ∧ Check.Suits value kind
  | .unique _ _ rows items _ =>
    rows.uniqueColumns ≠ [] → items.Pairwise (Check.Differ rows.uniqueColumns)
  | .custom schema data _ => ∀ validator, schema.validator = some validator → validator data = []

theorem Rule.failure?_eq_none_iff {r : Rule} : r.failure? = none ↔ r.Holds := by
  cases r with
  | input t kind value path collection =>
    cases hempty : t.noEmpty <;>
      simp [Rule.failure?, Rule.Holds, inputMessage?, hempty, Check.given?_eq_none_iff,
        Check.kind?_eq_none_iff]
  | unique t fields rows items path =>
    simp [Rule.failure?, Rule.Holds, uniquenessFailure?, Check.repeatedRow?_eq_none_iff]
  | custom schema data access =>
    cases hvalidator : schema.validator <;>
      simp [Rule.failure?, Rule.Holds, customFailure?, SchemaTraits.reports, hvalidator]

/-- There is no failure just when every rule posed at a level that is reached holds. A failure is
that of the first rule of the walk that does not hold, and for an input its path leads to the value
that does not suit. -/
theorem failure?_is_first (s : Schema) (doc : Json) (hdoc : doc.items? = none)
    (hrows : RowsNotArrays s doc) :
    (failure? s doc = none ↔ ∀ r, Posed s doc r → r.Holds) ∧
      (∀ r, r ∈ (Level.ofDocument s doc).walk ↔ Posed s doc r) ∧
      ∀ e, failure? s doc = some e →
        ∃ before r after, (Level.ofDocument s doc).walk = before ++ r :: after ∧
          (∀ b ∈ before, b.Holds) ∧ ¬ r.Holds ∧ r.failure? = some e ∧
          ∀ t kind value path collection, r = .input t kind value path collection →
            doc.valueAt? e.path = value := by
  refine ⟨?_, fun r => mem_walk_iff, fun e he => ?_⟩
  · rw [failure?_eq, List.findSome?_eq_none_iff]
    simp only [mem_walk_iff, Rule.failure?_eq_none_iff]
  · rw [failure?_eq, List.findSome?_eq_some_iff] at he
    obtain ⟨before, r, after, hwalk, hfailure, hbefore⟩ := he
    have hposed : Posed s doc r := mem_walk_iff.mp (by rw [hwalk]; simp)
    refine ⟨before, r, after, hwalk, fun b hb => Rule.failure?_eq_none_iff.mp (hbefore b hb), ?_,
      hfailure, ?_⟩
    · rw [← Rule.failure?_eq_none_iff, hfailure]
      exact Option.some_ne_none e
    · rintro t kind value path collection rfl
      have hpath : e.path = path := by
        obtain ⟨message, _, rfl⟩ := Option.map_eq_some_iff.mp hfailure
        rfl
      rw [hpath]
      exact hposed.valueAt?_input hdoc hrows

private def codeField : Field :=
  .input { FieldTraits.plain with id := some "code", noEmpty := true } .text

private def stockSchema : Schema :=
  ⟨[.collection { FieldTraits.plain with id := some "lines" } [codeField] .plain
    ⟨["code"], none, none⟩], .plain⟩

private def stock : Json :=
  .object [("lines", .array [.object [("code", .text "a")], .object [("code", .text " ")]])]

private theorem rowsNotArrays_stock : RowsNotArrays stockSchema stock := by
  have hwalk : ∀ r ∈ (Level.ofDocument stockSchema stock).walk, ∀ row ∈ r.items,
      row.items? = none := by decide
  exact fun r hr => hwalk r hr.mem_walk

theorem failure?_is_first_stock :
    stock.items? = none ∧ RowsNotArrays stockSchema stock ∧
      (failure? stockSchema stock = none ↔ ∀ r, Posed stockSchema stock r → r.Holds) ∧
      failure? stockSchema stock =
        some ⟨⟨[.key "lines", .index 1, .key "code"]⟩, "'code' cannot be empty."⟩ :=
  ⟨rfl, rowsNotArrays_stock, (failure?_is_first stockSchema stock rfl rowsNotArrays_stock).1,
    by decide⟩

end Validation

end SchemaForm
