import SchemaForm.Form.Basic

set_option autoImplicit false
set_option relaxedAutoImplicit false

/-!
What the numbers of rows tell of a document. They are listed collection by collection, each followed
by those of the collections in its first row, in its second, and so on. Nothing in the list says
where a row ends, but the schema does; so the numbers, even without the paths beside them, determine
all paths and all listeners. What was made for one document is therefore right for every other one
with the same numbers, and a form may keep it.
-/

namespace SchemaForm

namespace Wiring

section Codes

variable {α β γ : Type} {code : α → Nat → List β} {made : α → Nat → γ}

/-- Two lists of equal length whose items are coded one after the other are told apart item by item,
if items are told apart whatever follows them. -/
private theorem made_of_codes
    (hitem : ∀ a a' n t t', code a n ++ t = code a' n ++ t' → made a n = made a' n ∧ t = t')
    {rows rows' : List α} (n : Nat) {t t' : List β} (hlength : rows.length = rows'.length)
    (hsame : (rows.zipIdx n).flatMap (fun (a, k) => code a k) ++ t =
      (rows'.zipIdx n).flatMap (fun (a, k) => code a k) ++ t') :
    (rows.zipIdx n).map (fun (a, k) => made a k) =
      (rows'.zipIdx n).map (fun (a, k) => made a k) ∧ t = t' := by
  induction rows generalizing rows' n with
  | nil =>
    have hempty : rows' = [] := List.length_eq_zero_iff.mp hlength.symm
    subst hempty
    exact ⟨rfl, hsame⟩
  | cons a rows ih =>
    cases rows' with
    | nil => cases hlength
    | cons a' rows' =>
      simp only [List.zipIdx_cons, List.flatMap_cons, List.map_cons, List.append_assoc] at hsame ⊢
      obtain ⟨hhead, htail⟩ := hitem a a' n _ _ hsame
      obtain ⟨hrest, hafter⟩ := ih (n + 1) (Nat.succ.inj hlength) htail
      exact ⟨by rw [hhead, hrest], hafter⟩

end Codes

mutual

private theorem fieldWiring_of_numbers {data data' : Json} {access : Path} {t t' : List Nat} :
    (f : Field) →
    (fieldRowCounts data access f).map Prod.snd ++ t =
      (fieldRowCounts data' access f).map Prod.snd ++ t' →
    fieldRowCounts data access f = fieldRowCounts data' access f ∧
      fieldListeners data access f = fieldListeners data' access f ∧ t = t'
  | .nested _ _ fields _, hsame => by
    rw [fieldRowCounts, fieldRowCounts] at hsame ⊢
    rw [fieldListeners, fieldListeners]
    exact wiring_of_numbers fields hsame
  | .collection traits fields _ _, hsame => by
    rw [fieldRowCounts, fieldRowCounts] at hsame ⊢
    rw [fieldListeners, fieldListeners]
    cases hnamed : traits.id with
    | none =>
      rw [hnamed] at hsame
      exact ⟨rfl, rfl, hsame⟩
    | some id =>
      rw [hnamed] at hsame
      simp only [List.map_cons, List.cons_append, List.cons.injEq, List.map_flatMap] at hsame
      obtain ⟨hlength, hrows⟩ := hsame
      let rowPath (n : Nat) : Path := (access.key id).index n
      -- The numbers of one row are followed by those of the next, and only the schema says where
      -- they end.
      have hitem (row row' : Json) (n : Nat) (u u' : List Nat)
          (hsame : (rowCounts row (rowPath n) fields).map Prod.snd ++ u =
            (rowCounts row' (rowPath n) fields).map Prod.snd ++ u') :
          (rowCounts row (rowPath n) fields, listeners row (rowPath n) fields) =
            (rowCounts row' (rowPath n) fields, listeners row' (rowPath n) fields) ∧ u = u' := by
        obtain ⟨hcounts, hlisteners, hafter⟩ := wiring_of_numbers fields hsame
        exact ⟨Prod.ext hcounts hlisteners, hafter⟩
      obtain ⟨hbelow, hafter⟩ := made_of_codes hitem 0 hlength hrows
      have hcounts := congrArg (List.flatMap Prod.fst) hbelow
      have hlisteners := congrArg (List.flatMap Prod.snd) hbelow
      simp only [List.flatMap_map, rowPath] at hcounts hlisteners
      exact ⟨by simp only [hlength, hcounts], by simp only [hlisteners], hafter⟩
  | .input _ _, hsame =>
    ⟨by rw [fieldRowCounts, fieldRowCounts], by rw [fieldListeners, fieldListeners], hsame⟩
  | .group _ _, hsame =>
    ⟨by rw [fieldRowCounts, fieldRowCounts], by rw [fieldListeners, fieldListeners], hsame⟩

/-- Where the numbers of rows are the same, whatever is written behind them, so are the paths beside
them and the listeners. -/
private theorem wiring_of_numbers {data data' : Json} {access : Path} {t t' : List Nat} :
    (fields : List Field) →
    (rowCounts data access fields).map Prod.snd ++ t =
      (rowCounts data' access fields).map Prod.snd ++ t' →
    rowCounts data access fields = rowCounts data' access fields ∧
      listeners data access fields = listeners data' access fields ∧ t = t'
  | [], hsame => ⟨rfl, rfl, hsame⟩
  | f :: rest, hsame => by
    rw [rowCounts, rowCounts, List.map_append, List.map_append, List.append_assoc,
      List.append_assoc] at hsame
    obtain ⟨hfirst, hown, hlater⟩ := fieldWiring_of_numbers f hsame
    obtain ⟨hcounts, hothers, hafter⟩ := wiring_of_numbers rest hlater
    exact ⟨by rw [rowCounts, rowCounts, hfirst, hcounts],
      by rw [listeners, listeners, hown, hothers], hafter⟩

end

mutual

private theorem fieldRowCounts_eq_nil {data data' : Json} {access : Path} : (f : Field) →
    fieldRowCounts data access f = [] → fieldRowCounts data' access f = []
  | .nested _ _ fields _, hempty => by
    rw [fieldRowCounts] at hempty ⊢
    exact rowCounts_eq_nil fields hempty
  | .collection traits fields _ _, hempty => by
    rw [fieldRowCounts] at hempty ⊢
    cases hnamed : traits.id with
    | none => rfl
    | some id => simp [hnamed] at hempty
  | .input _ _, _ => by rw [fieldRowCounts]
  | .group _ _, _ => by rw [fieldRowCounts]

private theorem rowCounts_eq_nil {data data' : Json} {access : Path} : (fields : List Field) →
    rowCounts data access fields = [] → rowCounts data' access fields = []
  | [], _ => rfl
  | f :: rest, hempty => by
    rw [rowCounts, List.append_eq_nil_iff] at hempty ⊢
    exact ⟨fieldRowCounts_eq_nil f hempty.1, rowCounts_eq_nil rest hempty.2⟩

end

end Wiring

namespace Schema

private theorem wiring_eq_of_numbers (s : Schema) {doc doc' : Json}
    (hsame : (s.rowCounts doc).map Prod.snd = (s.rowCounts doc').map Prod.snd) :
    s.rowCounts doc = s.rowCounts doc' ∧ s.graph doc = s.graph doc' := by
  have hpaired : (Wiring.rowCounts doc .root s.fields).map Prod.snd ++ [] =
      (Wiring.rowCounts doc' .root s.fields).map Prod.snd ++ [] := by
    rw [List.append_nil, List.append_nil]
    exact hsame
  obtain ⟨hcounts, hlisteners, -⟩ := Wiring.wiring_of_numbers s.fields hpaired
  exact ⟨hcounts, congrArg DependencyGraph.mk hlisteners⟩

theorem graph_eq_of_rowCounts_eq (s : Schema) {doc doc' : Json}
    (hsame : s.rowCounts doc = s.rowCounts doc') : s.graph doc = s.graph doc' :=
  (s.wiring_eq_of_numbers (congrArg (List.map Prod.snd) hsame)).2

theorem rowCounts_eq_nil_iff (s : Schema) (doc doc' : Json) :
    s.rowCounts doc = [] ↔ s.rowCounts doc' = [] :=
  ⟨Wiring.rowCounts_eq_nil s.fields, Wiring.rowCounts_eq_nil s.fields⟩

end Schema

namespace Form

/-- Whether or not its listeners are made anew, a form whose listeners were made for some document
ends up with those of the document it has. -/
private theorem rewire_eq_of_made {f : Form} {doc : Json} (hgraph : f.graph = f.schema.graph doc)
    (hrowCounts : f.rowCounts = f.schema.rowCounts doc) (always : Bool) :
    f.rewire always = { f with
      graph := f.schema.graph f.session.doc
      rowCounts := f.schema.rowCounts f.session.doc } := by
  simp only [rewire]
  split
  · rfl
  · rename_i hkept
    have hsame : f.schema.rowCounts f.session.doc = f.rowCounts := by
      simpa using (Bool.or_eq_false_iff.mp (Bool.eq_false_iff.mpr hkept)).2
    have hcurrent : f.schema.graph f.session.doc = f.graph :=
      (f.schema.graph_eq_of_rowCounts_eq (hsame.trans hrowCounts)).trans hgraph.symm
    rw [hsame, hcurrent]

/-- Keeping the listeners is sound. Documents with the same numbers of rows have the same listeners:
the same sources, destinations and recomputations in the same order. The numbers alone decide it, as
the paths beside them are then the same. So a form whose listeners were made for some document has
those of its present one after a rewiring, whether they were made anew or kept. -/
theorem keeping_listeners_sound (s : Schema) :
    (∀ doc doc' : Json, s.rowCounts doc = s.rowCounts doc' →
      (s.graph doc).listeners = (s.graph doc').listeners) ∧
    (∀ doc doc' : Json, (s.rowCounts doc).map Prod.snd = (s.rowCounts doc').map Prod.snd ↔
      s.rowCounts doc = s.rowCounts doc') ∧
    ∀ (f : Form) (doc : Json) (always : Bool), f.schema = s → f.graph = s.graph doc →
      f.rowCounts = s.rowCounts doc →
      f.rewire always = { f with
        graph := s.graph f.session.doc
        rowCounts := s.rowCounts f.session.doc } := by
  refine ⟨fun doc doc' hsame => ?_, fun doc doc' => ⟨fun hsame => ?_, fun hsame => ?_⟩,
    fun f doc always hschema hgraph hrowCounts => ?_⟩
  · rw [s.graph_eq_of_rowCounts_eq hsame]
  · exact (s.wiring_eq_of_numbers hsame).1
  · rw [hsame]
  · subst hschema
    exact rewire_eq_of_made hgraph hrowCounts always

/-- Shelves with boxes, on a tab. The weights of both are recomputed from counts. -/
private def warehouse : Schema :=
  let weigh : Recompute := fun level _ _ _ => (level.get? "count").map fun n => [("weight", n)]
  let weight : Field := .input { FieldTraits.plain with
    id := some "weight", dependencies := [.sibling "count"], recompute := some weigh } .text
  let boxes : Field :=
    .collection { FieldTraits.plain with id := some "boxes" } [weight] .plain ⟨[], none, none⟩
  let shelves : Field :=
    .collection { FieldTraits.plain with id := some "shelves" } [weight, boxes] .plain
      ⟨[], none, none⟩
  ⟨[.nested .plain .tab [shelves] .plain], .plain⟩

private def counting (n : Nat) : Json := .ofPairs [("count", .ofNat n)]

private def shelving (shelves : List (List Json)) : Json :=
  .ofPairs [("shelves", .array (shelves.map fun boxes => .ofPairs [("boxes", .array boxes)]))]

/-- The counts of two boxes change, so their form keeps all its listeners. With one of the boxes on
the other shelf there are as many rows, but not the same numbers of them. -/
theorem keeping_listeners_sound_shelves :
    let before := shelving [[counting 1, counting 2], []]
    let after := shelving [[counting 4, counting 3], []]
    let moved := shelving [[counting 1], [counting 2]]
    let f : Form := { start warehouse (.ofMode .edit) .empty .empty ⟨0⟩ with
      session := ⟨after, 1⟩
      graph := warehouse.graph before
      rowCounts := warehouse.rowCounts before }
    warehouse.rowCounts before =
        [("shelves", 2), ("shelves.0.boxes", 2), ("shelves.1.boxes", 0)] ∧
      warehouse.rowCounts before = warehouse.rowCounts after ∧
      warehouse.rowCounts before ≠ warehouse.rowCounts moved ∧
      (warehouse.graph before).size = 8 ∧
      (warehouse.graph before).listeners = (warehouse.graph after).listeners ∧
      f.rewire false = { f with
        graph := warehouse.graph after
        rowCounts := warehouse.rowCounts after } := by
  intro before after moved f
  obtain ⟨hlisteners, hnumbers, hrewired⟩ := keeping_listeners_sound warehouse
  have hsame : warehouse.rowCounts before = warehouse.rowCounts after :=
    (hnumbers before after).mp (by decide +kernel)
  exact ⟨by decide +kernel, hsame, by decide +kernel, by decide +kernel, hlisteners _ _ hsame,
    hrewired f before false rfl rfl rfl⟩

end Form

end SchemaForm
