import SchemaForm.Proofs.Dependency.Matching
import SchemaForm.Proofs.Path.Lens
import SchemaForm.Reduction

set_option autoImplicit false
set_option relaxedAutoImplicit false

/-!
What setting a value leaves alone. The value itself is written at one path, and every recomputation
that is called for it lays the members of its answer over one object. What is read apart from all
of these places is read as before, and listeners elsewhere do not count.
-/

namespace SchemaForm

namespace Path

/-- Neither of the paths leads to the other, going by the texts of their segments. -/
def Apart (p q : Path) : Prop := ¬ p.texts <+: q.texts ∧ ¬ q.texts <+: p.texts

instance (p q : Path) : Decidable (p.Apart q) :=
  inferInstanceAs (Decidable (¬ p.texts <+: q.texts ∧ ¬ q.texts <+: p.texts))

theorem Apart.symm {p q : Path} (h : p.Apart q) : q.Apart p := ⟨h.2, h.1⟩

theorem texts_key (p : Path) (name : String) : (p.key name).texts = p.texts ++ [name] := by
  rw [texts, key, child, List.map_append, List.map_singleton, Segment.text_key]
  rfl

theorem IsCanonical.level {p : Path} (hp : p.IsCanonical) : p.level.IsCanonical :=
  fun s hs => hp s (List.dropLast_subset _ hs)

variable {p q : Path} {doc old : Json}

theorem valueAt?_setAt_apart (hp : p.IsCanonical) (hq : q.IsCanonical)
    (hleads : doc.valueAt? p = some old) (hapart : q.Apart p) (new : Json) :
    (doc.setAt p new).valueAt? q = doc.valueAt? q :=
  valueAt?_setAt_beside hp hq hleads (fun h => hapart.2 (h.map Segment.text))
    (fun h => hapart.1 (h.map Segment.text)) new

private theorem valueAt?_of_append {rest : List Segment} (hrest : p.segments ++ rest = q.segments)
    {v : Json} (hleads : doc.valueAt? p = some v) : doc.valueAt? q = v.valueAtSegments? rest := by
  rw [Json.valueAt?, ← hrest, Json.valueAtSegments?_append, ← Json.valueAt?, hleads]
  rfl

private theorem valueAt?_setAt_overlay (hp : p.IsCanonical) (hq : q.IsCanonical)
    {members fields : Dictionary Json} (hleads : doc.valueAt? p = some (.object members))
    (hapart : ∀ key ∈ Dictionary.keys fields, q.Apart (p.key key)) :
    (doc.setAt p (.object (Dictionary.overlay members fields))).valueAt? q = doc.valueAt? q := by
  cases fields with
  | nil =>
    have hsame : Dictionary.overlay members [] = members := rfl
    rw [hsame, setAt_self hp hleads]
  | cons field fields =>
    -- Some member is written, so the path is not one of those that lead to the object.
    have hbelow : ¬ q.segments <+: p.segments := by
      intro hbegins
      have hkey := hapart field.1 List.mem_cons_self
      rw [Apart, texts_key] at hkey
      exact hkey.1 ((hbegins.map Segment.text).trans (List.prefix_append _ _))
    by_cases habove : p.segments <+: q.segments
    · obtain ⟨rest, hrest⟩ := habove
      rw [valueAt?_of_append hrest (valueAt?_setAt hp.allRead hleads _),
        valueAt?_of_append hrest hleads]
      cases rest with
      | nil => exact absurd (by simp [← hrest]) hbelow
      | cons s rest =>
        have hother : s.text ∉ Dictionary.keys (field :: fields) := by
          intro hkey
          refine (hapart s.text hkey).2 ⟨rest.map Segment.text, ?_⟩
          rw [texts_key, texts, texts, ← hrest, List.map_append, List.append_assoc]
          rfl
        rw [Json.valueAtSegments?, Json.valueAtSegments?, Json.child?_object, Json.child?_object,
          Dictionary.get?_overlay_of_not_mem members hother]
    · exact valueAt?_setAt_beside hp hq hleads habove hbelow _

end Path

/-! ### Recomputations -/

namespace Json

/-- An object with members laid over it. Other values are left alone. -/
def layOver (fields : Dictionary Json) : Json → Json
  | .object members => .object (Dictionary.overlay members fields)
  | v => v

/-- The value with the object at the end of the segments, if one is there, laid over. -/
def layOverAt (fields : Dictionary Json) (v : Json) (l : List Segment) : Json :=
  (modifyAtSegments? (layOver fields) v l).getD v

end Json

theorem Listener.patch_eq_layOverAt (l : Listener) (doc : Json) (fields : Dictionary Json) :
    l.patch doc fields = doc.layOverAt fields l.level.segments := by
  unfold patch
  split
  · rename_i members hleads
    have hread : doc.valueAtSegments? l.level.segments = some (.object members) := hleads
    rw [Json.modifyAt?, Json.layOverAt, Json.modifyAtSegments?_eq_map,
      Json.modifyAtSegments?_eq_map, hread]
    rfl
  · rename_i hother
    refine (Json.modifyAt?_getD_of_same (p := l.level) (f := Json.layOver fields) ?_).symm
    intro v hv
    cases v with
    | object members => exact absurd hv (hother members)
    | _ => rfl

private theorem Listener.patch_of_object {l : Listener} (hl : l.level.IsCanonical) {doc : Json}
    {members : Dictionary Json} (hleads : doc.valueAt? l.level = some (.object members))
    (fields : Dictionary Json) : l.patch doc fields =
      doc.setAt l.level (.object (Dictionary.overlay members fields)) := by
  rw [Path.setAt_eq_replaceAt hl.allRead hleads, patch, hleads]
  simp only [Path.modifyAt?_eq_replaceAt hl.allRead hleads, Option.getD_some]

/-- The paths of the members that the answer of a call is laid over: none if there is no answer, or
no object at the level of the destination. -/
def Call.written (ctx : ActionContext) (c : Call) : List Path :=
  match c.doc.valueAt? c.listener.level with
  | some (.object members) =>
    let answer := c.recompute (.object members) c.listener.source c.doc ctx
    (Dictionary.keys (answer.getD [])).map c.listener.level.key
  | _ => []

private theorem Call.valueAt?_elim {c : Call} (hdest : c.listener.dest.IsCanonical) {q : Path}
    (hq : q.IsCanonical) {ctx : ActionContext} (hapart : ∀ r ∈ c.written ctx, q.Apart r)
    {answer : Option (Dictionary Json)}
    (hanswer : c.recompute (c.doc.valueAtOrNull c.listener.level) c.listener.source c.doc ctx =
      answer) :
    (answer.elim c.doc (c.listener.patch c.doc)).valueAt? q = c.doc.valueAt? q := by
  cases answer with
  | none => rfl
  | some fields =>
    rw [Option.elim_some]
    unfold written at hapart
    split at hapart
    · rename_i members hleads
      rw [Json.valueAtOrNull, hleads, Option.getD_some] at hanswer
      rw [Listener.patch_of_object hdest.level hleads]
      refine Path.valueAt?_setAt_overlay hdest.level hq hleads fun key hkey => ?_
      refine hapart _ (List.mem_map_of_mem ?_)
      rwa [hanswer, Option.getD_some]
    · rename_i hobject
      unfold Listener.patch
      split
      · rename_i members hleads
        exact absurd hleads (hobject members)
      · rfl

private theorem Recomputes.valueAt?_eq {changed : Path} {ctx : ActionContext}
    {listeners : List Listener} {doc after : Json} {calls : List Call}
    (h : Recomputes changed ctx listeners doc calls after)
    (hdests : ∀ l ∈ listeners, l.dest.IsCanonical) {q : Path} (hq : q.IsCanonical)
    (hapart : ∀ c ∈ calls, ∀ r ∈ c.written ctx, q.Apart r) :
    after.valueAt? q = doc.valueAt? q := by
  induction h with
  | done => rfl
  | elsewhere _ _ ih => exact ih (fun l hl => hdests l (List.mem_cons_of_mem _ hl)) hapart
  | silent _ _ _ ih => exact ih (fun l hl => hdests l (List.mem_cons_of_mem _ hl)) hapart
  | @called l rest doc after calls f answer _ _ hanswer _ ih =>
    rw [ih (fun l hl => hdests l (List.mem_cons_of_mem _ hl))
      fun c hc => hapart c (List.mem_cons_of_mem _ hc)]
    exact Call.valueAt?_elim (c := ⟨l, f, doc⟩) (hdests l List.mem_cons_self) hq
      (hapart _ List.mem_cons_self) hanswer

namespace DependencyGraph

/-- All destinations of the graph were read from their flat forms. -/
def ParsedDests (g : DependencyGraph) : Prop := ∀ l ∈ g.listeners, ∃ flat, l.dest = .parse flat

/-- Setting a value touches what it names. Where there was a value at the path, everything that is
read apart from it, and apart from the members that the recomputations called for it have written,
is as before. Listeners whose source does not lead to the path do not count at all. -/
theorem setValue_frame {g : DependencyGraph} (hsources : g.PlainSources) (hdests : g.ParsedDests)
    (ids : RowIds) (s : Session) {flat : String} (hp : (Path.parse flat).IsPlain) {old : Json}
    (hold : s.doc.valueAt? (.parse flat) = some old) (value : Json) :
    let p := Path.parse flat
    let action := Action.setValue p value
    let ctx : ActionContext := ⟨.setValue, p, some value, s.doc⟩
    let after := (reduce g ids s action).session.doc
    (∃ calls, Recomputes p ctx g.listeners (s.doc.setAt p value) calls after ∧
      ∀ flat' : String, let q := Path.parse flat'
        q.Apart p → (∀ c ∈ calls, ∀ r ∈ c.written ctx, q.Apart r) →
        after.valueAt? q = s.doc.valueAt? q) ∧
    ∀ g' : DependencyGraph, g'.PlainSources → g'.listeningTo p = g.listeningTo p →
      reduce g' ids s action = reduce g ids s action := by
  intro p action ctx after
  constructor
  · obtain ⟨calls, hcalls⟩ := exists_recomputes hsources hp ctx (s.doc.setAt p value)
    refine ⟨calls, hcalls, ?_⟩
    intro flat' q hapart hcallsApart
    have hq : q.IsCanonical := Path.isCanonical_parse flat'
    have hcanonical : ∀ l ∈ g.listeners, l.dest.IsCanonical := by
      intro l hl
      obtain ⟨flat, hflat⟩ := hdests l hl
      rw [hflat]
      exact Path.isCanonical_parse flat
    calc after.valueAt? q = (s.doc.setAt p value).valueAt? q :=
          hcalls.valueAt?_eq hcanonical hq hcallsApart
      _ = s.doc.valueAt? q :=
          Path.valueAt?_setAt_apart (Path.isCanonical_parse flat) hq hold hapart value
  · intro g' hsources' hlistening
    have hconcerned : g'.concerned p = g.concerned p := by
      rw [concerned_eq_listeningTo hsources' hp, concerned_eq_listeningTo hsources hp, hlistening]
    simp only [reduce, action, settle, deferred, hconcerned]

/-- The count of one row is set and its total recomputed. The total of another row stays, and the
listener on that row does not count. -/
theorem setValue_frame_rows :
    let copyCount : Recompute := fun row _ _ _ => (row.get? "count").map fun c => [("total", c)]
    let onCount (row : String) : Listener :=
      ⟨.parse (row ++ ".count"), .parse (row ++ ".total"), some copyCount, none⟩
    let g : DependencyGraph := ⟨[onCount "rows.0", onCount "rows.1"]⟩
    let doc := Json.ofPairs [("rows", .array [
      .ofPairs [("count", .ofNat 1), ("total", .ofNat 1)],
      .ofPairs [("count", .ofNat 2), ("total", .ofNat 5)]])]
    let s : Session := ⟨doc, 0⟩
    let p := Path.parse "rows.0.count"
    let q := Path.parse "rows.1.total"
    let action := Action.setValue p (.ofNat 3)
    let after (g : DependencyGraph) := reduce g ⟨1⟩ s action
    (g.PlainSources ∧ p.IsPlain ∧ q.Apart p ∧ doc.valueAt? p = some (.ofNat 1)) ∧
      (after g).session.doc.valueAt? (.parse "rows.0.total") = some (.ofNat 3) ∧
      (after g).session.doc.valueAt? q = some (.ofNat 5) ∧
      after ⟨[onCount "rows.0"]⟩ = after g := by
  intro copyCount onCount g doc s p q action after
  have hplain : g.PlainSources ∧ p.IsPlain ∧ q.Apart p := by decide +kernel
  obtain ⟨hsources, hp, hapart⟩ := hplain
  have hold : doc.valueAt? p = some (.ofNat 1) := by decide +kernel
  have hdests : g.ParsedDests := by
    intro l hl
    simp only [g, List.mem_cons, List.not_mem_nil, or_false] at hl
    rcases hl with rfl | rfl
    · exact ⟨"rows.0" ++ ".total", rfl⟩
    · exact ⟨"rows.1" ++ ".total", rfl⟩
  have hthere : (onCount "rows.0").source.texts <+: p.texts := by decide +kernel
  have helsewhere : ¬ (onCount "rows.1").source.texts <+: p.texts := by decide +kernel
  obtain ⟨⟨calls, hcalls, hframe⟩, hlisteners⟩ :=
    setValue_frame hsources hdests ⟨1⟩ s hp hold (.ofNat 3)
  have honly : Recomputes p ⟨.setValue, p, some (.ofNat 3), doc⟩ g.listeners
      (doc.setAt p (.ofNat 3)) [⟨onCount "rows.0", copyCount, doc.setAt p (.ofNat 3)⟩] _ :=
    .called hthere rfl rfl (.elsewhere helsewhere .done)
  obtain ⟨rfl, -⟩ := honly.unique hcalls
  refine ⟨⟨hsources, hp, hapart, hold⟩, by decide +kernel, ?_, ?_⟩
  · rw [hframe "rows.1.total" hapart (by decide +kernel)]
    decide +kernel
  · have hsame : listeningTo ⟨[onCount "rows.0"]⟩ p = g.listeningTo p := by
      simp [listeningTo, g, hthere, helsewhere]
    exact hlisteners _ (by decide +kernel) hsame

end DependencyGraph

end SchemaForm
