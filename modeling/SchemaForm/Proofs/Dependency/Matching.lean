import SchemaForm.Dependency
import SchemaForm.Proofs.Path.Prefix

set_option autoImplicit false
set_option relaxedAutoImplicit false

/-!
Which listeners a change concerns. The graph compares flat forms; what it runs and what it removes
is told here by the segments of the paths alone. The recomputations that a change sets off come as a
sequence of calls, each on the document that the calls before it have left.
-/

namespace SchemaForm

/-- A recomputation that is called: whose it is, and the document it is given. -/
structure Call where
  listener : Listener
  recompute : Recompute
  doc : Json

/-- Going through listeners after a change at a path: those whose source leads there are called if
they recompute anything at once, one after the other. A call is given the data at the level of the
destination, the source, the document as it stands and the action, and what it answers is laid over
that level. -/
inductive Recomputes (changed : Path) (ctx : ActionContext) :
    List Listener → Json → List Call → Json → Prop where
  | done {doc : Json} : Recomputes changed ctx [] doc [] doc
  | elsewhere {l : Listener} {rest : List Listener} {doc after : Json} {calls : List Call}
      (hsource : ¬ l.source.texts <+: changed.texts)
      (hrest : Recomputes changed ctx rest doc calls after) :
      Recomputes changed ctx (l :: rest) doc calls after
  | silent {l : Listener} {rest : List Listener} {doc after : Json} {calls : List Call}
      (hsource : l.source.texts <+: changed.texts) (hnone : l.recompute = none)
      (hrest : Recomputes changed ctx rest doc calls after) :
      Recomputes changed ctx (l :: rest) doc calls after
  | called {l : Listener} {rest : List Listener} {doc after : Json} {calls : List Call}
      {f : Recompute} {answer : Option (Dictionary Json)}
      (hsource : l.source.texts <+: changed.texts) (hsome : l.recompute = some f)
      (hanswer : f (doc.valueAtOrNull l.level) l.source doc ctx = answer)
      (hrest : Recomputes changed ctx rest (answer.elim doc (l.patch doc)) calls after) :
      Recomputes changed ctx (l :: rest) doc (⟨l, f, doc⟩ :: calls) after

private theorem Listener.listensTo_iff {l : Listener} {changed : Path} (hsource : l.source.IsPlain)
    (hchanged : changed.IsPlain) :
    l.listensTo changed = true ↔ l.source.texts <+: changed.texts :=
  Path.covers_iff_texts_prefix hsource hchanged

private theorem Listener.apply_eq_elim (l : Listener) (f : Recompute) (ctx : ActionContext)
    (doc : Json) : l.apply f ctx doc =
      (f (doc.valueAtOrNull l.level) l.source doc ctx).elim doc (l.patch doc) := by
  unfold apply
  cases f (doc.valueAtOrNull l.level) l.source doc ctx <;> rfl

namespace Recomputes

variable {changed : Path} {ctx : ActionContext} {listeners : List Listener} {doc after : Json}
  {calls : List Call}

/-- There is one way to go through the listeners. -/
theorem unique (h : Recomputes changed ctx listeners doc calls after) {calls' : List Call}
    {after' : Json} (h' : Recomputes changed ctx listeners doc calls' after') :
    calls' = calls ∧ after' = after := by
  induction h generalizing calls' with
  | done =>
    cases h'
    exact ⟨rfl, rfl⟩
  | elsewhere hsource _ ih =>
    cases h' with
    | elsewhere _ hrest => exact ih hrest
    | silent hsource' => exact absurd hsource' hsource
    | called hsource' => exact absurd hsource' hsource
  | silent hsource hnone _ ih =>
    cases h' with
    | elsewhere hsource' => exact absurd hsource hsource'
    | silent _ _ hrest => exact ih hrest
    | called _ hsome =>
      rw [hnone] at hsome
      cases hsome
  | called hsource hsome hanswer _ ih =>
    cases h' with
    | elsewhere hsource' => exact absurd hsource hsource'
    | silent _ hnone =>
      rw [hsome] at hnone
      cases hnone
    | called _ hsome' hanswer' hrest =>
      rw [hsome] at hsome'
      cases hsome'
      obtain rfl := hanswer.symm.trans hanswer'
      obtain ⟨rfl, rfl⟩ := ih hrest
      exact ⟨rfl, rfl⟩

private theorem map_listener (h : Recomputes changed ctx listeners doc calls after) :
    calls.map Call.listener = (listeners.filter fun l => l.source.texts <+: changed.texts).filter
      fun l => l.recompute.isSome := by
  induction h with
  | done => rfl
  | elsewhere hsource _ ih => rw [ih, List.filter_cons_of_neg (by simpa using hsource)]
  | silent hsource hnone _ ih =>
    rw [ih, List.filter_cons_of_pos (by simpa using hsource),
      List.filter_cons_of_neg (by simp [hnone])]
  | called hsource hsome _ _ ih =>
    rw [List.map_cons, ih, List.filter_cons_of_pos (by simpa using hsource),
      List.filter_cons_of_pos (by simp [hsome])]

end Recomputes

namespace DependencyGraph

/-- All sources of the graph can be told from their flat forms. -/
def PlainSources (g : DependencyGraph) : Prop := ∀ l ∈ g.listeners, l.source.IsPlain

instance (g : DependencyGraph) : Decidable g.PlainSources :=
  inferInstanceAs (Decidable (∀ l ∈ g.listeners, l.source.IsPlain))

/-- All destinations of the graph can be told from their flat forms. -/
def PlainDests (g : DependencyGraph) : Prop := ∀ l ∈ g.listeners, l.dest.IsPlain

instance (g : DependencyGraph) : Decidable g.PlainDests :=
  inferInstanceAs (Decidable (∀ l ∈ g.listeners, l.dest.IsPlain))

/-- The listeners whose source leads to the changed path. -/
def listeningTo (g : DependencyGraph) (changed : Path) : List Listener :=
  g.listeners.filter fun l => l.source.texts <+: changed.texts

variable {g : DependencyGraph} {changed : Path}

theorem concerned_eq_listeningTo (hg : g.PlainSources) (hchanged : changed.IsPlain) :
    g.concerned changed = g.listeningTo changed := by
  refine List.filter_congr fun l hl => ?_
  rw [Bool.eq_iff_iff, decide_eq_true_iff]
  exact Listener.listensTo_iff (hg l hl) hchanged

private theorem settle_cons (l : Listener) (rest : List Listener) (changed : Path)
    (ctx : ActionContext) (doc : Json) :
    settle ⟨l :: rest⟩ changed ctx doc =
      settle ⟨rest⟩ changed ctx
        (if l.listensTo changed then (l.recompute.map fun f => l.apply f ctx doc).getD doc
          else doc) := by
  unfold settle concerned
  by_cases hlistens : l.listensTo changed = true
  · simp only [List.filter_cons, hlistens, if_true, List.foldl_cons]
    cases l.recompute <;> rfl
  · simp only [List.filter_cons, hlistens, if_false, Bool.false_eq_true]

theorem exists_recomputes (hg : g.PlainSources) (hchanged : changed.IsPlain) (ctx : ActionContext)
    (doc : Json) :
    ∃ calls, Recomputes changed ctx g.listeners doc calls (g.settle changed ctx doc) := by
  obtain ⟨listeners⟩ := g
  induction listeners generalizing doc with
  | nil => exact ⟨[], .done⟩
  | cons l rest ih =>
    have ih (doc : Json) := ih doc fun other hother => hg other (List.mem_cons_of_mem l hother)
    have hiff := Listener.listensTo_iff (hg l List.mem_cons_self) hchanged
    rw [settle_cons]
    by_cases hsource : l.source.texts <+: changed.texts
    · rw [if_pos (hiff.mpr hsource)]
      cases hrecompute : l.recompute with
      | none =>
        obtain ⟨calls, hrest⟩ := ih doc
        exact ⟨calls, .silent hsource hrecompute hrest⟩
      | some f =>
        rw [Option.map_some, Option.getD_some, Listener.apply_eq_elim]
        obtain ⟨calls, hrest⟩ := ih _
        exact ⟨_, .called hsource hrecompute rfl hrest⟩
    · rw [if_neg (mt hiff.mp hsource)]
      obtain ⟨calls, hrest⟩ := ih doc
      exact ⟨calls, .elsewhere hsource hrest⟩

private theorem remove_eq (hg : g.PlainDests) {d : Path} (hd : d.IsPlain) :
    g.remove d = (g.listeners.countP fun l => d.texts <+: l.dest.texts,
      ⟨g.listeners.filter fun l => ¬ d.texts <+: l.dest.texts⟩) := by
  have hkept : (g.listeners.filter fun l => !d.covers l.dest) =
      g.listeners.filter fun l => ¬ d.texts <+: l.dest.texts := by
    refine List.filter_congr fun l hl => ?_
    rw [Bool.eq_iff_iff, Bool.not_eq_true', decide_eq_true_iff, ← Bool.not_eq_true,
      Path.covers_iff_texts_prefix hd (hg l hl)]
  have hcount := List.length_eq_countP_add_countP (l := g.listeners)
    fun l => decide (d.texts <+: l.dest.texts)
  rw [remove, hkept, ← List.countP_eq_length_filter, hcount]
  simp

/-- Matching is by segments. Of paths without empty or dotted keys one covers another exactly if the
texts of its segments begin those of the other. So, in a graph over such paths, a change calls the
recomputations of exactly the listeners whose source leads to it, at once and deferred, in the order
of registration and at once on the document that the calls before have left; and removing at a path
takes out and counts exactly the listeners whose destination this path leads to, and keeps the
others in order. -/
theorem matching_by_segments :
    (∀ p q : Path, p.IsPlain → q.IsPlain → (p.covers q = true ↔ p.texts <+: q.texts)) ∧
    ∀ g : DependencyGraph, g.PlainSources → g.PlainDests → ∀ p : Path, p.IsPlain →
      (∀ (ctx : ActionContext) (doc : Json),
        (∃ calls, (∀ calls' after, Recomputes p ctx g.listeners doc calls' after ↔
            calls' = calls ∧ after = g.settle p ctx doc) ∧
          calls.map Call.listener = (g.listeningTo p).filter fun l => l.recompute.isSome) ∧
        g.deferred p ctx doc = (g.listeningTo p).filterMap fun l => l.defer? doc ctx) ∧
      g.remove p = (g.listeners.countP fun l => p.texts <+: l.dest.texts,
        ⟨g.listeners.filter fun l => ¬ p.texts <+: l.dest.texts⟩) := by
  refine ⟨fun p q hp hq => Path.covers_iff_texts_prefix hp hq, fun g hsources hdests p hp => ?_⟩
  refine ⟨fun ctx doc => ⟨?_, ?_⟩, remove_eq hdests hp⟩
  · obtain ⟨calls, hcalls⟩ := exists_recomputes hsources hp ctx doc
    refine ⟨calls, fun calls' after => ⟨fun h => hcalls.unique h, ?_⟩, hcalls.map_listener⟩
    rintro ⟨rfl, rfl⟩
    exact hcalls
  · rw [deferred, concerned_eq_listeningTo hsources hp]

/-- A change in the second row of an order calls what listens to this row and to all rows, and not
what listens to the eleventh row. -/
theorem matching_by_segments_rows :
    let mark : Recompute := fun _ source _ _ => some [("changed", .text source.flat)]
    let onChange (source dest : String) : Listener := ⟨.parse source, .parse dest, some mark, none⟩
    let g : DependencyGraph := ⟨[onChange "rows.1.count" "rows.1.changed",
      onChange "rows.10" "rows.10.changed", onChange "rows" "changed"]⟩
    let p := Path.parse "rows.1.count"
    let row := Path.parse "rows.1"
    (row.IsPlain ∧ p.IsPlain ∧ g.PlainSources ∧ g.PlainDests) ∧
      row.covers p = true ∧ row.covers (.parse "rows.10") = false ∧
      (∀ (ctx : ActionContext) (doc : Json), ∃ calls,
        Recomputes p ctx g.listeners doc calls (g.settle p ctx doc) ∧
        calls.map (fun call => call.listener.dest.flat) = ["rows.1.changed", "changed"]) ∧
      (g.remove row).1 = 1 ∧
      (g.remove row).2.listeners.map (fun l => l.dest.flat) = ["rows.10.changed", "changed"] := by
  intro mark onChange g p row
  have hplain : row.IsPlain ∧ p.IsPlain ∧ g.PlainSources ∧ g.PlainDests := by decide +kernel
  obtain ⟨hrow, hp, hsources, hdests⟩ := hplain
  have hother : (Path.parse "rows.10").IsPlain := by decide +kernel
  obtain ⟨hcovers, hgraph⟩ := matching_by_segments
  refine ⟨⟨hrow, hp, hsources, hdests⟩, (hcovers row p hrow hp).mpr (by decide +kernel),
    Bool.eq_false_iff.mpr (mt (hcovers row _ hrow hother).mp (by decide +kernel)),
    fun ctx doc => ?_, ?_⟩
  · obtain ⟨⟨calls, hcalls, hlisteners⟩, -⟩ := (hgraph g hsources hdests p hp).1 ctx doc
    refine ⟨calls, (hcalls _ _).mpr ⟨rfl, rfl⟩, ?_⟩
    have hdestinations := congrArg (List.map fun l : Listener => l.dest.flat) hlisteners
    rw [List.map_map] at hdestinations
    refine hdestinations.trans ?_
    decide +kernel
  · rw [(hgraph g hsources hdests row hrow).2]
    decide +kernel

end DependencyGraph

end SchemaForm
