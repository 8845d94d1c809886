import SchemaForm.Proofs.Path.Writing

set_option autoImplicit false
set_option relaxedAutoImplicit false

/-!
Reading and writing as a lens. What is written at a path is read there, whatever stood in its way.
At a path that was read from its flat form and leads to a value, writing is undone by writing the
old value, a second write forgets the first, and what is read beside the path stays as it was.
-/

namespace SchemaForm

namespace Segment

/-- The segment is the one that its text is read as. -/
def IsCanonical (s : Segment) : Prop := ofChars s.chars = s

private theorem isCanonical_ofChars (cs : List Char) : (ofChars cs).IsCanonical := by
  unfold IsCanonical
  cases hread : index? cs with
  | none =>
    have hkey : ofChars cs = .key (String.ofList cs) := by simp only [ofChars, hread]
    rw [hkey, chars, String.toList_ofList, hkey]
  | some n =>
    have hindex : ofChars cs = .index n := by simp only [ofChars, hread]
    have hbound : n < indexBound := by simpa using (Option.filter_eq_some_iff.mp hread).2
    rw [hindex]
    simp only [ofChars, index?_chars hbound]

theorem IsCanonical.unread {name : String} (h : (key name).IsCanonical) :
    index? name.toList = none := by
  unfold IsCanonical ofChars at h
  split at h
  · cases h
  · assumption

private theorem IsCanonical.eq_of_text_eq {s t : Segment} (hs : s.IsCanonical) (ht : t.IsCanonical)
    (htext : s.text = t.text) : s = t :=
  calc s = ofChars s.chars := hs.symm
    _ = ofChars t.chars := by rw [chars_eq_of_text_eq htext]
    _ = t := ht

end Segment

namespace Path

def IsCanonical (p : Path) : Prop := ∀ s ∈ p.segments, s.IsCanonical

theorem isCanonical_parse (flat : String) : (parse flat).IsCanonical := by
  intro s hs
  unfold parse at hs
  split at hs
  · cases hs
  · obtain ⟨cs, -, rfl⟩ := List.mem_map.mp hs
    exact Segment.isCanonical_ofChars cs

end Path

namespace Json

/-! ### Replacing the value at a place -/

theorem putBelow_self {v c : Json} {s : Step} (hbelow : v.below? s = some c) :
    v.putBelow s c = v := by
  cases v with
  | array items =>
    cases s with
    | member name => cases hbelow
    | item n =>
      obtain ⟨hn, rfl⟩ := List.getElem?_eq_some_iff.mp hbelow
      rw [putBelow, List.set_getElem_self]
  | object members =>
    cases s with
    | item n => cases hbelow
    | member name => rw [putBelow, Dictionary.insert_of_get? hbelow]
  | _ => rfl

theorem putBelow_putBelow (v : Json) (s : Step) (c d : Json) :
    (v.putBelow s c).putBelow s d = v.putBelow s d := by
  cases v with
  | array items =>
    cases s with
    | member name => rfl
    | item n => simp only [putBelow, List.set_set]
  | object members =>
    cases s with
    | item n => rfl
    | member name => simp only [putBelow, Dictionary.insert_insert]
  | _ => rfl

theorem putBelow_comm (v : Json) {s t : Step} (hne : s ≠ t) (c d : Json) :
    (v.putBelow s c).putBelow t d = (v.putBelow t d).putBelow s c := by
  cases v with
  | array items =>
    cases s with
    | member name => cases t <;> rfl
    | item m =>
      cases t with
      | member name => rfl
      | item n => exact congrArg array (List.set_comm c d (by simpa using hne))
  | object members =>
    cases s with
    | item m => cases t <;> rfl
    | member name =>
      cases t with
      | item n => rfl
      | member other => exact congrArg object (Dictionary.insert_comm _ (by simpa using hne) c d)
  | _ => rfl

theorem stepOf_putBelow (v : Json) (s : Step) (c : Json) (t : Segment) :
    (v.putBelow s c).stepOf t = v.stepOf t := by
  cases v <;> cases s <;> cases t <;> rfl

theorem replaceAt_self {v old : Json} {l : Place} (hleads : v.at? l = some old) :
    replaceAt old v l = v := by
  induction l generalizing v with
  | nil =>
    cases hleads
    rfl
  | cons s l ih =>
    obtain ⟨c, hbelow, hleads⟩ := Option.bind_eq_some_iff.mp hleads
    rw [replaceAt_cons hbelow, ih hleads, putBelow_self hbelow]

theorem replaceAt_replaceAt {v old : Json} {l : Place} (hleads : v.at? l = some old)
    (new newer : Json) : replaceAt newer (replaceAt new v l) l = replaceAt newer v l := by
  induction l generalizing v with
  | nil => rfl
  | cons s l ih =>
    obtain ⟨c, hbelow, hleads⟩ := Option.bind_eq_some_iff.mp hleads
    have hput : (v.putBelow s (replaceAt new c l)).below? s = some (replaceAt new c l) := by
      rw [below?_putBelow hbelow, if_pos rfl]
    rw [replaceAt_cons hbelow, replaceAt_cons hput, replaceAt_cons hbelow, putBelow_putBelow,
      ih hleads]

/-! ### The way to a place -/

section Segments

variable {v old : Json} {l l' : List Segment}

theorem stepOf_ne {s t : Segment} (hs : s.IsCanonical) (ht : t.IsCanonical) (hne : s ≠ t)
    (v : Json) : v.stepOf s ≠ v.stepOf t := by
  have htexts : s.text ≠ t.text := fun htext => hne (hs.eq_of_text_eq ht htext)
  cases v with
  | array items =>
    cases s with
    | key name =>
      cases t with
      | key other => simpa [stepOf] using htexts
      | index n => simp [stepOf]
    | index m =>
      cases t with
      | key other => simp [stepOf]
      | index n => simpa [stepOf] using hne
  | _ => cases s <;> cases t <;> simpa [stepOf] using htexts

theorem child?_eq_below? {s : Segment} (hs : s.IsCanonical) (v : Json) :
    v.child? s = v.below? (v.stepOf s) := by
  refine (below?_stepOf (fun name hname => ?_) v).symm
  subst hname
  exact hs.unread

theorem child?_putBelow_stepOf {s t : Segment} (hs : s.IsCanonical) (ht : t.IsCanonical)
    {c : Json} (hchild : v.child? s = some c) (new : Json) :
    (v.putBelow (v.stepOf s) new).child? t = if s = t then some new else v.child? t := by
  have hbelow : v.below? (v.stepOf s) = some c := by rw [← child?_eq_below? hs, hchild]
  rw [child?_eq_below? ht, child?_eq_below? ht, stepOf_putBelow, below?_putBelow hbelow]
  by_cases hst : s = t
  · rw [hst, if_pos rfl, if_pos rfl]
  · rw [if_neg hst, if_neg (stepOf_ne hs ht hst v)]

private theorem placeOf_cons {s : Segment} {c : Json} (hchild : v.child? s = some c) :
    v.placeOf (s :: l) = v.stepOf s :: c.placeOf l := by
  rw [placeOf, hchild, Option.getD_some]

private theorem replaceAt_placeOf_cons {s : Segment} (hs : s.IsCanonical) {c : Json}
    (hchild : v.child? s = some c) (new : Json) :
    replaceAt new v (v.placeOf (s :: l)) =
      v.putBelow (v.stepOf s) (replaceAt new c (c.placeOf l)) := by
  have hbelow : v.below? (v.stepOf s) = some c := by rw [← child?_eq_below? hs, hchild]
  rw [placeOf_cons hchild, replaceAt_cons hbelow]

private theorem placeOf_replaceAt (hl : ∀ s ∈ l, s.IsCanonical)
    (hleads : v.valueAtSegments? l = some old) (new : Json) :
    (replaceAt new v (v.placeOf l)).placeOf l = v.placeOf l := by
  induction l generalizing v with
  | nil => rfl
  | cons s l ih =>
    obtain ⟨c, hchild, hleads⟩ := Option.bind_eq_some_iff.mp hleads
    have hs := hl s List.mem_cons_self
    have hput := child?_putBelow_stepOf hs hs hchild (replaceAt new c (c.placeOf l))
    rw [if_pos rfl] at hput
    rw [replaceAt_placeOf_cons hs hchild, placeOf_cons hput, stepOf_putBelow, placeOf_cons hchild,
      ih (fun t ht => hl t (List.mem_cons_of_mem s ht)) hleads]

private theorem valueAtSegments?_replaceAt_beside (hl : ∀ s ∈ l, s.IsCanonical)
    (hl' : ∀ s ∈ l', s.IsCanonical) (hleads : v.valueAtSegments? l = some old)
    (hbeside : ¬ l <+: l') (hbeside' : ¬ l' <+: l) (new : Json) :
    (replaceAt new v (v.placeOf l)).valueAtSegments? l' = v.valueAtSegments? l' := by
  induction l generalizing v l' with
  | nil => exact absurd List.nil_prefix hbeside
  | cons s l ih =>
    cases l' with
    | nil => exact absurd List.nil_prefix hbeside'
    | cons t l' =>
      rw [List.cons_prefix_cons] at hbeside hbeside'
      obtain ⟨c, hchild, hleads⟩ := Option.bind_eq_some_iff.mp hleads
      have hs := hl s List.mem_cons_self
      have ht := hl' t List.mem_cons_self
      rw [replaceAt_placeOf_cons hs hchild, valueAtSegments?, child?_putBelow_stepOf hs ht hchild,
        valueAtSegments?]
      by_cases hst : s = t
      · subst hst
        rw [if_pos rfl, hchild]
        exact ih (fun u hu => hl u (List.mem_cons_of_mem s hu))
          (fun u hu => hl' u (List.mem_cons_of_mem s hu)) hleads (fun h => hbeside ⟨rfl, h⟩)
          fun h => hbeside' ⟨rfl, h⟩
      · rw [if_neg hst]

end Segments

/-! ### Changing in place -/

/-- The step that reading takes: in an array a numeral is as good as an index. -/
def readStep : Json → Segment → Step
  | .array _, .index n => .item n
  | .array _, .key name =>
    match Segment.index? name.toList with
    | some n => .item n
    | none => .member name
  | _, s => .member s.text

/-- The place at which reading a list of segments arrives. -/
def readPlace : Json → List Segment → Place
  | _, [] => []
  | v, s :: l => v.readStep s :: readPlace ((v.child? s).getD .null) l

private theorem below?_readStep (v : Json) (s : Segment) :
    v.below? (v.readStep s) = v.child? s := by
  cases v with
  | array items =>
    cases s with
    | index n => rfl
    | key name =>
      simp only [readStep, child?]
      cases Segment.index? name.toList <;> rfl
  | _ => cases s <;> rfl

theorem readStep_eq_stepOf {s : Segment} (hs : s.IsCanonical) (v : Json) :
    v.readStep s = v.stepOf s := by
  cases v with
  | array items =>
    cases s with
    | index n => rfl
    | key name => simp only [readStep, stepOf, hs.unread, Segment.text_key]
  | _ => cases s <;> rfl

theorem at?_readPlace (v : Json) (l : List Segment) :
    v.at? (v.readPlace l) = v.valueAtSegments? l := by
  induction l generalizing v with
  | nil => rfl
  | cons s l ih =>
    rw [readPlace, at?_cons, below?_readStep, valueAtSegments?]
    cases v.child? s with
    | none => rfl
    | some c => exact ih c

private theorem readStep_putBelow (v : Json) (s : Step) (c : Json) (t : Segment) :
    (v.putBelow s c).readStep t = v.readStep t := by
  cases v <;> cases s <;> cases t <;> rfl

theorem readPlace_replaceAt {v old : Json} {l : List Segment}
    (hleads : v.valueAtSegments? l = some old) (new : Json) :
    (replaceAt new v (v.readPlace l)).readPlace l = v.readPlace l := by
  induction l generalizing v with
  | nil => rfl
  | cons s l ih =>
    obtain ⟨c, hchild, hleads⟩ := Option.bind_eq_some_iff.mp hleads
    have hbelow : v.below? (v.readStep s) = some c := by rw [below?_readStep, hchild]
    have hreplaced : replaceAt new v (v.readPlace (s :: l)) =
        v.putBelow (v.readStep s) (replaceAt new c (c.readPlace l)) := by
      rw [readPlace, hchild, Option.getD_some, replaceAt_cons hbelow]
    have hput (c' : Json) : (v.putBelow (v.readStep s) c').child? s = some c' := by
      rw [← below?_readStep, readStep_putBelow, below?_putBelow hbelow, if_pos rfl]
    rw [hreplaced, readPlace, readStep_putBelow, hput, Option.getD_some, ih hleads, readPlace,
      hchild, Option.getD_some]

private theorem readStep_eq_stepOf_of_enters {v : Json} {s : Segment}
    (henters : s.isIndex = true ∨ v.items? = none) : v.readStep s = v.stepOf s := by
  cases v with
  | array items =>
    cases s with
    | index n => rfl
    | key name => rcases henters with henters | henters <;> cases henters
  | _ => cases s <;> rfl

/-- A write that goes where reading leads changes what is read there, in its place. -/
theorem setAtSegments_append_eq {v old : Json} {l : List Segment} (hwrites : v.WritesWhereRead l)
    (hleads : v.valueAtSegments? l = some old)
    (hholds : (∃ items, old = .array items) ∨ ∃ members, old = .object members) (new : Json)
    (rest : List Segment) :
    setAtSegments new v (l ++ rest) = replaceAt (setAtSegments new old rest) v (v.readPlace l) := by
  induction l generalizing v with
  | nil =>
    cases hleads
    rfl
  | cons s l ih =>
    obtain ⟨c, hchild, hleads⟩ := Option.bind_eq_some_iff.mp hleads
    obtain ⟨henters, hlater⟩ := (writesWhereRead_cons hchild).mp hwrites
    have hbelow : v.below? (v.readStep s) = some c := by rw [below?_readStep, hchild]
    have hput (c' : Json) : v.putChild s c' = v.putBelow (v.readStep s) c' := by
      rw [readStep_eq_stepOf_of_enters henters] at hbelow ⊢
      exact putChild_eq hbelow c'
    rw [List.cons_append, setAtSegments, hput,
      container?_of_child? henters hchild (holds_of_leads hleads hholds), Option.getD_some,
      ih hlater hleads, readPlace, hchild, Option.getD_some, replaceAt_cons hbelow]

theorem modifyChild?_eq (v : Json) (s : Segment) (f : Json → Option Json) :
    v.modifyChild? s f = ((v.child? s).bind f).map (v.putBelow (v.readStep s)) := by
  cases v with
  | object members =>
    rw [child?_object]
    cases s <;> rfl
  | array items =>
    cases s with
    | index n => rfl
    | key name =>
      simp only [modifyChild?, child?, readStep]
      cases Segment.index? name.toList <;> rfl
  | _ => cases s <;> rfl

theorem modifyAtSegments?_eq_map (f : Json → Json) (v : Json) (l : List Segment) :
    modifyAtSegments? f v l =
      (v.valueAtSegments? l).map fun old => replaceAt (f old) v (v.readPlace l) := by
  induction l generalizing v with
  | nil => rfl
  | cons s l ih =>
    rw [modifyAtSegments?, modifyChild?_eq, valueAtSegments?, readPlace]
    cases hchild : v.child? s with
    | none => rfl
    | some c =>
      have hbelow : v.below? (v.readStep s) = some c := by rw [below?_readStep, hchild]
      rw [Option.bind_some, Option.bind_some, Option.getD_some, ih c, Option.map_map]
      congr 1
      funext old
      exact (replaceAt_cons hbelow _ _).symm

theorem modifyAt?_getD_of_same {doc : Json} {p : Path} {f : Json → Json}
    (hsame : ∀ v, doc.valueAt? p = some v → f v = v) : (doc.modifyAt? p f).getD doc = doc := by
  rw [modifyAt?, modifyAtSegments?_eq_map]
  cases hleads : doc.valueAtSegments? p.segments with
  | none => rfl
  | some v =>
    rw [Option.map_some, Option.getD_some, hsame v hleads]
    exact replaceAt_self ((at?_readPlace doc p.segments).trans hleads)

/-! ### Below the place that a path names -/

private theorem stepOf_of_below?_step {v c : Json} {s : Segment}
    (hbelow : v.below? s.step = some c) :
    v.stepOf s = s.step ∧ v.readStep s = s.step := by
  cases s with
  | index n =>
    cases v with
    | array items => exact ⟨rfl, rfl⟩
    | _ => cases hbelow
  | key name =>
    cases v with
    | object members => simp [stepOf, readStep, Segment.step, Segment.text_key]
    | _ => cases hbelow

section Named

variable {v old : Json} {l : List Segment}

theorem exists_setAtSegments_eq (hat : v.at? (l.map Segment.step) = some old) (new : Json)
    (rest : List Segment) :
    ∃ new', setAtSegments new v (l ++ rest) = replaceAt new' v (l.map Segment.step) := by
  induction l generalizing v with
  | nil => exact ⟨_, rfl⟩
  | cons s l ih =>
    obtain ⟨c, hbelow, hat⟩ := Option.bind_eq_some_iff.mp hat
    have hstep := (stepOf_of_below?_step hbelow).1
    have hput (new : Json) : v.putChild s new = v.putBelow s.step new := by
      rw [putChild_eq (hstep ▸ hbelow), hstep]
    rw [List.cons_append, setAtSegments, hput]
    cases l with
    | nil => exact ⟨_, (replaceAt_cons hbelow _ []).symm⟩
    | cons t l =>
      obtain ⟨d, hfurther, -⟩ := Option.bind_eq_some_iff.mp hat
      have hholds := holds_of_child? (child?_of_below?_step hfurther)
      obtain ⟨new', hnew⟩ := ih hat
      rw [container?_of_holds (hstep ▸ hbelow) hholds, Option.getD_some, hnew]
      exact ⟨new', (replaceAt_cons hbelow _ _).symm⟩

theorem readPlace_append (hat : v.at? (l.map Segment.step) = some old) (rest : List Segment) :
    v.readPlace (l ++ rest) = l.map Segment.step ++ old.readPlace rest := by
  induction l generalizing v with
  | nil =>
    cases hat
    rfl
  | cons s l ih =>
    obtain ⟨c, hbelow, hat⟩ := Option.bind_eq_some_iff.mp hat
    rw [List.cons_append, readPlace, (stepOf_of_below?_step hbelow).2,
      child?_of_below?_step hbelow, Option.getD_some, ih hat]
    rfl

theorem exists_modifyAtSegments?_eq (hat : v.at? (l.map Segment.step) = some old)
    (f : Json → Json) (rest : List Segment) :
    ∃ new', (modifyAtSegments? f v (l ++ rest)).getD v = replaceAt new' v (l.map Segment.step) := by
  rw [modifyAtSegments?_eq_map]
  cases v.valueAtSegments? (l ++ rest) with
  | none => exact ⟨old, (replaceAt_self hat).symm⟩
  | some inner =>
    rw [Option.map_some, Option.getD_some, readPlace_append hat, replaceAt_append hat]
    exact ⟨_, rfl⟩

end Named

end Json

namespace Path

variable {p q : Path} {doc old : Json}

theorem IsCanonical.allRead (hp : p.IsCanonical) : Segment.AllRead p.segments :=
  fun _ hname => (hp _ hname).unread

private theorem place_setAt (hp : p.IsCanonical) (hleads : doc.valueAt? p = some old) (new : Json) :
    p.place (doc.setAt p new) = p.place doc := by
  rw [setAt_eq_replaceAt hp.allRead hleads]
  exact Json.placeOf_replaceAt hp hleads new

theorem setAt_setAt (hp : p.IsCanonical) (hleads : doc.valueAt? p = some old) (new newer : Json) :
    (doc.setAt p new).setAt p newer = doc.setAt p newer := by
  have hwritten : (doc.setAt p new).valueAt? p = some new := valueAt?_setAt hp.allRead hleads new
  rw [setAt_eq_replaceAt hp.allRead hwritten, place_setAt hp hleads,
    setAt_eq_replaceAt hp.allRead hleads, setAt_eq_replaceAt hp.allRead hleads,
    Json.replaceAt_replaceAt (at?_place hp.allRead hleads)]

theorem setAt_self (hp : p.IsCanonical) (hleads : doc.valueAt? p = some old) :
    doc.setAt p old = doc := by
  rw [setAt_eq_replaceAt hp.allRead hleads, Json.replaceAt_self (at?_place hp.allRead hleads)]

theorem valueAt?_setAt_beside (hp : p.IsCanonical) (hq : q.IsCanonical)
    (hleads : doc.valueAt? p = some old) (hbeside : ¬ p.segments <+: q.segments)
    (hbeside' : ¬ q.segments <+: p.segments) (new : Json) :
    (doc.setAt p new).valueAt? q = doc.valueAt? q := by
  rw [setAt_eq_replaceAt hp.allRead hleads]
  exact Json.valueAtSegments?_replaceAt_beside hp hq hleads hbeside hbeside' new

/-- Reading and writing are a lens. What is written at any path is read there, whatever containers
are met, missing or replaced. At a path that was read from its flat form and leads to a value,
writing the old value again restores the document, a second write forgets the first, and what is
read beside the path is as before. A change in place finds a value at any path where reading does,
and replaces this very value. -/
theorem reading_writing_lens (doc : Json) :
    (∀ (p : Path) (new : Json), (doc.setAt p new).valueAt? p = some new) ∧
    (∀ (flat : String) (old : Json), doc.valueAt? (parse flat) = some old → ∀ new : Json,
      let p := parse flat
      let after := doc.setAt p new
      after.setAt p old = doc ∧
      (∀ newer, after.setAt p newer = doc.setAt p newer) ∧
      ∀ flat' : String, let q := parse flat'
        ¬ p.segments <+: q.segments → ¬ q.segments <+: p.segments →
        after.valueAt? q = doc.valueAt? q) ∧
    ∀ p : Path, let place := doc.readPlace p.segments
      doc.at? place = doc.valueAt? p ∧
      ∀ f : Json → Json,
        doc.modifyAt? p f = (doc.valueAt? p).map fun old => .replaceAt (f old) doc place := by
  refine ⟨fun p new => ?_, ?_, ?_⟩
  · exact Json.valueAtSegments?_setAtSegments new doc p.segments
  · intro flat old hleads new p after
    have hp : p.IsCanonical := isCanonical_parse flat
    refine ⟨?_, setAt_setAt hp hleads new, ?_⟩
    · rw [setAt_setAt hp hleads, setAt_self hp hleads]
    · intro flat' q hbeside hbeside'
      exact valueAt?_setAt_beside hp (isCanonical_parse flat') hleads hbeside hbeside' new
  · intro p place
    refine ⟨Json.at?_readPlace doc p.segments, fun f => ?_⟩
    exact Json.modifyAtSegments?_eq_map f doc p.segments

theorem reading_writing_lens_order :
    let doc := Json.ofPairs [("lines", .array [
      .ofPairs [("item", .text "a"), ("count", .ofNat 1)], .ofPairs [("count", .ofNat 2)]])]
    let p := parse "lines.0.count"
    let after := doc.setAt p (.ofNat 7)
    doc.valueAt? p = some (.ofNat 1) ∧
      (¬ p.segments <+: (parse "lines.1.count").segments ∧
        ¬ (parse "lines.1.count").segments <+: p.segments) ∧
      after.valueAt? p = some (.ofNat 7) ∧ after.setAt p (.ofNat 1) = doc ∧
      after.setAt p (.ofNat 9) = doc.setAt p (.ofNat 9) ∧
      after.valueAt? (parse "lines.1.count") = doc.valueAt? (parse "lines.1.count") := by
  intro doc p after
  have hleads : doc.valueAt? p = some (.ofNat 1) := by decide +kernel
  have hbeside : ¬ p.segments <+: (parse "lines.1.count").segments := by decide +kernel
  have hbeside' : ¬ (parse "lines.1.count").segments <+: p.segments := by decide +kernel
  obtain ⟨hread, hlens, -⟩ := reading_writing_lens doc
  obtain ⟨hrestored, htwice, hother⟩ := hlens "lines.0.count" _ hleads (.ofNat 7)
  exact ⟨hleads, ⟨hbeside, hbeside'⟩, hread p _, hrestored, htwice _,
    hother "lines.1.count" hbeside hbeside'⟩

end Path

end SchemaForm
