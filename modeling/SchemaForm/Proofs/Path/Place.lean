import SchemaForm.Path.Location
import SchemaForm.Proofs.Dictionary

set_option autoImplicit false
set_option relaxedAutoImplicit false

/-!
Places of a document. A place says of every step whether it goes to an item of an array or to a
member of an object. A path that was read from its flat form and leads to a value means one place,
and writing at the path replaces the value at that place: below it there is what the new value has,
beside it nothing changes, and above it only the values that hold the place do.
-/

namespace SchemaForm

/-- A step down into a value. -/
inductive Step where
  | item (position : Nat)
  | member (name : String)
  deriving DecidableEq

abbrev Place := List Step

/-- A place is at or below another one, or properly above it, or beside it. -/
theorem Place.below_or_above_or_beside (base l : Place) :
    (∃ rest, l = base ++ rest) ∨ (∃ s rest, base = l ++ s :: rest) ∨
      (¬ base <+: l ∧ ¬ l <+: base) := by
  by_cases hbelow : base <+: l
  · obtain ⟨rest, rfl⟩ := hbelow
    exact .inl ⟨rest, rfl⟩
  · by_cases habove : l <+: base
    · obtain ⟨rest, rfl⟩ := habove
      cases rest with
      | nil => exact absurd (by simp) hbelow
      | cons s rest => exact .inr (.inl ⟨s, rest, rfl⟩)
    · exact .inr (.inr ⟨hbelow, habove⟩)

namespace Json

def below? : Json → Step → Option Json
  | .array items, .item n => items[n]?
  | .object members, .member name => Dictionary.get? members name
  | _, _ => none

def at? : Json → Place → Option Json
  | v, [] => some v
  | v, s :: l => (v.below? s).bind fun c => c.at? l

/-- The value with another value one step down. -/
def putBelow : Json → Step → Json → Json
  | .array items, .item n, c => .array (items.set n c)
  | .object members, .member name, c => .object (Dictionary.insert members name c)
  | v, _, _ => v

/-- The value with a new value at a place that it has. -/
def replaceAt (new : Json) : Json → Place → Json
  | _, [] => new
  | v, s :: l =>
    match v.below? s with
    | some c => v.putBelow s (replaceAt new c l)
    | none => v

theorem at?_cons (v : Json) (s : Step) (l : Place) :
    v.at? (s :: l) = (v.below? s).bind fun c => c.at? l := rfl

theorem at?_append (v : Json) (l l' : Place) :
    v.at? (l ++ l') = (v.at? l).bind fun c => c.at? l' := by
  induction l generalizing v with
  | nil => rfl
  | cons s l ih =>
    rw [List.cons_append, at?_cons, at?_cons]
    cases v.below? s with
    | none => rfl
    | some c => exact ih c

theorem at?_append_of_some {v c : Json} {l : Place} (hleads : v.at? l = some c) (l' : Place) :
    v.at? (l ++ l') = c.at? l' := by
  rw [at?_append, hleads, Option.bind_some]

theorem below?_member (v : Json) (name : String) : v.below? (.member name) = v.get? name := by
  cases v <;> rfl

theorem get?_of_rows_ne_nil {v : Json} {id : String} (hrows : v.rows id ≠ []) :
    v.get? id = some (.array (v.rows id)) := by
  unfold rows at hrows ⊢
  cases hvalue : v.get? id with
  | none => simp [hvalue] at hrows
  | some w => cases w <;> simp_all [items?]

/-! ### Replacing the value at a place -/

theorem below?_putBelow {v c : Json} {s : Step} (hpresent : v.below? s = some c) (new : Json)
    (s' : Step) : (v.putBelow s new).below? s' = if s = s' then some new else v.below? s' := by
  cases v with
  | array items =>
    cases s with
    | member name => cases hpresent
    | item n =>
      obtain ⟨hbound, -⟩ := List.getElem?_eq_some_iff.mp hpresent
      cases s' with
      | member name => rw [if_neg (by simp)]; rfl
      | item m => grind [putBelow, below?]
  | object members =>
    cases s with
    | item n => cases hpresent
    | member name =>
      cases s' with
      | item m => rw [if_neg (by simp)]; rfl
      | member other => simp only [putBelow, below?, Dictionary.get?_insert, Step.member.injEq]
  | _ => cases hpresent

theorem replaceAt_cons {v c : Json} {s : Step} (hpresent : v.below? s = some c) (new : Json)
    (l : Place) : replaceAt new v (s :: l) = v.putBelow s (replaceAt new c l) := by
  simp only [replaceAt, hpresent]

theorem at?_replaceAt_above {doc v : Json} {l : Place} (hleads : doc.at? l = some v) (new : Json)
    (rest : Place) : (replaceAt new doc (l ++ rest)).at? l = some (replaceAt new v rest) := by
  induction l generalizing doc with
  | nil =>
    cases hleads
    rfl
  | cons s l ih =>
    obtain ⟨c, hbelow, hleads⟩ := Option.bind_eq_some_iff.mp hleads
    rw [List.cons_append, replaceAt_cons hbelow, at?_cons, below?_putBelow hbelow, if_pos rfl]
    exact ih hleads

theorem at?_replaceAt_below {doc old : Json} {l : Place} (hleads : doc.at? l = some old)
    (new : Json) (rest : Place) : (replaceAt new doc l).at? (l ++ rest) = new.at? rest := by
  have hthere := at?_replaceAt_above hleads new []
  rw [List.append_nil] at hthere
  exact at?_append_of_some hthere rest

theorem at?_replaceAt_beside {doc old : Json} {l l' : Place} (hleads : doc.at? l = some old)
    (new : Json) (hbeside : ¬ l <+: l') (hbeside' : ¬ l' <+: l) :
    (replaceAt new doc l).at? l' = doc.at? l' := by
  induction l generalizing doc l' with
  | nil => exact absurd List.nil_prefix hbeside
  | cons s l ih =>
    obtain ⟨c, hbelow, hleads⟩ := Option.bind_eq_some_iff.mp hleads
    cases l' with
    | nil => exact absurd List.nil_prefix hbeside'
    | cons s' l' =>
      rw [replaceAt_cons hbelow, at?_cons, at?_cons, below?_putBelow hbelow]
      split
      · rename_i hsame
        subst hsame
        rw [List.cons_prefix_cons] at hbeside hbeside'
        rw [hbelow]
        exact ih hleads (by simpa using hbeside) (by simpa using hbeside')
      · rfl

/-! ### The place that a path means -/

/-- The step that a segment means in a value. -/
def stepOf : Json → Segment → Step
  | .array _, .index n => .item n
  | _, s => .member s.text

def placeOf : Json → List Segment → Place
  | _, [] => []
  | v, s :: rest => v.stepOf s :: placeOf ((v.child? s).getD .null) rest

end Json

def Path.place (p : Path) (doc : Json) : Place := doc.placeOf p.segments

/-- No key of the list could be read as an index. -/
def Segment.AllRead (segments : List Segment) : Prop :=
  ∀ name, .key name ∈ segments → Segment.index? name.toList = none

theorem Path.allRead_parse (flat : String) : Segment.AllRead (Path.parse flat).segments := by
  intro name hmember
  unfold Path.parse at hmember
  split at hmember
  · cases hmember
  · obtain ⟨cs, -, hsame⟩ := List.mem_map.mp hmember
    unfold Segment.ofChars at hsame
    split at hsame
    · cases hsame
    · rename_i hunread
      cases hsame
      rwa [String.toList_ofList]

namespace Json

variable {segments : List Segment}

theorem below?_stepOf {s : Segment}
    (hread : ∀ name, s = .key name → Segment.index? name.toList = none) (v : Json) :
    v.below? (v.stepOf s) = v.child? s := by
  cases v with
  | array items =>
    cases s with
    | index n => rfl
    | key name => simp only [stepOf, below?, child?, hread name rfl, Option.bind_none]
  | _ => cases s <;> rfl

private theorem at?_placeOf (hread : Segment.AllRead segments) {v old : Json}
    (hleads : v.valueAtSegments? segments = some old) : v.at? (v.placeOf segments) = some old := by
  induction segments generalizing v with
  | nil => exact hleads
  | cons s rest ih =>
    obtain ⟨c, hchild, hleads⟩ := Option.bind_eq_some_iff.mp hleads
    have hfirst := below?_stepOf (fun name hsame => hread name (by simp [hsame])) v (s := s)
    rw [placeOf, at?_cons, hfirst, hchild, Option.getD_some, Option.bind_some]
    exact ih (fun name hmember => hread name (List.mem_cons_of_mem s hmember)) hleads

theorem putChild_eq {v c : Json} {s : Segment} (hchild : v.below? (v.stepOf s) = some c)
    (new : Json) : v.putChild s new = v.putBelow (v.stepOf s) new := by
  cases v with
  | array items =>
    cases s with
    | key name => cases hchild
    | index n =>
      obtain ⟨hbound, -⟩ := List.getElem?_eq_some_iff.mp hchild
      simp only [putChild, stepOf, putBelow, setItem, hbound, if_true]
  | object members => cases s <;> rfl
  | _ => cases s <;> cases hchild

theorem container?_of_holds {v c : Json} {s : Segment} (hchild : v.below? (v.stepOf s) = some c)
    (hholds : (∃ items, c = .array items) ∨ ∃ members, c = .object members) :
    v.container? s = some c := by
  cases v with
  | array items =>
    cases s with
    | key name => cases hchild
    | index n =>
      have hitem : items[n]? = some c := hchild
      simp only [container?, hitem]
      rcases hholds with ⟨items, rfl⟩ | ⟨members, rfl⟩ <;> rfl
  | object members =>
    have hmember : Dictionary.get? members s.text = some c := by cases s <;> exact hchild
    simp only [container?, hmember]
    rcases hholds with ⟨items, rfl⟩ | ⟨members, rfl⟩ <;> rfl
  | _ => cases s <;> cases hchild

theorem holds_of_child? {c c' : Json} {s : Segment} (hfurther : c.child? s = some c') :
    (∃ items, c = .array items) ∨ ∃ members, c = .object members := by
  cases c with
  | array items => exact .inl ⟨items, rfl⟩
  | object members => exact .inr ⟨members, rfl⟩
  | _ => cases s <;> cases hfurther

private theorem setAtSegments_eq (hread : Segment.AllRead segments) {v old : Json}
    (hleads : v.valueAtSegments? segments = some old) (new : Json) :
    setAtSegments new v segments = replaceAt new v (v.placeOf segments) := by
  induction segments generalizing v with
  | nil => rfl
  | cons s rest ih =>
    obtain ⟨c, hchild, hleads⟩ := Option.bind_eq_some_iff.mp hleads
    have hbelow : v.below? (v.stepOf s) = some c := by
      rw [below?_stepOf (fun name hsame => hread name (by simp [hsame])) v, hchild]
    have hlater : Segment.AllRead rest := fun name hmember =>
      hread name (List.mem_cons_of_mem s hmember)
    rw [placeOf, hchild, Option.getD_some, setAtSegments, putChild_eq hbelow, replaceAt_cons hbelow]
    cases rest with
    | nil => rfl
    | cons s' rest =>
      obtain ⟨c', hfurther, -⟩ := Option.bind_eq_some_iff.mp hleads
      rw [container?_of_holds hbelow (holds_of_child? hfurther), Option.getD_some, ih hlater hleads]

private theorem modifyAtSegments?_eq (hread : Segment.AllRead segments) {v old : Json}
    (hleads : v.valueAtSegments? segments = some old) (f : Json → Json) :
    modifyAtSegments? f v segments = some (replaceAt (f old) v (v.placeOf segments)) := by
  induction segments generalizing v with
  | nil =>
    cases hleads
    rfl
  | cons s rest ih =>
    obtain ⟨c, hchild, honward⟩ := Option.bind_eq_some_iff.mp hleads
    have hbelow : v.below? (v.stepOf s) = some c := by
      rw [below?_stepOf (fun name hsame => hread name (by simp [hsame])) v, hchild]
    have hlater : Segment.AllRead rest := fun name hmember =>
      hread name (List.mem_cons_of_mem s hmember)
    rw [placeOf, hchild, Option.getD_some, replaceAt_cons hbelow, modifyAtSegments?]
    cases v with
    | array items =>
      cases s with
      | key name => cases hbelow
      | index n =>
        have hitem : items[n]? = some c := hbelow
        simp only [modifyChild?, hitem, Option.bind_some, ih hlater honward, Option.map_some,
          stepOf, putBelow]
    | object members =>
      have hmember : Dictionary.get? members s.text = some c := by cases s <;> exact hbelow
      have hstep : stepOf (.object members) s = .member s.text := by cases s <;> rfl
      simp only [modifyChild?, hmember, Option.bind_some, ih hlater honward, Option.map_some, hstep,
        putBelow]
    | _ => cases s <;> cases hbelow

end Json

namespace Path

variable {p : Path} {doc old : Json}

theorem at?_place (hread : Segment.AllRead p.segments) (hleads : doc.valueAt? p = some old) :
    doc.at? (p.place doc) = some old :=
  Json.at?_placeOf hread hleads

/-- Writing at the path replaces the value at its place. -/
theorem setAt_eq_replaceAt (hread : Segment.AllRead p.segments) (hleads : doc.valueAt? p = some old)
    (new : Json) : doc.setAt p new = .replaceAt new doc (p.place doc) :=
  Json.setAtSegments_eq hread hleads new

theorem modifyAt?_eq_replaceAt (hread : Segment.AllRead p.segments)
    (hleads : doc.valueAt? p = some old) (f : Json → Json) :
    doc.modifyAt? p f = some (.replaceAt (f old) doc (p.place doc)) :=
  Json.modifyAtSegments?_eq hread hleads f

end Path

end SchemaForm
