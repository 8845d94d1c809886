import SchemaForm.Proofs.Path.Collection
import SchemaForm.Proofs.Path.Spelling

set_option autoImplicit false
set_option relaxedAutoImplicit false

/-!
Writing at and below a path of any spelling. What is written at a path is read there afterwards. A
write further down goes on from what the path leads to as long as the path enters arrays by indices;
where it enters one by a numeral, the array is read and gives way to the write.
-/

namespace SchemaForm

/-- The step that a segment asks for. -/
def Segment.step : Segment → Step
  | .key name => .member name
  | .index n => .item n

def Path.steps (p : Path) : Place := p.segments.map Segment.step

theorem Path.steps_child (p : Path) (s : Segment) : (p.child s).steps = p.steps ++ [s.step] :=
  List.map_append

theorem Path.cell_eq (p : Path) (n : Nat) (column : String) :
    (p.index n).key column = ⟨p.segments ++ [.index n, .key column]⟩ := by
  simp [key, index, child]

namespace Json

/-- A write along the segments goes where reading them leads: the arrays on the way are entered by
an index. -/
def WritesWhereRead : Json → List Segment → Prop
  | _, [] => True
  | v, s :: l =>
    (s.isIndex = true ∨ v.items? = none) ∧
      match v.child? s with
      | some c => c.WritesWhereRead l
      | none => True

section Segments

variable {v old : Json} {s : Segment} {l : List Segment}

theorem writesWhereRead_cons {c : Json} (hchild : v.child? s = some c) :
    v.WritesWhereRead (s :: l) ↔ (s.isIndex = true ∨ v.items? = none) ∧ c.WritesWhereRead l := by
  rw [WritesWhereRead, hchild]

private theorem isIndex_or_items?_putChild (v : Json) (s : Segment) (c : Json) :
    s.isIndex = true ∨ (v.putChild s c).items? = none := by
  cases s with
  | index n => exact .inl rfl
  | key name => cases v <;> exact .inr rfl

theorem container?_of_child? {c : Json} (hstep : s.isIndex = true ∨ v.items? = none)
    (hchild : v.child? s = some c)
    (hholds : (∃ items, c = .array items) ∨ ∃ members, c = .object members) :
    v.container? s = some c := by
  cases v with
  | array items =>
    cases s with
    | key name => rcases hstep with hstep | hstep <;> cases hstep
    | index n => exact container?_of_holds (v := .array items) (s := .index n) hchild hholds
  | object members =>
    rw [child?_object] at hchild
    cases s <;> exact container?_of_holds (v := .object members) hchild hholds
  | _ => cases s <;> cases hchild

/-! ### Writing -/

theorem valueAtSegments?_setAtSegments (new v : Json) (l : List Segment) :
    (setAtSegments new v l).valueAtSegments? l = some new := by
  induction l generalizing v with
  | nil => rfl
  | cons s l ih =>
    rw [setAtSegments, valueAtSegments?, child?_putChild, Option.bind_some]
    exact ih _

theorem writesWhereRead_setAtSegments (new v : Json) (l l' : List Segment) :
    (setAtSegments new v (l ++ l')).WritesWhereRead l := by
  induction l generalizing v with
  | nil => trivial
  | cons s l ih =>
    rw [List.cons_append, setAtSegments]
    exact (writesWhereRead_cons (child?_putChild v s _)).mpr
      ⟨isIndex_or_items?_putChild v s _, ih _⟩

theorem holds_of_leads (hleads : v.valueAtSegments? l = some old)
    (hholds : (∃ items, old = .array items) ∨ ∃ members, old = .object members) :
    (∃ items, v = .array items) ∨ ∃ members, v = .object members := by
  cases l with
  | nil =>
    cases hleads
    exact hholds
  | cons s l =>
    obtain ⟨c, hchild, -⟩ := Option.bind_eq_some_iff.mp hleads
    exact holds_of_child? hchild

private theorem valueAtSegments?_setAtSegments_append (hwrites : v.WritesWhereRead l)
    (hleads : v.valueAtSegments? l = some old)
    (hholds : (∃ items, old = .array items) ∨ ∃ members, old = .object members) (new : Json)
    (l' : List Segment) : (setAtSegments new v (l ++ l')).valueAtSegments? l =
      some (setAtSegments new old l') := by
  induction l generalizing v with
  | nil =>
    cases hleads
    rfl
  | cons s l ih =>
    obtain ⟨c, hchild, hleads⟩ := Option.bind_eq_some_iff.mp hleads
    obtain ⟨hstep, hlater⟩ := (writesWhereRead_cons hchild).mp hwrites
    have hcontainer := container?_of_child? hstep hchild (holds_of_leads hleads hholds)
    rw [List.cons_append, setAtSegments, valueAtSegments?, child?_putChild, Option.bind_some,
      hcontainer, Option.getD_some]
    exact ih hlater hleads

private theorem valueAtSegments?_setAtSegments_emptyFor (new : Json) (l l' : List Segment) :
    (setAtSegments new (emptyFor (l ++ l')) (l ++ l')).valueAtSegments? l =
      some (setAtSegments new (emptyFor l') l') := by
  induction l with
  | nil => rfl
  | cons s l ih =>
    have hcontainer : (emptyFor (s :: (l ++ l'))).container? s = none := by
      cases s <;> rfl
    rw [List.cons_append, setAtSegments, valueAtSegments?, child?_putChild, Option.bind_some,
      hcontainer, Option.getD_none]
    exact ih

theorem valueAtSegments?_setAtSegments_of_not (hwrites : ¬ v.WritesWhereRead l)
    (hleads : v.valueAtSegments? l = some old) (new : Json) (l' : List Segment) :
    (setAtSegments new v (l ++ l')).valueAtSegments? l =
      some (setAtSegments new (emptyFor l') l') := by
  induction l generalizing v with
  | nil => exact absurd trivial hwrites
  | cons s l ih =>
    obtain ⟨c, hchild, hleads⟩ := Option.bind_eq_some_iff.mp hleads
    rw [writesWhereRead_cons hchild] at hwrites
    rw [List.cons_append, setAtSegments, valueAtSegments?, child?_putChild, Option.bind_some]
    by_cases hstep : s.isIndex = true ∨ v.items? = none
    · have hlater : ¬ c.WritesWhereRead l := fun hlater => hwrites ⟨hstep, hlater⟩
      have hholds : (∃ items, c = .array items) ∨ ∃ members, c = .object members := by
        cases l with
        | nil => exact absurd trivial hlater
        | cons s' l =>
          obtain ⟨c', hfurther, -⟩ := Option.bind_eq_some_iff.mp hleads
          exact holds_of_child? hfurther
      rw [container?_of_child? hstep hchild hholds, Option.getD_some]
      exact ih hlater hleads
    · -- The segment is a key and comes upon an array.
      have hcontainer : v.container? s = none := by
        cases v with
        | array items =>
          cases s with
          | key name => rfl
          | index n => exact absurd (.inl rfl) hstep
        | _ => exact absurd (.inr rfl) hstep
      rw [hcontainer, Option.getD_none]
      exact valueAtSegments?_setAtSegments_emptyFor new l l'

/-! ### Writing back what is read -/

private theorem putChild_self {c : Json} (hstep : s.isIndex = true ∨ v.items? = none)
    (hchild : v.child? s = some c) : v.putChild s c = v := by
  cases v with
  | object members =>
    rw [child?_object] at hchild
    cases s <;> exact congrArg object (Dictionary.insert_of_get? hchild)
  | array items =>
    cases s with
    | key name => rcases hstep with hstep | hstep <;> cases hstep
    | index n =>
      obtain ⟨hn, hitem⟩ := List.getElem?_eq_some_iff.mp hchild
      rw [putChild, setItem, if_pos hn, ← hitem, List.set_getElem_self]
  | _ => cases s <;> cases hchild

private theorem setAtSegments_self (hwrites : v.WritesWhereRead l)
    (hleads : v.valueAtSegments? l = some old) : setAtSegments old v l = v := by
  induction l generalizing v with
  | nil =>
    cases hleads
    rfl
  | cons s l ih =>
    obtain ⟨c, hchild, hleads⟩ := Option.bind_eq_some_iff.mp hleads
    obtain ⟨hstep, hlater⟩ := (writesWhereRead_cons hchild).mp hwrites
    have hinner : setAtSegments old ((v.container? s).getD (emptyFor l)) l = c := by
      cases l with
      | nil =>
        cases hleads
        rfl
      | cons s' l =>
        obtain ⟨c', hfurther, -⟩ := Option.bind_eq_some_iff.mp hleads
        rw [container?_of_child? hstep hchild (holds_of_child? hfurther), Option.getD_some,
          ih hlater hleads]
    rw [setAtSegments, hinner, putChild_self hstep hchild]

theorem writesWhereRead_of_allRead (hread : Segment.AllRead l)
    (hleads : v.valueAtSegments? l = some old) : v.WritesWhereRead l := by
  induction l generalizing v with
  | nil => trivial
  | cons s l ih =>
    obtain ⟨c, hchild, hleads⟩ := Option.bind_eq_some_iff.mp hleads
    refine (writesWhereRead_cons hchild).mpr
      ⟨?_, ih (fun name hname => hread name (List.mem_cons_of_mem s hname)) hleads⟩
    cases s with
    | index n => exact .inl rfl
    | key name =>
      cases v with
      | array items =>
        rw [child?, hread name List.mem_cons_self] at hchild
        cases hchild
      | _ => exact .inr rfl

/-- Writing back what is read at a path changes nothing exactly if the path writes where it
reads. -/
theorem setAt_self_iff {doc : Json} {p : Path} (hleads : doc.valueAt? p = some old) :
    doc.setAt p old = doc ↔ doc.WritesWhereRead p.segments := by
  constructor
  · intro hsame
    have hwritten := writesWhereRead_setAtSegments old doc p.segments []
    rw [List.append_nil] at hwritten
    rwa [← hsame]
  · exact fun hwrites => setAtSegments_self hwrites hleads

/-! ### Changing in place -/

private theorem exists_modifyChild? {c c' : Json} {g : Json → Option Json}
    (hchild : v.child? s = some c) (hchanged : g c = some c') :
    ∃ v', v.modifyChild? s g = some v' ∧ v'.child? s = some c' ∧
      (v'.items? = none ↔ v.items? = none) := by
  cases v with
  | object members =>
    rw [child?_object] at hchild
    refine ⟨.object (Dictionary.insert members s.text c'), ?_, ?_, Iff.rfl⟩
    · rw [modifyChild?, hchild, Option.bind_some, hchanged, Option.map_some]
    · rw [child?_object, Dictionary.get?_insert, if_pos rfl]
  | array items =>
    have hitems (held : List Json) : (array held).items? ≠ none := by simp [items?]
    cases s with
    | index n =>
      have hitem : items[n]? = some c := hchild
      obtain ⟨hn, -⟩ := List.getElem?_eq_some_iff.mp hitem
      refine ⟨.array (items.set n c'), ?_, List.getElem?_set_self hn,
        iff_of_false (hitems _) (hitems _)⟩
      simp only [modifyChild?, Option.bind_some, hitem, hchanged, Option.map_some]
    | key name =>
      obtain ⟨n, hname, hitem⟩ := Option.bind_eq_some_iff.mp hchild
      obtain ⟨hn, -⟩ := List.getElem?_eq_some_iff.mp hitem
      refine ⟨.array (items.set n c'), ?_, ?_, iff_of_false (hitems _) (hitems _)⟩
      · simp only [modifyChild?, hname, Option.bind_some, hitem, hchanged, Option.map_some]
      · rw [child?, hname, Option.bind_some, List.getElem?_set_self hn]
  | _ => cases s <;> cases hchild

theorem exists_modifyAtSegments? (hleads : v.valueAtSegments? l = some old) (f : Json → Json) :
    ∃ v', modifyAtSegments? f v l = some v' ∧ v'.valueAtSegments? l = some (f old) ∧
      (v'.WritesWhereRead l ↔ v.WritesWhereRead l) := by
  induction l generalizing v with
  | nil =>
    cases hleads
    exact ⟨_, rfl, rfl, Iff.rfl⟩
  | cons s l ih =>
    obtain ⟨c, hchild, hlater⟩ := Option.bind_eq_some_iff.mp hleads
    obtain ⟨c', hchanged, hread, hwrites⟩ := ih hlater
    obtain ⟨v', hmodified, hchild', hitems⟩ :=
      exists_modifyChild? (g := fun c => modifyAtSegments? f c l) hchild hchanged
    refine ⟨v', hmodified, ?_, ?_⟩
    · rw [valueAtSegments?, hchild', Option.bind_some, hread]
    · rw [writesWhereRead_cons hchild, writesWhereRead_cons hchild', hitems, hwrites]

end Segments

/-! ### The place that a path names -/

theorem child?_of_below?_step {v c : Json} {s : Segment} (hbelow : v.below? s.step = some c) :
    v.child? s = some c := by
  cases s with
  | index n =>
    cases v with
    | array items => exact hbelow
    | _ => cases hbelow
  | key name =>
    cases v with
    | object members =>
      rw [child?_object, Segment.text_key]
      exact hbelow
    | _ => cases hbelow

private theorem valueAtSegments?_of_at?_steps {doc v : Json} {l : List Segment}
    (hat : doc.at? (l.map Segment.step) = some v) : doc.valueAtSegments? l = some v := by
  induction l generalizing doc with
  | nil => exact hat
  | cons s l ih =>
    obtain ⟨c, hbelow, hat⟩ := Option.bind_eq_some_iff.mp hat
    rw [valueAtSegments?, child?_of_below?_step hbelow, Option.bind_some]
    exact ih hat

theorem valueAt?_of_at?_steps {doc v : Json} {p : Path} (hat : doc.at? p.steps = some v) :
    doc.valueAt? p = some v := valueAtSegments?_of_at?_steps hat

theorem writesWhereRead_of_at?_steps {doc v : Json} {l : List Segment}
    (hat : doc.at? (l.map Segment.step) = some v) : doc.WritesWhereRead l := by
  induction l generalizing doc with
  | nil => trivial
  | cons s l ih =>
    obtain ⟨c, hbelow, hat⟩ := Option.bind_eq_some_iff.mp hat
    refine (writesWhereRead_cons (child?_of_below?_step hbelow)).mpr ⟨?_, ih hat⟩
    cases s with
    | index n => exact .inl rfl
    | key name =>
      cases doc with
      | object members => exact .inr rfl
      | _ => cases hbelow

/-! ### Rows -/

section Rows

variable {doc : Json} {p : Path} {rows : List Json}

theorem valueAt?_of_rowsAt_pos (hrows : 0 < (doc.rowsAt p).length) :
    doc.valueAt? p = some (.array (doc.rowsAt p)) := by
  unfold rowsAt at hrows ⊢
  cases hvalue : doc.valueAt? p with
  | none => simp [hvalue] at hrows
  | some v => cases v <;> simp_all [items?]

theorem rowsAt_empty (p : Path) : Json.empty.rowsAt p = [] := by
  by_cases hp : p = .root
  · rw [hp]
    rfl
  · rw [rowsAt, valueAt?_empty hp]
    rfl

theorem rowsAt_setAt (doc : Json) (p : Path) (rows : List Json) :
    (doc.setAt p (.array rows)).rowsAt p = rows := by
  rw [rowsAt, valueAt?, setAt, valueAtSegments?_setAtSegments]
  rfl

theorem writesWhereRead_setAt (doc : Json) (p : Path) (new : Json) :
    (doc.setAt p new).WritesWhereRead p.segments := by
  have hwrites := writesWhereRead_setAtSegments new doc p.segments []
  rwa [List.append_nil] at hwrites

theorem valueAt?_setAt_below (hwrites : doc.WritesWhereRead p.segments)
    (hheld : doc.valueAt? p = some (.array rows)) (new : Json) (rest : List Segment) :
    (doc.setAt ⟨p.segments ++ rest⟩ new).valueAt? p =
      some (setAtSegments new (.array rows) rest) :=
  valueAtSegments?_setAtSegments_append hwrites hheld (.inl ⟨rows, rfl⟩) new rest

end Rows

end Json

end SchemaForm
