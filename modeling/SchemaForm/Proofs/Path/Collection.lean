import SchemaForm.Proofs.Path.Place

set_option autoImplicit false
set_option relaxedAutoImplicit false

/-!
Collections of a document. Where a path leads to an array, the paths of its rows lead to the items
of it, and writing below the path of a row is putting another row into the array.
-/

namespace SchemaForm

theorem Path.length_child (p : Path) (step : Segment) :
    (p.child step).segments.length = p.segments.length + 1 := by
  rw [Path.child, List.length_append, List.length_singleton]

theorem Path.ne_root_of_odd {p : Path} (hodd : p.segments.length % 2 = 1) : p ≠ .root := by
  rintro rfl
  cases hodd

namespace Json

variable {segments : List Segment}

theorem replaceAt_append {doc v : Json} {l : Place} (hleads : doc.at? l = some v) (new : Json)
    (rest : Place) : replaceAt new doc (l ++ rest) = replaceAt (replaceAt new v rest) doc l := by
  induction l generalizing doc with
  | nil =>
    cases hleads
    rfl
  | cons s l ih =>
    obtain ⟨c, hbelow, hleads⟩ := Option.bind_eq_some_iff.mp hleads
    rw [List.cons_append, replaceAt_cons hbelow, replaceAt_cons hbelow, ih hleads]

theorem valueAtSegments?_append (v : Json) (segments' : List Segment) :
    v.valueAtSegments? (segments ++ segments') =
      (v.valueAtSegments? segments).bind fun c => c.valueAtSegments? segments' := by
  induction segments generalizing v with
  | nil => rfl
  | cons s rest ih =>
    rw [List.cons_append, valueAtSegments?, valueAtSegments?]
    cases v.child? s with
    | none => rfl
    | some c => exact ih c

theorem valueAt?_child (doc : Json) (p : Path) (step : Segment) :
    doc.valueAt? (p.child step) = (doc.valueAt? p).bind fun v => v.child? step := by
  rw [valueAt?, Path.child, valueAtSegments?_append, ← valueAt?]
  congr 1
  funext v
  rw [valueAtSegments?]
  cases v.child? step <;> rfl

theorem valueAt?_empty {p : Path} (hp : p ≠ .root) : Json.empty.valueAt? p = none := by
  obtain ⟨segments⟩ := p
  cases segments with
  | nil => exact absurd rfl hp
  | cons s rest => cases s <;> rfl

theorem child?_object (members : Dictionary Json) (step : Segment) :
    (object members).child? step = Dictionary.get? members step.text := by
  cases step <;> rfl

private theorem placeOf_append {v c : Json} (hleads : v.valueAtSegments? segments = some c)
    (segments' : List Segment) :
    v.placeOf (segments ++ segments') = v.placeOf segments ++ c.placeOf segments' := by
  induction segments generalizing v with
  | nil =>
    cases hleads
    rfl
  | cons s rest ih =>
    obtain ⟨d, hchild, hleads⟩ := Option.bind_eq_some_iff.mp hleads
    rw [List.cons_append, placeOf, placeOf, hchild, Option.getD_some, ih hleads, List.cons_append]

private theorem child?_putBelow {v c : Json} {s : Segment}
    (hread : ∀ name, s = .key name → Segment.index? name.toList = none)
    (hchild : v.child? s = some c) (new : Json) :
    (v.putBelow (v.stepOf s) new).child? s = some new := by
  have hbelow : v.below? (v.stepOf s) = some c := by rw [below?_stepOf hread, hchild]
  have hput := below?_putBelow hbelow new (v.stepOf s)
  rw [if_pos rfl] at hput
  -- Putting a child there leaves an array an array and an object an object.
  have hsame : (v.putBelow (v.stepOf s) new).stepOf s = v.stepOf s := by
    cases v with
    | array items => cases s <;> rfl
    | object members => cases s <;> rfl
    | _ => cases s <;> cases hchild
  rw [← below?_stepOf hread, hsame, hput]

private theorem valueAtSegments?_replaceAt (hread : Segment.AllRead segments) {v old : Json}
    (hleads : v.valueAtSegments? segments = some old) (new : Json) :
    (replaceAt new v (v.placeOf segments)).valueAtSegments? segments = some new := by
  induction segments generalizing v with
  | nil => rfl
  | cons s rest ih =>
    obtain ⟨c, hchild, hleads⟩ := Option.bind_eq_some_iff.mp hleads
    have hfirst : ∀ name, s = .key name → Segment.index? name.toList = none :=
      fun name hsame => hread name (by simp [hsame])
    have hlater : Segment.AllRead rest := fun name hmember =>
      hread name (List.mem_cons_of_mem s hmember)
    have hbelow : v.below? (v.stepOf s) = some c := by rw [below?_stepOf hfirst, hchild]
    rw [placeOf, hchild, Option.getD_some, replaceAt_cons hbelow, valueAtSegments?,
      child?_putBelow hfirst hchild, Option.bind_some]
    exact ih hlater hleads

private theorem setAtSegments_member (hread : Segment.AllRead segments) {v : Json}
    {members : Dictionary Json} (hleads : v.valueAtSegments? segments = some (.object members))
    (name : String) (new : Json) : setAtSegments new v (segments ++ [.key name]) =
      replaceAt (.object (Dictionary.insert members name new)) v (v.placeOf segments) := by
  induction segments generalizing v with
  | nil =>
    cases hleads
    rw [List.nil_append, setAtSegments, putChild, Segment.text_key]
    rfl
  | cons s rest ih =>
    obtain ⟨c, hchild, hleads⟩ := Option.bind_eq_some_iff.mp hleads
    have hbelow : v.below? (v.stepOf s) = some c := by
      rw [below?_stepOf (fun name hsame => hread name (by simp [hsame])) v, hchild]
    have hlater : Segment.AllRead rest := fun name hmember =>
      hread name (List.mem_cons_of_mem s hmember)
    have hholds : (∃ items, c = .array items) ∨ ∃ members, c = .object members := by
      cases rest with
      | nil => exact .inr ⟨members, Option.some.inj hleads⟩
      | cons s' rest =>
        obtain ⟨c', hfurther, -⟩ := Option.bind_eq_some_iff.mp hleads
        exact holds_of_child? hfurther
    rw [List.cons_append, setAtSegments, container?_of_holds hbelow hholds, Option.getD_some,
      ih hlater hleads, placeOf, hchild, Option.getD_some, putChild_eq hbelow,
      replaceAt_cons hbelow]

end Json

namespace Path

variable {p : Path} {doc : Json}

theorem valueAt?_setAt (hread : Segment.AllRead p.segments) {old : Json}
    (hleads : doc.valueAt? p = some old) (new : Json) :
    (doc.setAt p new).valueAt? p = some new := by
  rw [setAt_eq_replaceAt hread hleads]
  exact Json.valueAtSegments?_replaceAt hread hleads new

theorem allRead_index (hread : Segment.AllRead p.segments) (n : Nat) :
    Segment.AllRead (p.index n).segments := by
  intro name hmember
  rcases List.mem_append.mp hmember with hbelow | hlast
  · exact hread name hbelow
  · cases List.mem_singleton.mp hlast

section Collection

variable {rows : List Json} (hheld : doc.valueAt? p = some (.array rows))

include hheld

theorem valueAt?_index (n : Nat) : doc.valueAt? (p.index n) = rows[n]? := by
  rw [index, Json.valueAt?_child, hheld, Option.bind_some]
  rfl

private theorem place_index (n : Nat) : (p.index n).place doc = p.place doc ++ [.item n] :=
  Json.placeOf_append hheld [.index n]

theorem replaceAt_index (hread : Segment.AllRead p.segments) {n : Nat} {row : Json}
    (hthere : rows[n]? = some row) (new : Json) :
    .replaceAt new doc ((p.index n).place doc) = doc.setAt p (.array (rows.set n new)) := by
  have hinside : Json.replaceAt new (.array rows) [.item n] = .array (rows.set n new) := by
    have hbelow : Json.below? (.array rows) (.item n) = some row := hthere
    rw [Json.replaceAt_cons hbelow]
    rfl
  rw [place_index hheld, Json.replaceAt_append (at?_place hread hheld), hinside,
    setAt_eq_replaceAt hread hheld]

theorem setAt_cell (hread : Segment.AllRead p.segments) {n : Nat} {members : Dictionary Json}
    (hthere : rows[n]? = some (.object members)) (name : String) (new : Json) :
    doc.setAt ((p.index n).key name) new =
      doc.setAt p (.array (rows.set n (.object (Dictionary.insert members name new)))) := by
  have hleads : doc.valueAt? (p.index n) = some (.object members) := by
    rw [valueAt?_index hheld, hthere]
  rw [← replaceAt_index hheld hread hthere]
  exact Json.setAtSegments_member (allRead_index hread n) hleads name new

end Collection

end Path

end SchemaForm
