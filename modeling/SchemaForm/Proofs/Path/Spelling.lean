import SchemaForm.Path.Interner
import SchemaForm.Proofs.Path.Reading

set_option autoImplicit false
set_option relaxedAutoImplicit false

/-!
The spellings of a way. Paths of one flat form count as one path wherever paths are compared. For
reading and for changing in place they are one as long as their segments have the same texts, so a
key of digits is as good as an index. Writing goes by the kind of the segments where it comes upon
an array and where it makes containers; what it takes for one spelling is told exactly here.
-/

namespace SchemaForm

namespace Segment

theorem chars_eq_of_text_eq {s t : Segment} (h : s.text = t.text) : s.chars = t.chars :=
  String.ofList_injective h

private theorem map_chars_eq_of_map_text_eq {l l' : List Segment}
    (h : l.map Segment.text = l'.map Segment.text) :
    l.map Segment.chars = l'.map Segment.chars := by
  have hlists := congrArg (List.map String.toList) h
  simpa [Function.comp_def, text] using hlists

theorem eq_of_text_eq {s t : Segment} (h : s.text = t.text) (hkind : s.isIndex = t.isIndex) :
    s = t := by
  have hchars := chars_eq_of_text_eq h
  cases s with
  | key name =>
    cases t with
    | key other => exact congrArg key (String.toList_injective hchars)
    | index n => cases hkind
  | index m =>
    cases t with
    | key other => cases hkind
    | index n => exact congrArg index (index_chars_inj hchars)

end Segment

private theorem Interner.intern_intern_of_flat_eq {p q : Path} (hflat : p.flat = q.flat)
    (i : Interner) :
    (i.intern p).2.intern q = i.intern p := by
  unfold intern
  rw [← hflat]
  cases hfound : i.find? p.flat with
  | some token => simp only [hfound]
  | none =>
    have hnone : i.paths.findIdx? (fun r => r.flat == p.flat) = none := hfound
    have hlast : (⟨i.paths ++ [p]⟩ : Interner).find? p.flat = some i.size := by
      simp [find?, List.findIdx?_append, hnone, size]
    simp only [hlast]

namespace Json

/-! ### Reading and changing in place -/

/-- A null at the end of a way of objects, and nothing beside the way. -/
def wayTo : List Segment → Json
  | [] => .null
  | s :: l => .object [(s.text, wayTo l)]

/-- Only the texts of a way lead to its end. -/
private theorem valueAtSegments?_wayTo {l l' : List Segment}
    (h : (wayTo l).valueAtSegments? l' = some .null) :
    l.map Segment.text = l'.map Segment.text := by
  induction l generalizing l' with
  | nil =>
    cases l' with
    | nil => rfl
    | cons t l' => cases t <;> cases h
  | cons s l ih =>
    cases l' with
    | nil => cases h
    | cons t l' =>
      obtain ⟨c, hchild, hlater⟩ := Option.bind_eq_some_iff.mp h
      have hmember : Dictionary.get? [(s.text, wayTo l)] t.text = some c := by
        cases t <;> exact hchild
      rw [Dictionary.get?_cons] at hmember
      split at hmember
      · rename_i htext
        cases hmember
        rw [List.map_cons, List.map_cons, htext, ih hlater]
      · cases hmember

private theorem valueAtSegments?_wayTo_self (l : List Segment) :
    (wayTo l).valueAtSegments? l = some .null := by
  induction l with
  | nil => rfl
  | cons s l ih =>
    have hchild : (wayTo (s :: l)).child? s = some (wayTo l) := by
      have hmember : Dictionary.get? [(s.text, wayTo l)] s.text = some (wayTo l) := if_pos rfl
      cases s <;> exact hmember
    rw [valueAtSegments?, hchild]
    exact ih

private theorem modifyChild?_eq_of_chars_eq {s t : Segment} (hs : s.InRange) (ht : t.InRange)
    (hchars : s.chars = t.chars) (v : Json) : v.modifyChild? s = v.modifyChild? t := by
  have htext : s.text = t.text := congrArg String.ofList hchars
  funext f
  cases v with
  | object members => simp only [modifyChild?, htext]
  | array items =>
    cases s with
    | key name =>
      cases t with
      | key other =>
        have hsame : name = other := String.toList_injective hchars
        rw [hsame]
      | index n =>
        have hkey : name.toList = (Segment.index n).chars := hchars
        simp only [modifyChild?, hkey, Segment.index?_chars ht]
    | index m =>
      cases t with
      | key other =>
        have hkey : other.toList = (Segment.index m).chars := hchars.symm
        simp only [modifyChild?, hkey, Segment.index?_chars hs]
      | index n => rw [Segment.index_chars_inj hchars]
  | _ => rfl

private theorem modifyAtSegments?_eq_of_chars_eq {l l' : List Segment} (hl : ∀ s ∈ l, s.InRange)
    (hl' : ∀ s ∈ l', s.InRange) (hchars : l.map Segment.chars = l'.map Segment.chars)
    (f : Json → Json) (v : Json) : modifyAtSegments? f v l = modifyAtSegments? f v l' := by
  induction l generalizing l' v with
  | nil =>
    cases l' with
    | nil => rfl
    | cons t l' => cases hchars
  | cons s l ih =>
    cases l' with
    | nil => cases hchars
    | cons t l' =>
      obtain ⟨hfirst, hrest⟩ := List.cons.inj hchars
      have hchild := modifyChild?_eq_of_chars_eq (hl s List.mem_cons_self)
        (hl' t List.mem_cons_self) hfirst v
      have hlater (c : Json) : modifyAtSegments? f c l = modifyAtSegments? f c l' :=
        ih (fun u hu => hl u (List.mem_cons_of_mem s hu))
          (fun u hu => hl' u (List.mem_cons_of_mem t hu)) hrest c
      simp only [modifyAtSegments?, hchild, hlater]

/-! ### Writing -/

theorem child?_putChild (v : Json) (s : Segment) (c : Json) :
    (v.putChild s c).child? s = some c := by
  have hfresh : Dictionary.get? [(s.text, c)] s.text = some c := if_pos rfl
  cases v with
  | object members =>
    have hwritten : Dictionary.get? (Dictionary.insert members s.text c) s.text = some c := by
      rw [Dictionary.get?_insert, if_pos rfl]
    cases s <;> exact hwritten
  | array items =>
    cases s with
    | key name => exact hfresh
    | index n =>
      have hitem : (setItem items n c)[n]? = some c := by
        unfold setItem
        split
        · rename_i hn
          rw [List.getElem?_set_self hn]
        · rename_i hn
          have hlength : (items ++ List.replicate (n - items.length) Json.null).length = n := by
            rw [List.length_append, List.length_replicate]
            omega
          rw [List.getElem?_append_right (by omega), hlength, Nat.sub_self]
          rfl
      exact hitem
  | _ => cases s <;> exact hfresh

private theorem putChild_inj {v : Json} {s : Segment} {c d : Json} :
    v.putChild s c = v.putChild s d ↔ c = d := by
  constructor
  · intro h
    have hread := congrArg (fun w => w.child? s) h
    simpa only [child?_putChild, Option.some.injEq] using hread
  · rintro rfl
    rfl

private theorem putChild_eq_of_text_eq {v : Json} (hv : v.items? = none) {s t : Segment}
    (h : s.text = t.text) : v.putChild s = v.putChild t ∧ v.container? s = v.container? t := by
  cases v with
  | array items => cases hv
  | object members =>
    refine ⟨funext fun c => ?_, ?_⟩
    · cases s <;> cases t <;> simp only [putChild, h]
    · cases s <;> cases t <;> simp only [container?, h]
  | _ =>
    refine ⟨funext fun c => ?_, ?_⟩
    · cases s <;> cases t <;> simp only [putChild, h]
    · cases s <;> cases t <;> rfl

theorem setAtSegments_emptyFor_cons (new : Json) (s : Segment) (l : List Segment) :
    setAtSegments new (emptyFor (s :: l)) (s :: l) =
      match s with
      | .index n => .array (List.replicate n .null ++ [setAtSegments new (emptyFor l) l])
      | .key name => .object [(name, setAtSegments new (emptyFor l) l)] := by
  cases s with
  | index n => simp [setAtSegments, emptyFor, putChild, container?, setItem]
  | key name =>
    simp [setAtSegments, emptyFor, putChild, container?, Segment.text_key, Dictionary.insert,
      Dictionary.has, Dictionary.place]

/-- Where there is nothing, a write tells its way: by the containers it makes. -/
private theorem eq_of_setAtSegments_emptyFor {new : Json} {l l' : List Segment}
    (h : l.length = l'.length ∨ new = .null)
    (hsame : setAtSegments new (emptyFor l) l = setAtSegments new (emptyFor l') l') : l = l' := by
  induction l generalizing l' with
  | nil =>
    cases l' with
    | nil => rfl
    | cons t l' =>
      have hnew : new = .null := h.resolve_left (by simp)
      rw [hnew, setAtSegments_emptyFor_cons] at hsame
      cases t <;> cases hsame
  | cons s l ih =>
    cases l' with
    | nil =>
      have hnew : new = .null := h.resolve_left (by simp)
      rw [hnew, setAtSegments_emptyFor_cons] at hsame
      cases s <;> cases hsame
    | cons t l' =>
      have hlater : l.length = l'.length ∨ new = .null := h.imp_left (by simp)
      rw [setAtSegments_emptyFor_cons, setAtSegments_emptyFor_cons] at hsame
      cases s with
      | key name =>
        cases t with
        | index n => cases hsame
        | key other =>
          simp only [object.injEq, List.cons.injEq, Prod.mk.injEq, and_true] at hsame
          obtain ⟨rfl, hinner⟩ := hsame
          rw [ih hlater hinner]
      | index m =>
        cases t with
        | key other => cases hsame
        | index n =>
          have hitems := array.inj hsame
          have hcount : m = n := by simpa using congrArg List.length hitems
          subst hcount
          have hinner := List.cons.inj (List.append_cancel_left hitems)
          rw [ih hlater hinner.1]

/-- A write takes two spellings of a way for one: wherever it comes upon an array they have the same
segment, and they are the same from where on it has to make the containers. -/
def WritesAlike : Json → List Segment → List Segment → Prop
  | _, [], [] => True
  | v, s :: l, t :: l' =>
    (s = t ∨ v.items? = none) ∧
      match v.container? s with
      | some c => c.WritesAlike l l'
      | none => l = l'
  | _, _, _ => False

private theorem setAtSegments_eq_iff {l l' : List Segment}
    (htexts : l.map Segment.text = l'.map Segment.text) (new v : Json) :
    setAtSegments new v l = setAtSegments new v l' ↔ v.WritesAlike l l' := by
  induction l generalizing l' v with
  | nil =>
    cases l' with
    | nil => exact iff_of_true rfl trivial
    | cons t l' => cases htexts
  | cons s l ih =>
    cases l' with
    | nil => cases htexts
    | cons t l' =>
      obtain ⟨htext, hrest⟩ := List.cons.inj htexts
      have hlength : l.length = l'.length := by simpa using congrArg List.length hrest
      by_cases hstep : s = t ∨ v.items? = none
      · -- The step is the same for both, so what counts is the rest of the way.
        obtain ⟨hput, hcontainer⟩ :
            v.putChild s = v.putChild t ∧ v.container? s = v.container? t := by
          rcases hstep with rfl | hv
          · exact ⟨rfl, rfl⟩
          · exact putChild_eq_of_text_eq hv htext
        rw [setAtSegments, setAtSegments, ← hput, ← hcontainer, putChild_inj, WritesAlike,
          and_iff_right hstep]
        cases v.container? s with
        | some c => exact ih hrest c
        | none =>
          refine ⟨eq_of_setAtSegments_emptyFor (.inl hlength), ?_⟩
          rintro rfl
          rfl
      · -- One of them is the index of an item, for the other the array gives way to an object.
        have hkinds : s.isIndex ≠ t.isIndex := fun hkind =>
          hstep (.inl (Segment.eq_of_text_eq htext hkind))
        refine iff_of_false (fun hsame => ?_) fun halike => hstep halike.1
        cases v with
        | array items =>
          rw [setAtSegments, setAtSegments] at hsame
          cases s with
          | key name =>
            cases t with
            | key other => exact hkinds rfl
            | index n => cases hsame
          | index m =>
            cases t with
            | key other => cases hsame
            | index n => exact hkinds rfl
        | _ => exact hstep (.inr rfl)

private theorem setAtSegments_empty_array (new : Json) (l : List Segment) :
    setAtSegments new (.array []) l = setAtSegments new (emptyFor l) l := by
  cases l with
  | nil => rfl
  | cons s l =>
    cases s with
    | index n => rfl
    | key name => rfl

end Json

namespace Path

def texts (p : Path) : List String := p.segments.map Segment.text

def InRange (p : Path) : Prop := ∀ s ∈ p.segments, s.InRange

instance (p : Path) : Decidable p.InRange :=
  inferInstanceAs (Decidable (∀ s ∈ p.segments, s.InRange))

/-- Two paths of one flat form have one token. They have the same texts if these have no dots and
not just one of the two is the root. Exactly if they have the same texts, they read the same in
every document; then they also change the same in place, and in a given document they write the
same if and only if the write takes them for one spelling. Only a path itself writes the same in
every document. -/
theorem one_location_iff {p q : Path} (hp : p.InRange) (hq : q.InRange) (hflat : p.flat = q.flat) :
    (∀ i : Interner, (i.intern p).2.intern q = i.intern p) ∧
    ((∀ text ∈ p.texts ++ q.texts, '.' ∉ text.toList) → p.isRoot = q.isRoot →
      p.texts = q.texts) ∧
    ((∀ doc : Json, doc.valueAt? p = doc.valueAt? q) ↔ p.texts = q.texts) ∧
    (p.texts = q.texts → ∀ (doc : Json) (f : Json → Json), doc.modifyAt? p f = doc.modifyAt? q f) ∧
    (p.texts = q.texts → ∀ doc new : Json,
      doc.setAt p new = doc.setAt q new ↔ doc.WritesAlike p.segments q.segments) ∧
    ((∀ doc new : Json, doc.setAt p new = doc.setAt q new) ↔ p = q) := by
  refine ⟨Interner.intern_intern_of_flat_eq hflat, fun hfree hroot => ?_, ⟨fun hreads => ?_, ?_⟩,
    ?_, ?_, ⟨fun hwrites => ?_, ?_⟩⟩
  · have hchars := map_chars_eq_of_flat_eq (p := p) (q := q) (fun s hs hdot => ?_)
      (fun s hs hdot => ?_) hroot hflat
    · have htexts := congrArg (List.map String.ofList) hchars
      rwa [List.map_map, List.map_map] at htexts
    · exact hfree s.text (List.mem_append_left _ (List.mem_map_of_mem hs)) (by simpa [Segment.text])
    · have hmem : s.text ∈ p.texts ++ q.texts := List.mem_append_right _ (List.mem_map_of_mem hs)
      exact hfree s.text hmem (by simpa [Segment.text])
  · have hend : (Json.wayTo p.segments).valueAt? q = some .null := by
      rw [← hreads]
      exact Json.valueAtSegments?_wayTo_self p.segments
    exact Json.valueAtSegments?_wayTo hend
  · intro htexts doc
    have hchars := Segment.map_chars_eq_of_map_text_eq htexts
    exact Json.valueAtSegments?_eq_of_chars_eq hp hq hchars doc
  · intro htexts doc f
    exact Json.modifyAtSegments?_eq_of_chars_eq hp hq (Segment.map_chars_eq_of_map_text_eq htexts) f
      doc
  · intro htexts doc new
    exact Json.setAtSegments_eq_iff htexts new doc
  · have hsame : Json.setAtSegments .null (.array []) p.segments =
        Json.setAtSegments .null (.array []) q.segments := hwrites (.array []) .null
    rw [Json.setAtSegments_empty_array, Json.setAtSegments_empty_array] at hsame
    have hsegments := Json.eq_of_setAtSegments_emptyFor (.inr rfl) hsame
    cases p
    exact congrArg Path.mk hsegments
  · rintro rfl doc new
    rfl

private def numeralKey : Path := (root.key "sizes").key "1"

private def numeralIndex : Path := (root.key "sizes").index 1

theorem one_location_iff_member :
    let doc := Json.ofPairs [("sizes", .ofPairs [("1", .text "small")])]
    numeralKey.InRange ∧ numeralIndex.InRange ∧ numeralKey.flat = numeralIndex.flat ∧
      numeralKey.texts = numeralIndex.texts ∧
      doc.valueAt? numeralKey = some (.text "small") ∧
      doc.valueAt? numeralKey = doc.valueAt? numeralIndex ∧
      doc.setAt numeralKey (.text "large") = doc.setAt numeralIndex (.text "large") := by
  intro doc
  have hkey : numeralKey.InRange := by decide
  have hindex : numeralIndex.InRange := by decide
  have hflat : numeralKey.flat = numeralIndex.flat := by decide +kernel
  obtain ⟨-, hfree, hreads, -, hwrites, -⟩ := one_location_iff hkey hindex hflat
  have htexts : numeralKey.texts = numeralIndex.texts := hfree (by decide +kernel) rfl
  have halike : doc.WritesAlike numeralKey.segments numeralIndex.segments :=
    ⟨.inl rfl, .inr rfl, rfl⟩
  exact ⟨hkey, hindex, hflat, htexts, by decide +kernel, hreads.mpr htexts doc,
    (hwrites htexts doc _).mpr halike⟩

/-- An item may be read under either spelling of its position, but written under the key it makes
an object out of the array, and all other items are gone. -/
theorem numeral_key_replaces_array :
    let doc := Json.ofPairs [("sizes", .array [.text "small", .text "medium"])]
    numeralKey.flat = numeralIndex.flat ∧
      doc.valueAt? numeralKey = some (.text "medium") ∧
      doc.valueAt? numeralIndex = some (.text "medium") ∧
      doc.setAt numeralKey (.text "large") = .ofPairs [("sizes", .ofPairs [("1", .text "large")])] ∧
      doc.setAt numeralIndex (.text "large") =
        .ofPairs [("sizes", .array [.text "small", .text "large"])] ∧
      doc.setAt numeralKey (.text "large") ≠ doc.setAt numeralIndex (.text "large") := by
  decide +kernel

end Path

end SchemaForm
