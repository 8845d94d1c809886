import SchemaForm.Path.Location
import SchemaForm.Proofs.Equality
import SchemaForm.Proofs.Path.Cover

set_option autoImplicit false
set_option relaxedAutoImplicit false

/-!
What decides the value that is read at a path. Of the path it is the flat form, as long as this
can be taken apart again; of the document it is the document up to strict equality.
-/

namespace SchemaForm

namespace Segment

/-- The segment can be told from its text: a key that is not empty and has no dot, or an index. -/
def IsPlain : Segment → Prop
  | .key name => name ≠ "" ∧ '.' ∉ name.toList
  | .index n => n < indexBound

instance : (s : Segment) → Decidable s.IsPlain
  | .key name => inferInstanceAs (Decidable (name ≠ "" ∧ '.' ∉ name.toList))
  | .index n => inferInstanceAs (Decidable (n < indexBound))

def InRange : Segment → Prop
  | .key _ => True
  | .index n => n < indexBound

instance : (s : Segment) → Decidable s.InRange
  | .key _ => inferInstanceAs (Decidable True)
  | .index n => inferInstanceAs (Decidable (n < indexBound))

private theorem IsPlain.inRange {s : Segment} (hs : s.IsPlain) : s.InRange := by
  cases s with
  | key name => exact trivial
  | index n => exact hs

theorem index?_chars {n : Nat} (hn : n < indexBound) : index? (Segment.index n).chars = some n := by
  have hread : Numeral.natural? (Segment.index n).chars = some n := Numeral.natural?_toDigits n
  -- A numeral does not begin with a sign.
  have hunsigned : ∀ rest, (Segment.index n).chars ≠ '+' :: rest := by
    intro rest hsign
    have hplus := Numeral.isDigit_of_mem_toDigits (hsign ▸ List.mem_cons_self)
    cases hplus
  unfold index? Numeral.below?
  split
  · rename_i rest hsign
    exact absurd hsign (hunsigned rest)
  · simpa [hread] using hn

theorem dot_not_mem_chars {s : Segment} (hs : s.IsPlain) : '.' ∉ s.chars := by
  cases s with
  | key name => exact hs.2
  | index n => exact dot_not_mem_index_chars n

end Segment

namespace Path

/-- The flat form of the path can be taken apart again. -/
def IsPlain (p : Path) : Prop := ∀ s ∈ p.segments, s.IsPlain

instance (p : Path) : Decidable p.IsPlain :=
  inferInstanceAs (Decidable (∀ s ∈ p.segments, s.IsPlain))

theorem splitAtDots_eq_splitOn (cs : List Char) : splitAtDots cs = cs.splitOn '.' := by
  induction cs with
  | nil => rfl
  | cons c cs ih =>
    rw [List.splitOn_cons_eq_if_modifyHead, ← ih]
    by_cases hc : c = '.'
    · subst hc
      rfl
    · rw [if_neg (by simpa using hc)]
      simp only [splitAtDots]
      cases hsplit : splitAtDots cs with
      | nil => exact absurd (ih ▸ hsplit) (List.splitOn_ne_nil '.' cs)
      | cons part parts => rfl

theorem splitAtDots_of_free {cs : List Char} (hcs : '.' ∉ cs) : splitAtDots cs = [cs] := by
  rw [splitAtDots_eq_splitOn, List.splitOn_eq_singleton hcs]

theorem splitAtDots_intercalate {parts : List (List Char)} (hne : parts ≠ [])
    (hfree : ∀ part ∈ parts, '.' ∉ part) : splitAtDots (['.'].intercalate parts) = parts := by
  rw [splitAtDots_eq_splitOn, List.splitOn_intercalate '.' hfree hne]

theorem dot_not_mem_of_mem_splitAtDots {cs part : List Char} (hpart : part ∈ splitAtDots cs) :
    '.' ∉ part := by
  induction cs generalizing part with
  | nil =>
    rw [List.mem_singleton.mp hpart]
    exact List.not_mem_nil
  | cons c cs ih =>
    by_cases hc : c = '.'
    · subst hc
      rcases List.mem_cons.mp hpart with rfl | hpart
      · exact List.not_mem_nil
      · exact ih hpart
    · cases hsplit : splitAtDots cs with
      | nil =>
        simp only [splitAtDots, hsplit, List.mem_singleton] at hpart
        simpa [hpart] using Ne.symm hc
      | cons first rest =>
        simp only [splitAtDots, hsplit, List.mem_cons] at hpart
        rcases hpart with rfl | hpart
        · have hfirst := ih (hsplit ▸ List.mem_cons_self)
          simpa [hfirst] using Ne.symm hc
        · exact ih (hsplit ▸ List.mem_cons_of_mem first hpart)

theorem flatChars_eq_nil_iff_or {p : Path} : p.flatChars = [] ↔ p = root ∨ p = root.key "" := by
  obtain ⟨segments⟩ := p
  match segments with
  | [] => exact iff_of_true rfl (.inl rfl)
  | [.key name] => simp [flatChars, Segment.chars, root, key, child]
  | [.index n] => simp [flatChars, Segment.chars, root, key, child]
  | s :: t :: rest => simp [flatChars, root, key, child]

theorem flatChars_eq_nil_iff {p : Path} (hp : p.IsPlain) : p.flatChars = [] ↔ p.segments = [] := by
  rw [flatChars_eq_nil_iff_or]
  constructor
  · rintro (rfl | rfl)
    · rfl
    · exact absurd rfl (hp (.key "") List.mem_cons_self).1
  · intro hnil
    exact .inl (congrArg Path.mk hnil)

private theorem isRoot_eq_of_flat_eq {p q : Path} (hp : p.IsPlain) (hq : q.IsPlain)
    (hflat : p.flat = q.flat) : p.isRoot = q.isRoot := by
  have hchars : p.flatChars = q.flatChars := String.ofList_injective hflat
  have hroot : p.segments = [] ↔ q.segments = [] := by
    rw [← flatChars_eq_nil_iff hp, ← flatChars_eq_nil_iff hq, hchars]
  rw [Bool.eq_iff_iff]
  simpa [isRoot] using hroot

/-- Without dots in the segments, the flat form gives back their texts. Only the root and the path
of the empty key cannot be told apart. -/
theorem map_chars_eq_of_flat_eq {p q : Path} (hp : ∀ s ∈ p.segments, '.' ∉ s.chars)
    (hq : ∀ s ∈ q.segments, '.' ∉ s.chars) (hroot : p.isRoot = q.isRoot)
    (hflat : p.flat = q.flat) : p.segments.map Segment.chars = q.segments.map Segment.chars := by
  have hchars : p.flatChars = q.flatChars := String.ofList_injective hflat
  have hsplit (r : Path) (hr : ∀ s ∈ r.segments, '.' ∉ s.chars) (hne : r.segments ≠ []) :
      splitAtDots r.flatChars = r.segments.map Segment.chars := by
    refine splitAtDots_intercalate (by simpa using hne) fun part hpart => ?_
    obtain ⟨s, hs, rfl⟩ := List.mem_map.mp hpart
    exact hr s hs
  by_cases hempty : p.segments = []
  · have hempty' : q.segments = [] := by simpa [isRoot, hempty] using hroot.symm
    rw [hempty, hempty']
  · have hne : q.segments ≠ [] := fun hempty' => by simp [isRoot, hempty, hempty'] at hroot
    rw [← hsplit p hp hempty, ← hsplit q hq hne, hchars]

end Path

namespace Json

private theorem child?_eq_of_chars_eq {s t : Segment} (hs : s.InRange) (ht : t.InRange)
    (hchars : s.chars = t.chars) (v : Json) : v.child? s = v.child? t := by
  have htext : s.text = t.text := congrArg String.ofList hchars
  cases v with
  | object members => simp only [child?, htext]
  | array items =>
    cases s with
    | key name =>
      cases t with
      | key other =>
        have hsame : name = other := String.toList_injective hchars
        rw [hsame]
      | index n =>
        have hkey : name.toList = (Segment.index n).chars := hchars
        simp only [child?, hkey, Segment.index?_chars ht, Option.bind_some]
    | index m =>
      cases t with
      | key other =>
        have hkey : other.toList = (Segment.index m).chars := hchars.symm
        simp only [child?, hkey, Segment.index?_chars hs, Option.bind_some]
      | index n => rw [Segment.index_chars_inj hchars]
  | _ => cases s <;> cases t <;> rfl

theorem valueAtSegments?_eq_of_chars_eq {l l' : List Segment} (hl : ∀ s ∈ l, s.InRange)
    (hl' : ∀ s ∈ l', s.InRange) (hchars : l.map Segment.chars = l'.map Segment.chars) (v : Json) :
    v.valueAtSegments? l = v.valueAtSegments? l' := by
  induction l generalizing l' v with
  | nil =>
    cases l' with
    | nil => rfl
    | cons t l' => cases hchars
  | cons s l ih =>
    cases l' with
    | nil => cases hchars
    | cons t l' =>
      obtain ⟨hfirst, hrest⟩ := List.cons.inj hchars
      have hchild := child?_eq_of_chars_eq (hl s List.mem_cons_self) (hl' t List.mem_cons_self)
        hfirst v
      have hlater := ih (fun u hu => hl u (List.mem_cons_of_mem s hu))
        (fun u hu => hl' u (List.mem_cons_of_mem t hu)) hrest
      simp only [valueAtSegments?, hchild, hlater]

/-- Paths of one flat form lead to the same location of every document. -/
theorem valueAt?_eq_of_flat_eq {p q : Path} (hp : p.IsPlain) (hq : q.IsPlain)
    (hflat : p.flat = q.flat) (doc : Json) : doc.valueAt? p = doc.valueAt? q := by
  have hchars := Path.map_chars_eq_of_flat_eq (fun s hs => Segment.dot_not_mem_chars (hp s hs))
    (fun s hs => Segment.dot_not_mem_chars (hq s hs)) (Path.isRoot_eq_of_flat_eq hp hq hflat) hflat
  exact valueAtSegments?_eq_of_chars_eq (fun s hs => (hp s hs).inRange)
    (fun s hs => (hq s hs).inRange) hchars doc

/-! ### Strictly equal documents -/

private theorem same?_getElem? {a b : List Json} (h : sameItems a b = true) (n : Nat) :
    same? a[n]? b[n]? = true := by
  have hitems := sameItems_iff.mp h
  by_cases hn : n < a.length
  · have hn' : n < b.length := by rw [← hitems.length_eq]; exact hn
    rw [List.getElem?_eq_getElem hn, List.getElem?_eq_getElem hn']
    exact hitems.get hn hn'
  · have hn' : ¬ n < b.length := by rw [← hitems.length_eq]; exact hn
    rw [List.getElem?_eq_none (by omega), List.getElem?_eq_none (by omega)]
    rfl

private theorem same?_child? {a b : Json} (h : a.same b = true) (s : Segment) :
    same? (a.child? s) (b.child? s) = true := by
  cases a <;> cases b <;> try cases h
  case object.object members members' => exact same?_get? h s.text
  case array.array items items' =>
    have hitems : sameItems items items' = true := by simpa [same] using h
    cases s with
    | index n => exact same?_getElem? hitems n
    | key name =>
      simp only [child?]
      cases Segment.index? name.toList with
      | none => rfl
      | some n => exact same?_getElem? hitems n
  all_goals cases s <;> rfl

theorem same?_valueAtSegments? {a b : Json} (h : a.same b = true) (l : List Segment) :
    same? (a.valueAtSegments? l) (b.valueAtSegments? l) = true := by
  induction l generalizing a b with
  | nil => exact h
  | cons s l ih =>
    have hchild := same?_child? h s
    simp only [valueAtSegments?]
    cases ha : a.child? s with
    | none =>
      cases hb : b.child? s with
      | none => rfl
      | some v => rw [ha, hb] at hchild; cases hchild
    | some u =>
      cases hb : b.child? s with
      | none => rw [ha, hb] at hchild; cases hchild
      | some v =>
        rw [ha, hb] at hchild
        exact ih hchild

theorem same_valueAtOrNull {a b : Json} (h : a.same b = true) (p : Path) :
    (a.valueAtOrNull p).same (b.valueAtOrNull p) = true := by
  have hvalues := same?_valueAtSegments? h p.segments
  unfold valueAtOrNull valueAt?
  cases ha : a.valueAtSegments? p.segments <;> cases hb : b.valueAtSegments? p.segments <;>
    simp_all [same?, same]

end Json

end SchemaForm
