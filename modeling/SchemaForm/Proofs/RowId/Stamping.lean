import SchemaForm.Proofs.Path.Cover
import SchemaForm.Proofs.Path.Place
import SchemaForm.RowId

set_option autoImplicit false
set_option relaxedAutoImplicit false

/-!
Rows and the identities they are given. Stamping a value in which no array is directly an item of an
array names every row at every depth, each with another number, and all these numbers are drawn from
the supply in between.
-/

namespace SchemaForm

/-- An object that is an item of an array, at a place of a value. -/
structure Json.RowAt (v : Json) (l : Place) (row : Json) : Prop where
  leads : v.at? l = some row
  isItem : ∃ n, l.getLast? = some (.item n)
  isObject : ∃ members, row = .object members

namespace Json

def isScalar : Json → Bool
  | .array _ | .object _ => false
  | _ => true

def isArray : Json → Bool
  | .array _ => true
  | _ => false

mutual

/-- Whether no array is directly an item of an array. -/
def isFlat : Json → Bool
  | .array items => areFlatItems items
  | .object members => areFlatMembers members
  | _ => true

def areFlatItems : List Json → Bool
  | [] => true
  | v :: rest => !v.isArray && isFlat v && areFlatItems rest

def areFlatMembers : List (String × Json) → Bool
  | [] => true
  | (_, v) :: rest => isFlat v && areFlatMembers rest

end

theorem below?_of_isScalar {v : Json} (hscalar : v.isScalar = true) (s : Step) :
    v.below? s = none := by
  cases v with
  | array items => cases hscalar
  | object members => cases hscalar
  | _ => rfl

theorem RowAt.of_below {v c row : Json} {s : Step} {l : Place} (hbelow : v.below? s = some c)
    (hthere : c.RowAt l row) : v.RowAt (s :: l) row := by
  obtain ⟨n, hlast⟩ := hthere.isItem
  refine ⟨?_, ⟨n, ?_⟩, hthere.isObject⟩
  · rw [at?_cons, hbelow]
    exact hthere.leads
  · rw [List.getLast?_cons, hlast]
    rfl

theorem RowAt.cases_below {v row : Json} {l : Place} (hthere : v.RowAt l row) :
    ∃ s l' c, l = s :: l' ∧ v.below? s = some c ∧
      (c.RowAt l' row ∨ (∃ n, s = .item n) ∧ l' = [] ∧ c = row) := by
  obtain ⟨n, hlast⟩ := hthere.isItem
  cases l with
  | nil => cases hlast
  | cons s l' =>
    obtain ⟨c, hbelow, hleads⟩ := Option.bind_eq_some_iff.mp hthere.leads
    refine ⟨s, l', c, rfl, hbelow, ?_⟩
    cases l' with
    | nil =>
      cases hlast
      cases hleads
      exact .inr ⟨⟨n, rfl⟩, rfl, rfl⟩
    | cons s' l'' => exact .inl ⟨hleads, ⟨n, by simpa using hlast⟩, hthere.isObject⟩

theorem RowAt.ne_nil {v row : Json} {l : Place} (hthere : v.RowAt l row) : l ≠ [] := by
  rintro rfl
  obtain ⟨n, hlast⟩ := hthere.isItem
  cases hlast

theorem rowAt_append_iff {v c : Json} {base l : Place} (hleads : v.at? base = some c)
    (hinside : l ≠ []) (row : Json) : v.RowAt (base ++ l) row ↔ c.RowAt l row := by
  have hlast : (base ++ l).getLast? = l.getLast? := List.getLast?_append_of_ne_nil base hinside
  constructor
  · intro hthere
    exact ⟨at?_append_of_some hleads l ▸ hthere.leads, hlast ▸ hthere.isItem, hthere.isObject⟩
  · intro hthere
    refine ⟨?_, hlast ▸ hthere.isItem, hthere.isObject⟩
    rw [at?_append_of_some hleads l]
    exact hthere.leads

theorem not_rowAt_of_isScalar {v : Json} (hscalar : v.isScalar = true) (l : Place) (row : Json) :
    ¬ v.RowAt l row := by
  intro hthere
  obtain ⟨s, -, c, -, hbelow, -⟩ := hthere.cases_below
  rw [below?_of_isScalar hscalar] at hbelow
  cases hbelow

theorem RowAt.cases_object {members : Dictionary Json} {row : Json} {l : Place}
    (hthere : (object members).RowAt l row) : ∃ name c l', l = .member name :: l' ∧
      Dictionary.get? members name = some c ∧ c.RowAt l' row := by
  obtain ⟨s, l', c, rfl, hbelow, hinside⟩ := hthere.cases_below
  cases s with
  | item n => cases hbelow
  | member name =>
    rcases hinside with hinside | ⟨⟨n, hsame⟩, -⟩
    · exact ⟨name, c, l', rfl, hbelow, hinside⟩
    · cases hsame

theorem RowAt.cases_array {items : List Json} {row : Json} {l : Place}
    (hthere : (array items).RowAt l row) : ∃ n c l', l = .item n :: l' ∧ items[n]? = some c ∧
      (c.RowAt l' row ∨ l' = [] ∧ c = row) := by
  obtain ⟨s, l', c, rfl, hbelow, hinside⟩ := hthere.cases_below
  cases s with
  | member name => cases hbelow
  | item n =>
    rcases hinside with hinside | ⟨-, hnothing, hsame⟩
    · exact ⟨n, c, l', rfl, hbelow, .inl hinside⟩
    · exact ⟨n, c, l', rfl, hbelow, .inr ⟨hnothing, hsame⟩⟩

theorem RowAt.of_cases_array {items : List Json} {row c : Json} {n : Nat} {l : Place}
    (hheld : items[n]? = some c) (hinside : c.RowAt l row ∨ l = [] ∧ c = row)
    (hisObject : ∃ members, row = .object members) : (array items).RowAt (.item n :: l) row := by
  rcases hinside with hinside | ⟨rfl, rfl⟩
  · exact hinside.of_below (s := .item n) hheld
  · refine ⟨?_, ⟨n, rfl⟩, hisObject⟩
    rw [at?_cons, below?, hheld]
    rfl

end Json

namespace RowId

theorem of?_insert_key (members : Dictionary Json) (id : String) :
    of? (.object (Dictionary.insert members key (.text id))) = some id := by
  rw [of?, Json.get?, Dictionary.get?_insert, if_pos rfl]
  rfl

/-- The identity with a number, of a row that was made in the session or was loaded. -/
def named (creating : Bool) (n : Nat) : String := letters creating ++ Nat.repr n

theorem named_inj {creating creating' : Bool} {n n' : Nat}
    (hsame : named creating n = named creating' n') : n = n' := by
  have hchars := congrArg String.toList hsame
  simp only [named, String.toList_append] at hchars
  have hdigits : (Segment.index n).chars = (Segment.index n').chars := by
    cases creating <;> cases creating' <;> simp [letters, newLetters, loadedLetters] at hchars <;>
      exact hchars
  exact Segment.index_chars_inj hdigits

theorem isNew_named (n : Nat) : isNew (named true n) = true := by
  have hchars : (named true n).toList = 'c' :: (Nat.repr n).toList := String.toList_append
  rw [isNew, hchars]
  rfl

/-- Every row of the value is named with a number of its own, above the lower and up to the upper
bound. -/
structure Numbered (creating : Bool) (lower upper : Nat) (v : Json) : Prop where
  le : lower ≤ upper
  isNamed : ∀ l row, v.RowAt l row →
    ∃ n, lower < n ∧ n ≤ upper ∧ of? row = some (named creating n)
  distinct : ∀ l l' row row', v.RowAt l row → v.RowAt l' row' → of? row = of? row' → l = l'

namespace Numbered

variable {creating : Bool} {lower middle upper : Nat}

theorem of_no_rows (creating : Bool) (n : Nat) {v : Json} (hnone : ∀ l row, ¬ v.RowAt l row) :
    Numbered creating n n v :=
  ⟨Nat.le_refl n, fun l row hthere => absurd hthere (hnone l row),
    fun l _ row _ hthere => absurd hthere (hnone l row)⟩

private theorem of_scalar_item {v : Json} (hscalar : v.isScalar = true) (n : Nat) :
    Numbered creating n n (.array [v]) := by
  refine of_no_rows creating n fun l row hthere => ?_
  obtain ⟨m, c, l', -, hheld, hinside⟩ := hthere.cases_array
  cases m with
  | succ m => cases hheld
  | zero =>
    cases hheld
    rcases hinside with hinside | ⟨-, rfl⟩
    · exact Json.not_rowAt_of_isScalar hscalar l' row hinside
    · obtain ⟨members, rfl⟩ := hthere.isObject
      cases hscalar

private theorem of_split {v v₁ v₂ : Json} (place₁ place₂ : Place → Place)
    (hfirst : Numbered creating lower middle v₁) (hsecond : Numbered creating middle upper v₂)
    (hsplit : ∀ l row, v.RowAt l row → (∃ l₁, l = place₁ l₁ ∧ v₁.RowAt l₁ row) ∨
      ∃ l₂, l = place₂ l₂ ∧ v₂.RowAt l₂ row) :
    Numbered creating lower upper v := by
  refine ⟨Nat.le_trans hfirst.le hsecond.le, ?_, ?_⟩
  · intro l row hthere
    rcases hsplit l row hthere with ⟨l₁, -, hthere₁⟩ | ⟨l₂, -, hthere₂⟩
    · obtain ⟨n, habove, hbelow, hname⟩ := hfirst.isNamed l₁ row hthere₁
      exact ⟨n, habove, Nat.le_trans hbelow hsecond.le, hname⟩
    · obtain ⟨n, habove, hbelow, hname⟩ := hsecond.isNamed l₂ row hthere₂
      exact ⟨n, Nat.lt_of_le_of_lt hfirst.le habove, hbelow, hname⟩
  · have hapart {l₁ l₂ : Place} {row row' : Json} (hthere₁ : v₁.RowAt l₁ row)
        (hthere₂ : v₂.RowAt l₂ row') : of? row ≠ of? row' := by
      intro hsame
      obtain ⟨n, -, hbelow, hname⟩ := hfirst.isNamed l₁ row hthere₁
      obtain ⟨n', habove, -, hname'⟩ := hsecond.isNamed l₂ row' hthere₂
      rw [hname, hname', Option.some.injEq] at hsame
      have hequal := named_inj hsame
      omega
    intro l l' row row' hthere hthere' hsame
    rcases hsplit l row hthere with ⟨l₁, rfl, hthere₁⟩ | ⟨l₂, rfl, hthere₂⟩
    · rcases hsplit l' row' hthere' with ⟨l₁', rfl, hthere₁'⟩ | ⟨l₂', rfl, hthere₂'⟩
      · rw [hfirst.distinct l₁ l₁' row row' hthere₁ hthere₁' hsame]
      · exact absurd hsame (hapart hthere₁ hthere₂')
    · rcases hsplit l' row' hthere' with ⟨l₁', rfl, hthere₁'⟩ | ⟨l₂', rfl, hthere₂'⟩
      · exact absurd hsame.symm (hapart hthere₁' hthere₂)
      · rw [hsecond.distinct l₂ l₂' row row' hthere₂ hthere₂' hsame]

private theorem object_cons {k : String} {v : Json} {rest : Dictionary Json}
    (hfirst : Numbered creating lower middle v)
    (hsecond : Numbered creating middle upper (.object rest)) :
    Numbered creating lower upper (.object ((k, v) :: rest)) := by
  refine of_split (fun l => .member k :: l) id hfirst hsecond ?_
  intro l row hthere
  obtain ⟨name, c, l', rfl, hheld, hinside⟩ := hthere.cases_object
  rw [Dictionary.get?_cons] at hheld
  split at hheld
  · rename_i hsame
    cases hheld
    exact .inl ⟨l', by rw [hsame], hinside⟩
  · exact .inr ⟨_, rfl, hinside.of_below (s := .member name) hheld⟩

/-- The place of an item once there is another one in front of the first. -/
private def behind : Place → Place
  | .item n :: l => .item (n + 1) :: l
  | l => l

private theorem array_cons {v : Json} {rest : List Json}
    (hfirst : Numbered creating lower middle (.array [v]))
    (hsecond : Numbered creating middle upper (.array rest)) :
    Numbered creating lower upper (.array (v :: rest)) := by
  refine of_split id behind hfirst hsecond ?_
  intro l row hthere
  obtain ⟨n, c, l', rfl, hheld, hinside⟩ := hthere.cases_array
  cases n with
  | zero => exact .inl ⟨_, rfl, .of_cases_array hheld hinside hthere.isObject⟩
  | succ n => exact .inr ⟨.item n :: l', rfl, .of_cases_array hheld hinside hthere.isObject⟩

private theorem row {members : Dictionary Json}
    (hname : of? (.object members) = some (named creating (lower + 1)))
    (hinside : Numbered creating (lower + 1) upper (.object members)) :
    Numbered creating lower upper (.array [.object members]) := by
  have habove : lower + 1 ≤ upper := hinside.le
  have hapart {l : Place} {row : Json} (hthere : (Json.object members).RowAt l row) :
      of? row ≠ of? (.object members) := by
    intro hsame
    obtain ⟨n, hbeyond, -, hother⟩ := hinside.isNamed l row hthere
    rw [hother, hname, Option.some.injEq] at hsame
    have hequal := named_inj hsame
    omega
  have hsplit {l : Place} {row : Json} (hthere : (Json.array [.object members]).RowAt l row) :
      (∃ l', l = .item 0 :: l' ∧ (Json.object members).RowAt l' row) ∨
        l = [.item 0] ∧ row = .object members := by
    obtain ⟨n, c, l', rfl, hheld, hbelow⟩ := hthere.cases_array
    cases n with
    | succ n => cases hheld
    | zero =>
      cases hheld
      rcases hbelow with hbelow | ⟨rfl, hsame⟩
      · exact .inl ⟨l', rfl, hbelow⟩
      · exact .inr ⟨rfl, hsame.symm⟩
  refine ⟨by omega, ?_, ?_⟩
  · intro l row hthere
    rcases hsplit hthere with ⟨l', -, hbelow⟩ | ⟨-, rfl⟩
    · obtain ⟨n, hbeyond, hwithin, hother⟩ := hinside.isNamed l' row hbelow
      exact ⟨n, by omega, hwithin, hother⟩
    · exact ⟨lower + 1, by omega, habove, hname⟩
  · intro l l' row row' hthere hthere' hsame
    rcases hsplit hthere with ⟨l₁, rfl, hbelow⟩ | ⟨rfl, rfl⟩
    · rcases hsplit hthere' with ⟨l₂, rfl, hbelow'⟩ | ⟨-, rfl⟩
      · rw [hinside.distinct l₁ l₂ row row' hbelow hbelow' hsame]
      · exact absurd hsame (hapart hbelow)
    · rcases hsplit hthere' with ⟨l₂, rfl, hbelow'⟩ | ⟨rfl, -⟩
      · exact absurd hsame.symm (hapart hbelow')
      · rfl

private theorem insert_key {members : Dictionary Json}
    (hinside : Numbered creating lower upper (.object (Dictionary.erase members key)))
    (id : String) :
    Numbered creating lower upper (.object (Dictionary.insert members key (.text id))) := by
  have hkept {l : Place} {row : Json}
      (hthere : (Json.object (Dictionary.insert members key (.text id))).RowAt l row) :
      (Json.object (Dictionary.erase members key)).RowAt l row := by
    obtain ⟨name, c, l', rfl, hheld, hbelow⟩ := hthere.cases_object
    rw [Dictionary.get?_insert] at hheld
    split at hheld
    · cases hheld
      exact absurd hbelow (Json.not_rowAt_of_isScalar rfl l' row)
    · rename_i hother
      refine hbelow.of_below (s := .member name) ?_
      rwa [Json.below?, Dictionary.get?_erase, if_neg hother]
  exact ⟨hinside.le, fun l row hthere => hinside.isNamed l row (hkept hthere),
    fun l l' row row' hthere hthere' =>
      hinside.distinct l l' row row' (hkept hthere) (hkept hthere')⟩

end Numbered

/-! ### Stamping -/

section Stamping

variable (creating : Bool)

mutual

theorem numbered_stamp : (v : Json) → (ids : RowIds) → v.isFlat = true →
    Numbered creating ids.last (stamp creating ids v).2.last (stamp creating ids v).1
  | .object members, ids, hflat => by
    rw [Json.isFlat] at hflat
    rw [stamp]
    exact numbered_stampMembers false members ids hflat
  | .array items, ids, hflat => by
    rw [Json.isFlat] at hflat
    rw [stamp]
    exact numbered_stampItems items ids hflat
  | .null, ids, _ | .bool _, ids, _ | .number _, ids, _ | .text _, ids, _ => by
    simp only [stamp]
    exact .of_no_rows creating ids.last (Json.not_rowAt_of_isScalar rfl)

private theorem numbered_stampMembers (inRow : Bool) :
    (members : List (String × Json)) → (ids : RowIds) →
    Json.areFlatMembers members = true →
    let stamped := stampMembers creating inRow ids members
    Numbered creating ids.last stamped.2.last
      (.object (if inRow then Dictionary.erase stamped.1 key else stamped.1))
  | [], ids, _ => by
    have hnone (l : Place) (row : Json) : ¬ (Json.object []).RowAt l row := by
      intro hthere
      obtain ⟨name, c, l', -, hheld, -⟩ := hthere.cases_object
      cases hheld
    cases inRow <;> exact .of_no_rows creating ids.last hnone
  | (k, v) :: rest, ids, hflat => by
    obtain ⟨hflatV, hflatRest⟩ := Bool.and_eq_true_iff.mp hflat
    rw [stampMembers]
    split
    · -- The identity that a row comes with is not stamped: a new one takes its place.
      rename_i hpassed
      obtain ⟨hrow, hsame⟩ := hpassed
      have hlater := numbered_stampMembers inRow rest ids hflatRest
      simpa [hrow, hsame, Dictionary.erase] using hlater
    · rename_i hother
      have hfirst := numbered_stamp v ids hflatV
      have hlater := numbered_stampMembers inRow rest (stamp creating ids v).2 hflatRest
      cases inRow with
      | false => exact hfirst.object_cons hlater
      | true =>
        have hkept : k ≠ key := fun hsame => hother ⟨rfl, hsame⟩
        have hjoined := hfirst.object_cons (k := k) hlater
        simpa [Dictionary.erase, hkept] using hjoined

theorem numbered_stampItems : (items : List Json) → (ids : RowIds) →
    Json.areFlatItems items = true →
    Numbered creating ids.last (stampItems creating ids items).2.last
      (.array (stampItems creating ids items).1)
  | [], ids, _ => by
    refine .of_no_rows creating ids.last fun l row hthere => ?_
    obtain ⟨n, c, l', -, hheld, -⟩ := hthere.cases_array
    cases hheld
  | v :: rest, ids, hflat => by
    obtain ⟨hflatV, hflatRest⟩ := Bool.and_eq_true_iff.mp hflat
    obtain ⟨hsingle, hflatV⟩ := Bool.and_eq_true_iff.mp hflatV
    cases v with
    | array items => cases hsingle
    | object members =>
      rw [Json.isFlat] at hflatV
      rw [stampItems]
      have hinside := numbered_stampMembers true members (ids.draw (letters creating)).2 hflatV
      have hnamedRow := Numbered.row (of?_insert_key _ _) (hinside.insert_key _)
      exact hnamedRow.array_cons (numbered_stampItems rest _ hflatRest)
    | _ =>
      simp only [stampItems]
      exact .array_cons (.of_scalar_item rfl ids.last) (numbered_stampItems rest ids hflatRest)

end

end Stamping

end RowId

end SchemaForm
