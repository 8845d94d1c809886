import SchemaForm.Proofs.Path.Place
import SchemaForm.Proofs.RowId.Stamping

set_option autoImplicit false
set_option relaxedAutoImplicit false

/-!
Documents up to the spelling of identities. The identity of a row is a text drawn from a supply, and
which text that is depends on what was drawn before. Documents agree up to spelling when they are
the same after every such text has been blanked. Stamping a value from two supplies gives values
that agree, documents that agree have values that agree at every path, and writing such values into
documents that agree gives documents that agree.
-/

namespace SchemaForm

namespace Dictionary

variable {α β : Type} (f : String → α → β)

/-- The dictionary with all values changed, each in a way that may depend on its key. -/
def mapValues : Dictionary α → Dictionary β
  | [] => []
  | (k, v) :: rest => (k, f k v) :: mapValues rest

theorem get?_mapValues (d : Dictionary α) (key : String) :
    get? (mapValues f d) key = (get? d key).map (f key) := by
  induction d with
  | nil => rfl
  | cons pair rest ih =>
    obtain ⟨k, v⟩ := pair
    rw [mapValues, get?_cons, get?_cons]
    split
    · rename_i hsame
      rw [hsame]
      rfl
    · exact ih

private theorem mapValues_place (d : Dictionary α) (key : String) (v : α) :
    mapValues f (place key v d) = place key (f key v) (mapValues f d) := by
  induction d with
  | nil => rfl
  | cons pair rest ih =>
    obtain ⟨k, w⟩ := pair
    rw [place, mapValues, place]
    split
    · rfl
    · rw [mapValues, ih]

private theorem mapValues_replace (d : Dictionary α) (key : String) (v : α) :
    mapValues f (replace key v d) = replace key (f key v) (mapValues f d) := by
  induction d with
  | nil => rfl
  | cons pair rest ih =>
    obtain ⟨k, w⟩ := pair
    rw [replace, mapValues, replace]
    split
    · rename_i hsame
      rw [mapValues, hsame]
    · rw [mapValues, ih]

theorem mapValues_insert (d : Dictionary α) (key : String) (v : α) :
    mapValues f (insert d key v) = insert (mapValues f d) key (f key v) := by
  have hpresent : has (mapValues f d) key = has d key := by
    rw [has, has, get?_mapValues, Option.isSome_map]
  rw [insert, insert, hpresent]
  split
  · exact mapValues_replace f d key v
  · exact mapValues_place f d key v

end Dictionary

namespace RowId

/-- Where a value stands: in an array, as the identity of a row, or anywhere else. -/
inductive Slot where
  | item
  | identity
  | other
  deriving DecidableEq

/-- Where a member stands of an object that stands somewhere itself. -/
def Slot.member (slot : Slot) (name : String) : Slot :=
  if slot = .item ∧ name = key then .identity else .other

mutual

/-- The value with the identities of all rows blanked. -/
def blanked : Slot → Json → Json
  | .identity, .text _ => .text ""
  | _, .array items => .array (blankedItems items)
  | slot, .object members => .object (blankedMembers slot members)
  | _, v => v

def blankedItems : List Json → List Json
  | [] => []
  | v :: rest => blanked .item v :: blankedItems rest

def blankedMembers (slot : Slot) : List (String × Json) → List (String × Json)
  | [] => []
  | (k, v) :: rest => (k, blanked (slot.member k) v) :: blankedMembers slot rest

end

theorem blanked_array (slot : Slot) (items : List Json) :
    blanked slot (.array items) = .array (blankedItems items) := by
  cases slot <;> rfl

theorem blanked_object (slot : Slot) (members : Dictionary Json) :
    blanked slot (.object members) = .object (blankedMembers slot members) := by
  cases slot <;> rfl

theorem blankedItems_eq (items : List Json) : blankedItems items = items.map (blanked .item) := by
  induction items with
  | nil => rfl
  | cons v rest ih => rw [blankedItems, ih, List.map_cons]

private theorem blankedMembers_eq (slot : Slot) (members : List (String × Json)) :
    blankedMembers slot members =
      Dictionary.mapValues (fun k => blanked (slot.member k)) members := by
  induction members with
  | nil => rfl
  | cons pair rest ih => rw [blankedMembers, ih]; rfl

theorem blankedMembers_insert (slot : Slot) (members : Dictionary Json) (name : String) (v : Json) :
    blankedMembers slot (Dictionary.insert members name v) =
      Dictionary.insert (blankedMembers slot members) name (blanked (slot.member name) v) := by
  rw [blankedMembers_eq, blankedMembers_eq, Dictionary.mapValues_insert]

/-- The values are the same up to the spelling of identities. -/
def Agree (v w : Json) : Prop := blanked .other v = blanked .other w

instance (v w : Json) : Decidable (Agree v w) :=
  inferInstanceAs (Decidable (blanked .other v = blanked .other w))

/-! ### Stamping from two supplies -/

mutual

theorem blanked_stamp (creating : Bool) (slot : Slot) (ids ids' : RowIds) : (v : Json) →
    blanked slot (stamp creating ids v).1 = blanked slot (stamp creating ids' v).1
  | .object members => by
    have hinside := blankedMembers_stampMembers creating false slot ids ids' members
    rw [stamp, stamp, blanked_object, blanked_object, hinside]
  | .array items => by
    have hinside := blankedItems_stampItems creating ids ids' items
    rw [stamp, stamp, blanked_array, blanked_array, hinside]
  | .null | .bool _ | .number _ | .text _ => rfl

private theorem blankedMembers_stampMembers (creating inRow : Bool) (slot : Slot)
    (ids ids' : RowIds) :
    (members : List (String × Json)) →
    blankedMembers slot (stampMembers creating inRow ids members).1 =
      blankedMembers slot (stampMembers creating inRow ids' members).1
  | [] => rfl
  | (k, v) :: rest => by
    rw [stampMembers, stampMembers]
    split
    · have hlater := blankedMembers_stampMembers creating inRow slot ids ids' rest
      rw [blankedMembers, blankedMembers, hlater]
    · have hfirst := blanked_stamp creating (slot.member k) ids ids' v
      have hlater := blankedMembers_stampMembers creating inRow slot (stamp creating ids v).2
        (stamp creating ids' v).2 rest
      rw [blankedMembers, blankedMembers, hfirst, hlater]

theorem blankedItems_stampItems (creating : Bool) (ids ids' : RowIds) : (items : List Json) →
    blankedItems (stampItems creating ids items).1 =
      blankedItems (stampItems creating ids' items).1
  | [] => rfl
  | .object members :: rest => by
    have hfirst := blankedMembers_stampMembers creating true .item
      (ids.draw (letters creating)).2 (ids'.draw (letters creating)).2 members
    have hlater := fun drawn drawn' => blankedItems_stampItems creating drawn drawn' rest
    rw [stampItems, stampItems, blankedItems, blankedItems, blanked_object, blanked_object,
      blankedMembers_insert, blankedMembers_insert, hfirst]
    exact congrArg _ (hlater _ _)
  | .array _ :: rest | .null :: rest | .bool _ :: rest | .number _ :: rest | .text _ :: rest =>
    congrArg (_ :: ·) (blankedItems_stampItems creating ids ids' rest)

end

/-! ### Reading documents that agree -/

open Json

section Documents

variable {slot : Slot} {v w : Json}

theorem blanked_cases (hagree : blanked slot v = blanked slot w) :
    (∃ items items', v = .array items ∧ w = .array items' ∧
      blankedItems items = blankedItems items') ∨
    (∃ members members', v = .object members ∧ w = .object members' ∧
      blankedMembers slot members = blankedMembers slot members') ∨
    (v.isScalar = true ∧ w.isScalar = true) := by
  cases v with
  | array items =>
    cases w with
    | array items' =>
      rw [blanked_array, blanked_array, Json.array.injEq] at hagree
      exact .inl ⟨items, items', rfl, rfl, hagree⟩
    | _ => cases slot <;> cases hagree
  | object members =>
    cases w with
    | object members' =>
      rw [blanked_object, blanked_object, Json.object.injEq] at hagree
      exact .inr (.inl ⟨members, members', rfl, rfl, hagree⟩)
    | _ => cases slot <;> cases hagree
  | _ =>
    cases w with
    | array items => cases slot <;> cases hagree
    | object members => cases slot <;> cases hagree
    | _ => exact .inr (.inr ⟨rfl, rfl⟩)

private theorem cases_of_map_eq {o o' : Option Json}
    (hagree : o.map (blanked slot) = o'.map (blanked slot)) :
    (o = none ∧ o' = none) ∨
      ∃ c c', o = some c ∧ o' = some c' ∧ blanked slot c = blanked slot c' := by
  cases o with
  | none => exact .inl ⟨rfl, Option.map_eq_none_iff.mp hagree.symm⟩
  | some c =>
    obtain ⟨c', hfound, hsame⟩ := Option.map_eq_some_iff.mp hagree.symm
    exact .inr ⟨c, c', rfl, hfound, hsame.symm⟩

private theorem map_getElem?_of_blankedItems {items items' : List Json}
    (hsame : blankedItems items = blankedItems items') (n : Nat) :
    items[n]?.map (blanked .item) = items'[n]?.map (blanked .item) := by
  rw [blankedItems_eq, blankedItems_eq] at hsame
  rw [← List.getElem?_map, ← List.getElem?_map, hsame]

private theorem map_get?_of_blankedMembers {members members' : Dictionary Json}
    (hsame : blankedMembers slot members = blankedMembers slot members') (name : String) :
    (Dictionary.get? members name).map (blanked (slot.member name)) =
      (Dictionary.get? members' name).map (blanked (slot.member name)) := by
  rw [blankedMembers_eq, blankedMembers_eq] at hsame
  rw [← Dictionary.get?_mapValues (fun k => blanked (slot.member k)), hsame,
    Dictionary.get?_mapValues]

/-- Where a value stands that was read from another one. -/
def Slot.below (slot : Slot) : Json → Segment → Slot
  | .array _, _ => .item
  | _, s => slot.member s.text

private theorem child?_of_isScalar (hscalar : v.isScalar = true) (s : Segment) :
    v.child? s = none := by
  cases v with
  | array items => cases hscalar
  | object members => cases hscalar
  | _ => rfl

private theorem blanked_child? (hagree : blanked slot v = blanked slot w) (s : Segment) :
    (v.child? s).map (blanked (slot.below v s)) = (w.child? s).map (blanked (slot.below v s)) := by
  rcases blanked_cases hagree with ⟨items, items', rfl, rfl, hsame⟩ |
    ⟨members, members', rfl, rfl, hsame⟩ | ⟨hscalar, hscalar'⟩
  · cases s with
    | index n => exact map_getElem?_of_blankedItems hsame n
    | key name =>
      rw [child?, child?]
      cases Segment.index? name.toList with
      | none => rfl
      | some n => exact map_getElem?_of_blankedItems hsame n
  · cases s <;> exact map_get?_of_blankedMembers hsame _
  · rw [child?_of_isScalar hscalar, child?_of_isScalar hscalar']

private theorem blanked_valueAtSegments? (segments : List Segment)
    (hagree : blanked slot v = blanked slot w) :
    ∃ slot' : Slot, (v.valueAtSegments? segments).map (blanked slot') =
      (w.valueAtSegments? segments).map (blanked slot') := by
  induction segments generalizing slot v w with
  | nil => exact ⟨slot, congrArg some hagree⟩
  | cons s rest ih =>
    rw [valueAtSegments?, valueAtSegments?]
    rcases cases_of_map_eq (blanked_child? hagree s) with
      ⟨hmissing, hmissing'⟩ | ⟨c, c', hfound, hfound', hsame⟩
    · rw [hmissing, hmissing']
      exact ⟨slot, rfl⟩
    · rw [hfound, hfound']
      exact ih hsame

theorem blankedItems_rowsAt (hagree : blanked slot v = blanked slot w) (p : Path) :
    blankedItems (v.rowsAt p) = blankedItems (w.rowsAt p) := by
  obtain ⟨slot', hvalues⟩ := blanked_valueAtSegments? p.segments hagree
  rw [rowsAt, rowsAt, valueAt?, valueAt?]
  rcases cases_of_map_eq hvalues with ⟨hmissing, hmissing'⟩ | ⟨c, c', hfound, hfound', hsame⟩
  · rw [hmissing, hmissing']
  · rw [hfound, hfound']
    rcases blanked_cases hsame with ⟨items, items', rfl, rfl, hinside⟩ |
      ⟨members, members', rfl, rfl, -⟩ | ⟨hscalar, hscalar'⟩
    · exact hinside
    · rfl
    · have hnothing {u : Json} (hscalar : u.isScalar = true) : u.items? = none := by
        cases u with
        | array items => cases hscalar
        | _ => rfl
      rw [Option.bind_some, Option.bind_some, hnothing hscalar, hnothing hscalar']

/-! ### Writing into documents that agree -/

/-- Where a child stands after it was put into a value. -/
def Slot.child (slot : Slot) : Json → Segment → Slot
  | .array _, .index _ => .item
  | _, s => slot.member s.text

private theorem blankedItems_setItem (items : List Json) (n : Nat) (c : Json) :
    blankedItems (setItem items n c) = setItem (blankedItems items) n (blanked .item c) := by
  simp only [blankedItems_eq, setItem, List.length_map]
  split
  · rw [List.map_set]
  · simp only [List.map_append, List.map_replicate, List.map_singleton]
    rfl

private theorem putChild_of_isScalar (hscalar : v.isScalar = true) (slot : Slot) (s : Segment)
    (c : Json) :
    v.putChild s c = .object [(s.text, c)] ∧ slot.child v s = slot.member s.text := by
  cases v with
  | array items => cases hscalar
  | object members => cases hscalar
  | _ => exact ⟨rfl, rfl⟩

private theorem blanked_putChild (hagree : blanked slot v = blanked slot w) (s : Segment)
    {c c' : Json} (hchildren : blanked (slot.child v s) c = blanked (slot.child v s) c') :
    blanked slot (v.putChild s c) = blanked slot (w.putChild s c') := by
  have hsingle (hsame : blanked (slot.member s.text) c = blanked (slot.member s.text) c') :
      blanked slot (.object [(s.text, c)]) = blanked slot (.object [(s.text, c')]) := by
    simp only [blanked_object, blankedMembers, hsame]
  rcases blanked_cases hagree with ⟨items, items', rfl, rfl, hsame⟩ |
    ⟨members, members', rfl, rfl, hsame⟩ | ⟨hscalar, hscalar'⟩
  · cases s with
    | index n =>
      have hitem : blanked .item c = blanked .item c' := hchildren
      rw [putChild, putChild, blanked_array, blanked_array, blankedItems_setItem,
        blankedItems_setItem, hsame, hitem]
    | key name => exact hsingle hchildren
  · have hmember : blanked (slot.member s.text) c = blanked (slot.member s.text) c' := by
      cases s <;> exact hchildren
    rw [putChild, putChild, blanked_object, blanked_object, blankedMembers_insert,
      blankedMembers_insert, hsame, hmember]
  · obtain ⟨hput, hstands⟩ := putChild_of_isScalar hscalar slot s c
    rw [hstands] at hchildren
    rw [hput, (putChild_of_isScalar hscalar' slot s c').1]
    exact hsingle hchildren

private def containing : Option Json → Option Json
  | some (.array items) => some (.array items)
  | some (.object members) => some (.object members)
  | _ => none

private theorem containing_of_isScalar (hscalar : v.isScalar = true) :
    containing (some v) = none := by
  cases v with
  | array items => cases hscalar
  | object members => cases hscalar
  | _ => rfl

private theorem container?_of_isScalar (hscalar : v.isScalar = true) (s : Segment) :
    v.container? s = none := by
  cases v with
  | array items => cases hscalar
  | object members => cases hscalar
  | _ => rfl

private theorem blanked_containing {o o' : Option Json}
    (hagree : o.map (blanked slot) = o'.map (blanked slot)) :
    (containing o).map (blanked slot) = (containing o').map (blanked slot) := by
  rcases cases_of_map_eq hagree with ⟨rfl, rfl⟩ | ⟨c, c', rfl, rfl, hsame⟩
  · rfl
  · rcases blanked_cases hsame with ⟨items, items', rfl, rfl, -⟩ |
      ⟨members, members', rfl, rfl, -⟩ | ⟨hscalar, hscalar'⟩
    · exact congrArg some hsame
    · exact congrArg some hsame
    · rw [containing_of_isScalar hscalar, containing_of_isScalar hscalar']

private theorem blanked_container? (hagree : blanked slot v = blanked slot w) (s : Segment) :
    (v.container? s).map (blanked (slot.child v s)) =
      (w.container? s).map (blanked (slot.child v s)) := by
  rcases blanked_cases hagree with ⟨items, items', rfl, rfl, hsame⟩ |
    ⟨members, members', rfl, rfl, hsame⟩ | ⟨hscalar, hscalar'⟩
  · cases s with
    | key name => rfl
    | index n => exact blanked_containing (map_getElem?_of_blankedItems hsame n)
  · have hmember := blanked_containing (map_get?_of_blankedMembers hsame s.text)
    cases s <;> exact hmember
  · rw [container?_of_isScalar hscalar, container?_of_isScalar hscalar']

/-- Values that agree wherever they stand are written into documents that agree. -/
theorem blanked_setAtSegments {new new' : Json}
    (hnews : ∀ slot, blanked slot new = blanked slot new') (segments : List Segment)
    (hagree : blanked slot v = blanked slot w) :
    blanked slot (setAtSegments new v segments) = blanked slot (setAtSegments new' w segments) := by
  induction segments generalizing slot v w with
  | nil => exact hnews slot
  | cons s rest ih =>
    refine blanked_putChild hagree s (ih ?_)
    rcases cases_of_map_eq (blanked_container? hagree s) with
      ⟨hmissing, hmissing'⟩ | ⟨c, c', hfound, hfound', hsame⟩
    · rw [hmissing, hmissing']
    · rw [hfound, hfound']
      exact hsame

private theorem modifyChild?_of_isScalar (hscalar : v.isScalar = true) (s : Segment)
    (f : Json → Option Json) : v.modifyChild? s f = none := by
  cases v with
  | array items => cases hscalar
  | object members => cases hscalar
  | _ => rfl

private theorem map_bind_of_map_eq {f : Json → Option Json}
    (hchanges : ∀ c c', blanked slot c = blanked slot c' →
      (f c).map (blanked slot) = (f c').map (blanked slot))
    {o o' : Option Json} (hagree : o.map (blanked slot) = o'.map (blanked slot)) :
    (o.bind f).map (blanked slot) = (o'.bind f).map (blanked slot) := by
  rcases cases_of_map_eq hagree with ⟨rfl, rfl⟩ | ⟨c, c', rfl, rfl, hsame⟩
  · rfl
  · exact hchanges c c' hsame

private theorem blanked_modifyChild? {f : Json → Option Json}
    (hagree : blanked slot v = blanked slot w) (s : Segment)
    (hchanges : ∀ slot c c', blanked slot c = blanked slot c' →
      (f c).map (blanked slot) = (f c').map (blanked slot)) :
    (v.modifyChild? s f).map (blanked slot) = (w.modifyChild? s f).map (blanked slot) := by
  rcases blanked_cases hagree with ⟨items, items', rfl, rfl, hsame⟩ |
    ⟨members, members', rfl, rfl, hsame⟩ | ⟨hscalar, hscalar'⟩
  · have hchanged (n : Nat) :
        ((items[n]?.bind f).map fun c => Json.array (items.set n c)).map (blanked slot) =
          ((items'[n]?.bind f).map fun c => Json.array (items'.set n c)).map (blanked slot) := by
      have hitemsN := map_getElem?_of_blankedItems hsame n
      rcases cases_of_map_eq (map_bind_of_map_eq (hchanges .item) hitemsN) with
        ⟨hmissing, hmissing'⟩ | ⟨c, c', hfound, hfound', halike⟩
      · rw [hmissing, hmissing']
        rfl
      · rw [hfound, hfound', Option.map_some, Option.map_some, Option.map_some, Option.map_some,
          blanked_array, blanked_array, blankedItems_eq, blankedItems_eq, List.map_set,
          List.map_set, ← blankedItems_eq, ← blankedItems_eq, hsame, halike]
    cases s with
    | index n => exact hchanged n
    | key name =>
      rw [modifyChild?, modifyChild?]
      cases Segment.index? name.toList with
      | none => rfl
      | some n => exact hchanged n
  · have hmember := map_get?_of_blankedMembers hsame s.text
    rw [modifyChild?, modifyChild?]
    rcases cases_of_map_eq (map_bind_of_map_eq (hchanges (slot.member s.text)) hmember) with
      ⟨hmissing, hmissing'⟩ | ⟨c, c', hfound, hfound', halike⟩
    · rw [hmissing, hmissing']
      rfl
    · rw [hfound, hfound', Option.map_some, Option.map_some, Option.map_some, Option.map_some,
        blanked_object, blanked_object, blankedMembers_insert, blankedMembers_insert, hsame, halike]
  · rw [modifyChild?_of_isScalar hscalar, modifyChild?_of_isScalar hscalar']

theorem blanked_modifyAtSegments? {f : Json → Json} (hchanges : ∀ slot c c',
      blanked slot c = blanked slot c' → blanked slot (f c) = blanked slot (f c'))
    (segments : List Segment) (hagree : blanked slot v = blanked slot w) :
    (modifyAtSegments? f v segments).map (blanked slot) =
      (modifyAtSegments? f w segments).map (blanked slot) := by
  induction segments generalizing slot v w with
  | nil => exact congrArg some (hchanges slot v w hagree)
  | cons s rest ih => exact blanked_modifyChild? hagree s fun _ _ _ hsame => ih hsame

end Documents

end RowId

end SchemaForm
