import SchemaForm.Proofs.RowId.Standing

set_option autoImplicit false
set_option relaxedAutoImplicit false

/-!
What stamping leaves of a value. The rows get identities, every one the next number of the supply,
and these take the place of any they had before. All else is as it was, to any depth.
-/

namespace SchemaForm

namespace RowId

mutual

/-- A value, and the same value with given identities on its rows, named in the order in which the
rows stand. -/
inductive Names : List String → Json → Json → Prop where
  | scalar {v : Json} (hscalar : v.isScalar = true) : Names [] v v
  | object {ids : List String} {members members' : Dictionary Json}
      (hmembers : NamesMembers ids members members') :
      Names ids (.object members) (.object members')
  | array {ids : List String} {items items' : List Json} (hitems : NamesItems ids items items') :
      Names ids (.array items) (.array items')

inductive NamesMembers : List String → Dictionary Json → Dictionary Json → Prop where
  | nil : NamesMembers [] [] []
  | cons {ids ids' : List String} {key : String} {v v' : Json} {rest rest' : Dictionary Json}
      (hvalue : Names ids v v') (hrest : NamesMembers ids' rest rest') :
      NamesMembers (ids ++ ids') ((key, v) :: rest) ((key, v') :: rest')

/-- Items, and the same ones with identities on those that are rows and on the rows below them.
Arrays directly inside the list are left alone. -/
inductive NamesItems : List String → List Json → List Json → Prop where
  | nil : NamesItems [] [] []
  | row {id : String} {ids ids' : List String} {members members' : Dictionary Json}
      {rest rest' : List Json} (hid : Dictionary.get? members' key = some (.text id))
      (hothers : NamesMembers ids (Dictionary.erase members key) (Dictionary.erase members' key))
      (hrest : NamesItems ids' rest rest') :
      NamesItems (id :: ids ++ ids') (.object members :: rest) (.object members' :: rest')
  | other {ids : List String} {v : Json} {rest rest' : List Json} (hother : v.members? = none)
      (hrest : NamesItems ids rest rest') : NamesItems ids (v :: rest) (v :: rest')

end

/-- The identities with the numbers above a lower and up to an upper bound. -/
def drawn (creating : Bool) (lower upper : Nat) : List String :=
  (List.range' (lower + 1) (upper - lower)).map (named creating)

private theorem drawn_append (creating : Bool) {lower middle upper : Nat} (hlower : lower ≤ middle)
    (hupper : middle ≤ upper) :
    drawn creating lower middle ++ drawn creating middle upper = drawn creating lower upper := by
  have hnext : middle + 1 = lower + 1 + 1 * (middle - lower) := by omega
  have hcount : middle - lower + (upper - middle) = upper - lower := by omega
  rw [drawn, drawn, drawn, ← List.map_append, hnext, List.range'_append, hcount]

private theorem drawn_self (creating : Bool) (n : Nat) : drawn creating n n = [] := by
  rw [drawn, Nat.sub_self]
  rfl

private theorem drawn_succ (creating : Bool) (n : Nat) :
    drawn creating n (n + 1) = [named creating (n + 1)] := by
  rw [drawn, Nat.add_sub_cancel_left]
  rfl

theorem mem_drawn {creating : Bool} {lower upper : Nat} {id : String}
    (hid : id ∈ drawn creating lower upper) :
    ∃ n, lower < n ∧ n ≤ upper ∧ id = named creating n := by
  obtain ⟨n, hn, rfl⟩ := List.mem_map.mp hid
  rw [List.mem_range'_1] at hn
  exact ⟨n, by omega, by omega, rfl⟩

theorem nodup_drawn (creating : Bool) (lower upper : Nat) : (drawn creating lower upper).Nodup :=
  (List.nodup_range' 1).map fun _ _ hsame => named_inj hsame

/-! ### Stamping -/

section Stamping

variable (creating : Bool)

mutual

theorem names_stamp : (v : Json) → (ids : RowIds) →
    Names (drawn creating ids.last (stamp creating ids v).2.last) v (stamp creating ids v).1
  | .object members, ids => .object (names_stampMembers false members ids)
  | .array items, ids => .array (names_stampItems items ids)
  | .null, ids | .bool _, ids | .number _, ids | .text _, ids => by
    simp only [stamp, drawn_self]
    exact .scalar rfl

private theorem names_stampMembers (inRow : Bool) :
    (members : List (String × Json)) → (ids : RowIds) →
    let stamped := stampMembers creating inRow ids members
    NamesMembers (drawn creating ids.last stamped.2.last)
      (if inRow then Dictionary.erase members key else members)
      (if inRow then Dictionary.erase stamped.1 key else stamped.1)
  | [], ids => by
    simp only [stampMembers, drawn_self]
    cases inRow <;> exact .nil
  | (k, v) :: rest, ids => by
    rw [stampMembers]
    split
    · rename_i hpassed
      obtain ⟨hrow, hkey⟩ := hpassed
      have hrest := names_stampMembers inRow rest ids
      simpa [hrow, hkey, Dictionary.erase] using hrest
    · rename_i hstamped
      have hvalue := names_stamp v ids
      have hrest := names_stampMembers inRow rest (stamp creating ids v).2
      have hboth : NamesMembers _ ((k, v) :: _) ((k, _) :: _) := .cons hvalue hrest
      rw [drawn_append creating (last_le_stamp creating ids v)
        (last_le_stampMembers creating inRow _ rest)] at hboth
      cases inRow with
      | false => exact hboth
      | true =>
        have hkept : k ≠ key := fun hkey => hstamped ⟨rfl, hkey⟩
        simpa [Dictionary.erase, hkept] using hboth

private theorem names_stampItems : (items : List Json) → (ids : RowIds) →
    NamesItems (drawn creating ids.last (stampItems creating ids items).2.last) items
      (stampItems creating ids items).1
  | [], ids => by
    simp only [stampItems, drawn_self]
    exact .nil
  | .object members :: rest, ids => by
    let next : RowIds := (ids.draw (letters creating)).2
    let below : RowIds := (stampMembers creating true next members).2
    have hothers := names_stampMembers true members next
    have hrest := names_stampItems rest below
    have hnext : ids.last ≤ next.last := Nat.le_succ ids.last
    have hbelow : next.last ≤ below.last := last_le_stampMembers creating true next members
    have hafter := last_le_stampItems creating below rest
    have hfirst : drawn creating ids.last next.last = [named creating next.last] :=
      drawn_succ creating ids.last
    have hall : drawn creating ids.last (stampItems creating below rest).2.last =
        named creating next.last :: drawn creating next.last below.last ++
          drawn creating below.last (stampItems creating below rest).2.last := by
      rw [← drawn_append creating hnext (Nat.le_trans hbelow hafter), hfirst,
        ← drawn_append creating hbelow hafter]
      rfl
    rw [stampItems]
    refine hall ▸ .row ?_ ?_ hrest
    · rw [Dictionary.get?_insert, if_pos rfl]
      rfl
    · rw [Dictionary.erase_insert]
      exact hothers
  | .array _ :: rest, ids | .null :: rest, ids | .bool _ :: rest, ids | .number _ :: rest, ids
  | .text _ :: rest, ids => .other rfl (names_stampItems rest ids)

end

end Stamping

theorem namesItems_stamped (ids : RowIds) (members : Dictionary Json) :
    NamesItems (drawn true ids.last (Rows.stamped ids (.object members)).2.last) [.object members]
      [(Rows.stamped ids (.object members)).1] :=
  names_stampItems true [.object members] ids

end RowId

end SchemaForm
