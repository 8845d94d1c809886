import SchemaForm.Proofs.RowId.Stamping

set_option autoImplicit false
set_option relaxedAutoImplicit false

/-!
Values without identities. A value is bare if no object that is an item of an array has an identity,
at any depth. Stripping makes every value bare; dropping the identities of the rows of an array only
does if there are no others below them.
-/

namespace SchemaForm

namespace RowId

mutual

/-- Whether no row below a value has an identity. -/
def isBare : Json → Bool
  | .array items => areBareItems items
  | .object members => areBareMembers members
  | _ => true

def areBareItems : List Json → Bool
  | [] => true
  | v :: rest => (v.get? key).isNone && isBare v && areBareItems rest

def areBareMembers : List (String × Json) → Bool
  | [] => true
  | (_, v) :: rest => isBare v && areBareMembers rest

end

theorem areBareItems_iff {items : List Json} :
    areBareItems items = true ↔ ∀ v ∈ items, v.get? key = none ∧ isBare v = true := by
  induction items with
  | nil => simp [areBareItems]
  | cons v rest ih => simp [areBareItems, ih]

theorem areBareMembers_iff {members : List (String × Json)} :
    areBareMembers members = true ↔ ∀ pair ∈ members, isBare pair.2 = true := by
  induction members with
  | nil => simp [areBareMembers]
  | cons pair rest ih => simp [areBareMembers, ih]

theorem isBare_of_get? {v c : Json} {name : String} (hbare : isBare v = true)
    (hheld : v.get? name = some c) : isBare c = true := by
  cases v with
  | object members =>
    rw [isBare, areBareMembers_iff] at hbare
    exact hbare _ (Dictionary.mem_of_get? hheld)
  | _ => cases hheld

/-- No row of a bare value has an identity, at any depth. -/
theorem get?_key_of_isBare {v row : Json} {l : Place} (hbare : isBare v = true)
    (hthere : v.RowAt l row) : row.get? key = none := by
  induction l generalizing v with
  | nil => exact absurd rfl hthere.ne_nil
  | cons s l ih =>
    obtain ⟨s', l', c, hsame, hbelow, hinside⟩ := hthere.cases_below
    cases hsame
    cases v with
    | array items =>
      rw [isBare, areBareItems_iff] at hbare
      cases s with
      | member name => cases hbelow
      | item n =>
        obtain ⟨hnoneHere, hbareC⟩ := hbare c (List.mem_of_getElem? hbelow)
        rcases hinside with hinside | ⟨-, -, rfl⟩
        · exact ih hbareC hinside
        · exact hnoneHere
    | object members =>
      cases s with
      | item n => cases hbelow
      | member name =>
        rcases hinside with hinside | ⟨⟨n, hisItem⟩, -⟩
        · exact ih (isBare_of_get? (v := .object members) hbare hbelow) hinside
        · cases hisItem
    | _ => cases hbelow

/-! ### Taking identities off -/

private theorem get?_key_dropFromRow (v : Json) : (dropFromRow v).get? key = none := by
  cases v with
  | object members => rw [dropFromRow, Json.get?, Dictionary.get?_erase, if_pos rfl]
  | _ => rfl

private theorem isBare_dropFromRow {v : Json} (hbare : isBare v = true) :
    isBare (dropFromRow v) = true := by
  cases v with
  | object members =>
    rw [isBare, areBareMembers_iff] at hbare
    rw [dropFromRow, isBare, areBareMembers_iff]
    exact fun pair hmember => hbare pair (List.mem_of_mem_filter hmember)
  | _ => exact hbare

theorem isBare_drop_array {rows : List Json} (hbare : ∀ row ∈ rows, isBare row = true) :
    isBare (drop false (.array rows)) = true := by
  rw [drop, if_neg (by simp), isBare, areBareItems_iff]
  intro v hmember
  obtain ⟨row, hinside, rfl⟩ := List.mem_map.mp hmember
  exact ⟨get?_key_dropFromRow row, isBare_dropFromRow (hbare row hinside)⟩

mutual

theorem isBare_strip : (v : Json) → isBare (strip v) = true
  | .array items => by
    rw [strip, isBare]
    exact areBareItems_stripItems items
  | .object members => by
    rw [strip, isBare]
    exact areBareMembers_stripMembers members
  | .null | .bool _ | .number _ | .text _ => by simp only [strip, isBare]

private theorem areBareItems_stripItems :
    (items : List Json) → areBareItems (stripItems items) = true
  | [] => rfl
  | v :: rest => by
    rw [stripItems, areBareItems, get?_key_dropFromRow, isBare_dropFromRow (isBare_strip v),
      areBareItems_stripItems rest]
    rfl

private theorem areBareMembers_stripMembers : (members : List (String × Json)) →
    areBareMembers (stripMembers members) = true
  | [] => rfl
  | (_, v) :: rest => by
    rw [stripMembers, areBareMembers, isBare_strip v, areBareMembers_stripMembers rest]
    rfl

end

/-! ### Objects made of bare values -/

theorem isBare_overlay {d e : Dictionary Json} (hfirst : isBare (.object d) = true)
    (hsecond : ∀ pair ∈ e, isBare pair.2 = true) :
    isBare (.object (Dictionary.overlay d e)) = true := by
  rw [isBare, areBareMembers_iff] at hfirst ⊢
  intro pair hmember
  rcases Dictionary.mem_overlay hmember with hbefore | hafter
  · exact hfirst pair hbefore
  · exact hsecond pair hafter

theorem isBare_ofPairs {pairs : List (String × Json)}
    (hbare : ∀ pair ∈ pairs, isBare pair.2 = true) :
    isBare (.object (Dictionary.ofPairs pairs)) = true :=
  isBare_overlay (d := []) rfl hbare

theorem isBare_merge {layers : List Json} (hbare : ∀ layer ∈ layers, isBare layer = true) :
    isBare (.merge layers) = true := by
  unfold Json.merge
  refine List.foldlRecOn (motive := fun acc => isBare (.object acc) = true) layers _ rfl ?_
  intro acc hfirst layer hmember
  have hhere := hbare layer hmember
  cases layer with
  | object members =>
    rw [isBare, areBareMembers_iff] at hhere
    exact isBare_overlay hfirst hhere
  | _ => exact hfirst

end RowId

end SchemaForm
