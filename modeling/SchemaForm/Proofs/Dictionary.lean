import Mathlib.Data.List.Induction
import Mathlib.Data.List.Nodup
import SchemaForm.Dictionary

set_option autoImplicit false
set_option relaxedAutoImplicit false

/-!
The laws of dictionaries. Every operation is described by what it does to the value of each key;
writing two different keys commutes, so laying pairs over a dictionary gives the same as laying
their dictionary over it.
-/

namespace SchemaForm

namespace Dictionary

variable {α : Type}

@[simp] theorem get?_nil (key : String) : get? ([] : Dictionary α) key = none := rfl

theorem get?_cons (k : String) (v : α) (rest : Dictionary α) (key : String) :
    get? ((k, v) :: rest) key = if k = key then some v else get? rest key := rfl

private theorem get?_append (d e : Dictionary α) (key : String) :
    get? (d ++ e) key = (get? d key).or (get? e key) := by
  induction d with
  | nil => rfl
  | cons pair rest ih =>
    obtain ⟨k, v⟩ := pair
    rw [List.cons_append, get?_cons, get?_cons, ih]
    split <;> rfl

theorem has_iff_mem_keys {d : Dictionary α} {key : String} :
    has d key = true ↔ key ∈ keys d := by
  induction d with
  | nil => simp [has, keys]
  | cons pair rest ih =>
    obtain ⟨k, v⟩ := pair
    simp only [has, keys, get?_cons, List.map_cons, List.mem_cons] at ih ⊢
    by_cases hk : k = key
    · simp [hk]
    · rw [if_neg hk, ih]
      simp [Ne.symm hk]

theorem get?_eq_none_iff {d : Dictionary α} {key : String} :
    get? d key = none ↔ key ∉ keys d := by
  rw [← has_iff_mem_keys, has, Option.not_isSome_iff_eq_none]

/-! ### Writing one key -/

private theorem get?_place (d : Dictionary α) (k : String) (v : α) (key : String)
    (hfresh : has d k = false) :
    get? (place k v d) key = if k = key then some v else get? d key := by
  induction d with
  | nil => rfl
  | cons pair rest ih =>
    obtain ⟨l, w⟩ := pair
    have hne : l ≠ k := by
      intro he
      simp [has, get?_cons, he] at hfresh
    have hrest : has rest k = false := by simpa [has, get?_cons, hne] using hfresh
    simp only [place]
    split
    · rfl
    · rw [get?_cons, get?_cons, ih hrest]
      by_cases hk : l = key
      · have hkey : ¬ k = key := fun he => hne (hk.trans he.symm)
        simp [hk, hkey]
      · simp [hk]

private theorem get?_replace (d : Dictionary α) (k : String) (v : α) (key : String) :
    get? (replace k v d) key = if k = key ∧ has d k = true then some v else get? d key := by
  induction d with
  | nil => simp [replace, has]
  | cons pair rest ih =>
    obtain ⟨l, w⟩ := pair
    simp only [replace]
    by_cases hl : l = k
    · have hpresent : has ((l, w) :: rest) k = true := by simp [has, get?_cons, hl]
      rw [if_pos hl, get?_cons, get?_cons, hpresent, hl]
      by_cases hkey : k = key <;> simp [hkey]
    · have hsame : has ((l, w) :: rest) k = has rest k := by simp [has, get?_cons, hl]
      rw [if_neg hl, get?_cons, get?_cons, ih, hsame]
      by_cases hkey : k = key
      · have hne : ¬ l = key := fun he => hl (he.trans hkey.symm)
        simp [hkey, hne]
      · simp [hkey]

theorem get?_insert (d : Dictionary α) (k : String) (v : α) (key : String) :
    get? (insert d k v) key = if k = key then some v else get? d key := by
  unfold insert
  split
  · rename_i hpresent
    rw [get?_replace]
    simp [hpresent]
  · rename_i habsent
    exact get?_place d k v key (by simpa using habsent)

private theorem has_insert (d : Dictionary α) (k : String) (v : α) (key : String) :
    has (insert d k v) key = (k == key || has d key) := by
  rw [has, get?_insert]
  by_cases hk : k = key <;> simp [hk, has]

private theorem keys_replace (d : Dictionary α) (k : String) (v : α) :
    keys (replace k v d) = keys d := by
  induction d with
  | nil => rfl
  | cons pair rest ih =>
    obtain ⟨l, w⟩ := pair
    simp only [replace]
    split
    · rfl
    · simpa [keys] using ih

private theorem keys_place_perm (d : Dictionary α) (k : String) (v : α) :
    (keys (place k v d)).Perm (k :: keys d) := by
  induction d with
  | nil => rfl
  | cons pair rest ih =>
    obtain ⟨l, w⟩ := pair
    simp only [place]
    split
    · rfl
    · exact (ih.cons l).trans (.swap k l _)

theorem nodup_insert {d : Dictionary α} (hnodup : (keys d).Nodup) (k : String) (v : α) :
    (keys (insert d k v)).Nodup := by
  unfold insert
  split
  · rwa [keys_replace]
  · rename_i habsent
    rw [has_iff_mem_keys] at habsent
    exact (keys_place_perm d k v).nodup_iff.mpr (List.nodup_cons.mpr ⟨habsent, hnodup⟩)

theorem insert_ne_nil (d : Dictionary α) (k : String) (v : α) : insert d k v ≠ [] := by
  intro hempty
  have hpresent := has_insert d k v k
  simp [hempty, has] at hpresent

theorem get?_erase (d : Dictionary α) (k key : String) :
    get? (erase d k) key = if k = key then none else get? d key := by
  induction d with
  | nil => simp [erase]
  | cons pair rest ih =>
    obtain ⟨l, w⟩ := pair
    rw [erase] at ih ⊢
    by_cases hl : l = k
    · rw [List.filter_cons_of_neg (by simp [hl]), ih, get?_cons, hl]
      split <;> rfl
    · rw [List.filter_cons_of_pos (by simp [hl]), get?_cons, get?_cons, ih]
      by_cases hkey : l = key
      · have hne : ¬ k = key := fun he => hl (hkey.trans he.symm)
        simp [hkey, hne]
      · simp [hkey]

theorem erase_of_get?_none {d : Dictionary α} {key : String} (habsent : get? d key = none) :
    erase d key = d := by
  rw [get?_eq_none_iff, keys, List.mem_map] at habsent
  refine List.filter_eq_self.mpr fun pair hmember => ?_
  simpa using fun hsame => habsent ⟨pair, hmember, hsame⟩

private theorem erase_place (d : Dictionary α) (k : String) (v : α) :
    erase (place k v d) k = erase d k := by
  induction d with
  | nil => simp [place, erase]
  | cons pair rest ih =>
    obtain ⟨l, w⟩ := pair
    simp only [place]
    split
    · simp [erase]
    · simp only [erase, List.filter_cons] at ih ⊢
      rw [ih]

private theorem erase_replace (d : Dictionary α) (k : String) (v : α) :
    erase (replace k v d) k = erase d k := by
  induction d with
  | nil => rfl
  | cons pair rest ih =>
    obtain ⟨l, w⟩ := pair
    simp only [replace]
    split
    · rename_i hsame
      simp [erase, hsame]
    · simp only [erase, List.filter_cons] at ih ⊢
      rw [ih]

theorem erase_insert (d : Dictionary α) (k : String) (v : α) :
    erase (insert d k v) k = erase d k := by
  unfold insert
  split
  · exact erase_replace d k v
  · exact erase_place d k v

theorem mem_of_get? {d : Dictionary α} {key : String} {v : α} (hfound : get? d key = some v) :
    (key, v) ∈ d := by
  induction d with
  | nil => cases hfound
  | cons pair rest ih =>
    obtain ⟨k, w⟩ := pair
    rw [get?_cons] at hfound
    split at hfound
    · rename_i hsame
      cases hfound
      rw [hsame]
      exact List.mem_cons_self
    · exact List.mem_cons_of_mem _ (ih hfound)

private theorem mem_place {d : Dictionary α} {k : String} {v : α} {pair : String × α}
    (hmember : pair ∈ place k v d) : pair = (k, v) ∨ pair ∈ d := by
  induction d with
  | nil => simpa [place] using hmember
  | cons first rest ih =>
    obtain ⟨l, w⟩ := first
    grind [place]

private theorem mem_replace {d : Dictionary α} {k : String} {v : α} {pair : String × α}
    (hmember : pair ∈ replace k v d) : pair = (k, v) ∨ pair ∈ d := by
  induction d with
  | nil => cases hmember
  | cons first rest ih =>
    obtain ⟨l, w⟩ := first
    grind [replace]

private theorem mem_insert {d : Dictionary α} {k : String} {v : α} {pair : String × α}
    (hmember : pair ∈ insert d k v) : pair = (k, v) ∨ pair ∈ d := by
  unfold insert at hmember
  split at hmember
  · exact mem_replace hmember
  · exact mem_place hmember

/-! ### Writing two keys -/

private theorem place_comm (d : Dictionary α) {k l : String} (h : k ≠ l) (v w : α) :
    place k v (place l w d) = place l w (place k v d) := by
  induction d with
  | nil => grind [place]
  | cons pair rest ih =>
    obtain ⟨m, x⟩ := pair
    grind [place]

private theorem replace_comm (d : Dictionary α) {k l : String} (h : k ≠ l) (v w : α) :
    replace k v (replace l w d) = replace l w (replace k v d) := by
  induction d with
  | nil => rfl
  | cons pair rest ih =>
    obtain ⟨m, x⟩ := pair
    grind [replace]

private theorem replace_place_comm (d : Dictionary α) {k l : String} (h : k ≠ l) (v w : α) :
    replace k v (place l w d) = place l w (replace k v d) := by
  induction d with
  | nil => grind [replace, place]
  | cons pair rest ih =>
    obtain ⟨m, x⟩ := pair
    grind [replace, place]

theorem insert_comm (d : Dictionary α) {k l : String} (h : k ≠ l) (v w : α) :
    insert (insert d k v) l w = insert (insert d l w) k v := by
  have hk : has (insert d l w) k = has d k := by simp [has_insert, h.symm]
  have hl : has (insert d k v) l = has d l := by simp [has_insert, h]
  rw [insert, hl, insert.eq_1 (insert d l w), hk]
  cases hdk : has d k <;> cases hdl : has d l <;> simp only [insert, hdk, hdl, if_true, if_false,
    Bool.false_eq_true]
  · exact place_comm d h.symm w v
  · exact replace_place_comm d h.symm w v
  · exact (replace_place_comm d h v w).symm
  · exact replace_comm d h.symm w v

private theorem replace_replace (d : Dictionary α) (k : String) (v w : α) :
    replace k w (replace k v d) = replace k w d := by
  induction d with
  | nil => rfl
  | cons pair rest ih =>
    obtain ⟨m, x⟩ := pair
    grind [replace]

private theorem replace_place (d : Dictionary α) (k : String) (v w : α) (hfresh : has d k = false) :
    replace k w (place k v d) = place k w d := by
  induction d with
  | nil => simp [replace, place]
  | cons pair rest ih =>
    obtain ⟨m, x⟩ := pair
    grind [replace, place, has, get?]

theorem insert_insert (d : Dictionary α) (k : String) (v w : α) :
    insert (insert d k v) k w = insert d k w := by
  have hpresent : has (insert d k v) k = true := by simp [has_insert]
  rw [insert, hpresent, if_pos rfl]
  cases hk : has d k with
  | true => simp only [insert, hk, if_true, replace_replace]
  | false => simp only [insert, hk, Bool.false_eq_true, if_false, replace_place d k v w hk]

private theorem replace_of_get? {d : Dictionary α} {k : String} {v : α}
    (hfound : get? d k = some v) :
    replace k v d = d := by
  induction d with
  | nil => rfl
  | cons pair rest ih =>
    obtain ⟨m, x⟩ := pair
    grind [replace, get?]

theorem insert_of_get? {d : Dictionary α} {k : String} {v : α} (hfound : get? d k = some v) :
    insert d k v = d := by
  have hpresent : has d k = true := by simp [has, hfound]
  rw [insert, if_pos hpresent, replace_of_get? hfound]

/-! ### Laying dictionaries over one another -/

private theorem overlay_cons (d : Dictionary α) (k : String) (v : α) (e : Dictionary α) :
    overlay d ((k, v) :: e) = overlay (insert d k v) e := rfl

private theorem overlay_append (d e e' : Dictionary α) :
    overlay d (e ++ e') = overlay (overlay d e) e' := by
  simp [overlay]

theorem mem_overlay {d e : Dictionary α} {pair : String × α} (hmember : pair ∈ overlay d e) :
    pair ∈ d ∨ pair ∈ e := by
  induction e generalizing d with
  | nil => exact .inl hmember
  | cons first rest ih =>
    rw [overlay_cons] at hmember
    rcases ih hmember with hwritten | hlater
    · rcases mem_insert hwritten with hsame | hbefore
      · exact .inr (by rw [hsame]; exact List.mem_cons_self)
      · exact .inl hbefore
    · exact .inr (List.mem_cons_of_mem first hlater)

theorem get?_overlay (d e : Dictionary α) (key : String) :
    get? (overlay d e) key = (get? e.reverse key).or (get? d key) := by
  induction e generalizing d with
  | nil => rfl
  | cons pair rest ih =>
    obtain ⟨k, v⟩ := pair
    rw [overlay_cons, ih, get?_insert, List.reverse_cons, get?_append]
    cases get? rest.reverse key with
    | some w => rfl
    | none =>
      rw [get?_cons, get?_nil]
      split <;> rfl

theorem get?_overlay_of_not_mem (d : Dictionary α) {e : Dictionary α} {key : String}
    (habsent : key ∉ keys e) : get? (overlay d e) key = get? d key := by
  have hreversed : key ∉ keys e.reverse := by simpa [keys] using habsent
  rw [get?_overlay, get?_eq_none_iff.mpr hreversed, Option.none_or]

theorem get?_ofPairs (pairs : List (String × α)) (key : String) :
    get? (ofPairs pairs) key = get? pairs.reverse key := by
  rw [ofPairs, get?_overlay, get?_nil, Option.or_none]

theorem get?_ofPairs_of_nodup {d : Dictionary α} (hd : (keys d).Nodup) (key : String) :
    get? (ofPairs d) key = get? d key := by
  rw [get?_ofPairs]
  induction d with
  | nil => rfl
  | cons pair rest ih =>
    obtain ⟨k, v⟩ := pair
    obtain ⟨hfresh, hrest⟩ := List.nodup_cons.mp hd
    rw [List.reverse_cons, get?_append, ih hrest, get?_cons, get?_cons, get?_nil]
    by_cases hk : k = key
    · have habsent : get? rest key = none := get?_eq_none_iff.mpr (hk ▸ hfresh)
      simp [hk, habsent]
    · simp [hk]

/-- Items that give at most one pair each, under names of which no two are the same: the dictionary
has for the name of an item what the item gives. -/
theorem get?_ofPairs_flatMap {β : Type} (name : β → Option String)
    (pairs : β → List (String × α)) {items : List β} (hunique : (items.filterMap name).Nodup)
    (hown : ∀ b ∈ items, pairs b = [] ∨ ∃ key v, name b = some key ∧ pairs b = [(key, v)])
    {b : β} (hmember : b ∈ items) {key : String} (hnamed : name b = some key) :
    get? (ofPairs (items.flatMap pairs)) key = get? (pairs b) key := by
  -- Items of other names give nothing under this one.
  have habsent (others : List β) (hsub : ∀ c ∈ others, c ∈ items)
      (hother : ∀ c ∈ others, name c ≠ some key) :
      get? (others.flatMap pairs).reverse key = none := by
    rw [get?_eq_none_iff, keys]
    intro hkey
    obtain ⟨pair, hpair, rfl⟩ := List.mem_map.mp hkey
    obtain ⟨c, hc, hpair⟩ := List.mem_flatMap.mp (List.mem_reverse.mp hpair)
    rcases hown c (hsub c hc) with hnone | ⟨other, v, hname, hone⟩
    · rw [hnone] at hpair
      cases hpair
    · rw [hone, List.mem_singleton] at hpair
      exact hother c hc (by rw [hname, hpair])
  obtain ⟨front, rest, rfl⟩ := List.append_of_mem hmember
  rw [List.filterMap_append, List.filterMap_cons_some hnamed, List.nodup_append] at hunique
  obtain ⟨-, htail, hapart⟩ := hunique
  have hfront := habsent front (fun c hc => by simp [hc]) fun c hc hsame =>
    hapart key (List.mem_filterMap.mpr ⟨c, hc, hsame⟩) key List.mem_cons_self rfl
  have hrest := habsent rest (fun c hc => by simp [hc]) fun c hc hsame =>
    (List.nodup_cons.mp htail).1 (List.mem_filterMap.mpr ⟨c, hc, hsame⟩)
  rw [get?_ofPairs, List.flatMap_append, List.flatMap_cons, List.reverse_append,
    List.reverse_append, get?_append, get?_append, hfront, hrest, Option.none_or, Option.or_none]
  rcases hown b hmember with hnone | ⟨other, v, -, hone⟩
  · rw [hnone]
    rfl
  · rw [hone]
    rfl

theorem overlay_insert_left (d e : Dictionary α) {k : String} (hfresh : k ∉ keys e) (v : α) :
    overlay (insert d k v) e = insert (overlay d e) k v := by
  induction e generalizing d with
  | nil => rfl
  | cons pair rest ih =>
    obtain ⟨l, w⟩ := pair
    simp only [keys, List.map_cons, List.mem_cons, not_or] at hfresh
    rw [overlay_cons, overlay_cons, insert_comm d hfresh.1]
    exact ih (insert d l w) hfresh.2

theorem overlay_comm (d : Dictionary α) {e e' : Dictionary α}
    (hdisjoint : ∀ k ∈ keys e, k ∉ keys e') :
    overlay (overlay d e) e' = overlay (overlay d e') e := by
  induction e generalizing d with
  | nil => rfl
  | cons pair rest ih =>
    obtain ⟨k, v⟩ := pair
    rw [overlay_cons, overlay_cons, ih _ fun l hl => hdisjoint l (List.mem_cons_of_mem k hl),
      overlay_insert_left d e' (hdisjoint k List.mem_cons_self)]

private theorem overlay_insert_right (d : Dictionary α) {e : Dictionary α}
    (hnodup : (keys e).Nodup) (k : String) (v : α) :
    overlay d (insert e k v) = insert (overlay d e) k v := by
  induction e generalizing d with
  | nil => rfl
  | cons pair rest ih =>
    obtain ⟨l, w⟩ := pair
    have hrest : l ∉ keys rest ∧ (keys rest).Nodup := List.nodup_cons.mp hnodup
    by_cases hl : l = k
    · subst hl
      have hwritten : insert ((l, w) :: rest) l v = (l, v) :: rest := by
        simp [insert, has, get?_cons, replace]
      rw [hwritten, overlay_cons, overlay_cons, overlay_insert_left d rest hrest.1,
        overlay_insert_left d rest hrest.1, insert_insert]
    · by_cases hfront : has rest k = false ∧ k < l
      · have hwritten : insert ((l, w) :: rest) k v = (k, v) :: (l, w) :: rest := by
          have habsent : has ((l, w) :: rest) k = false := by
            simpa [has, get?_cons, hl] using hfront.1
          simp [insert, habsent, place, hfront.2]
        have hfresh : k ∉ keys ((l, w) :: rest) := by
          rw [← has_iff_mem_keys]
          simpa [has, get?_cons, hl] using hfront.1
        rw [hwritten, overlay_cons, overlay_insert_left d _ hfresh]
      · have hwritten : insert ((l, w) :: rest) k v = (l, w) :: insert rest k v := by
          cases hk : has rest k with
          | true =>
            have hpresent : has ((l, w) :: rest) k = true := by simpa [has, get?_cons, hl] using hk
            simp [insert, hpresent, hk, replace, hl]
          | false =>
            have habsent : has ((l, w) :: rest) k = false := by simpa [has, get?_cons, hl] using hk
            have hback : ¬ k < l := fun hlt => hfront ⟨hk, hlt⟩
            simp [insert, habsent, hk, place, hback]
        rw [hwritten, overlay_cons, overlay_cons, ih _ hrest.2]

private theorem overlay_concat (d e : Dictionary α) (k : String) (v : α) :
    overlay d (e ++ [(k, v)]) = insert (overlay d e) k v := by
  rw [overlay_append, overlay_cons]
  rfl

theorem nodup_overlay {d : Dictionary α} (hd : (keys d).Nodup) (e : Dictionary α) :
    (keys (overlay d e)).Nodup := by
  induction e generalizing d with
  | nil => exact hd
  | cons pair rest ih => exact ih (nodup_insert hd pair.1 pair.2)

private theorem nodup_ofPairs (pairs : List (String × α)) : (keys (ofPairs pairs)).Nodup := by
  have hempty : (keys ([] : Dictionary α)).Nodup := List.nodup_nil
  exact nodup_overlay hempty pairs

theorem overlay_ofPairs (d : Dictionary α) (pairs : List (String × α)) :
    overlay d (ofPairs pairs) = overlay d pairs := by
  induction pairs using List.reverseRecOn with
  | nil => rfl
  | append_singleton pairs pair ih =>
    have hsplit : ofPairs (pairs ++ [pair]) = insert (ofPairs pairs) pair.1 pair.2 :=
      overlay_concat [] pairs pair.1 pair.2
    rw [hsplit, overlay_insert_right d (nodup_ofPairs pairs), ih, overlay_concat]

theorem get?_overlay_ofPairs (d : Dictionary α) (pairs : List (String × α)) (key : String) :
    get? (overlay d (ofPairs pairs)) key = (get? (ofPairs pairs) key).or (get? d key) := by
  rw [overlay_ofPairs, get?_overlay, get?_ofPairs]

theorem ofPairs_eq_nil_iff {pairs : List (String × α)} : ofPairs pairs = [] ↔ pairs = [] := by
  induction pairs using List.reverseRecOn with
  | nil => exact ⟨fun _ => rfl, fun _ => rfl⟩
  | append_singleton pairs pair _ =>
    rw [ofPairs, overlay_concat]
    simp [insert_ne_nil]

theorem mem_keys_ofPairs {pairs : List (String × α)} {key : String} :
    key ∈ keys (ofPairs pairs) ↔ key ∈ keys pairs := by
  rw [← has_iff_mem_keys, has, get?_ofPairs, ← has, has_iff_mem_keys]
  simp [keys]

end Dictionary

end SchemaForm
