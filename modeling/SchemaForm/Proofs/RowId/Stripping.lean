import Mathlib.Data.List.Infix
import SchemaForm.Proofs.RowId.Bare
import SchemaForm.Proofs.RowId.Spelling

set_option autoImplicit false
set_option relaxedAutoImplicit false

/-!
Stripping and stamping. Both walk a value, and both touch the identities of rows only: stripping a
stamped value is stripping the value itself, and the values that stripping leaves as they are, are
the bare ones. At every place that is not inside an identity, a stripped value has what was there,
stripped.
-/

namespace SchemaForm

/-- A value, an item or a member of a part of it, and so on. -/
inductive Json.HasPart : Json → Json → Prop where
  | self (v : Json) : HasPart v v
  | item {items : List Json} {v part : Json} (hheld : v ∈ items) (hinside : HasPart v part) :
      HasPart (.array items) part
  | member {members : Dictionary Json} {name : String} {v part : Json}
      (hheld : (name, v) ∈ members) (hinside : HasPart v part) : HasPart (.object members) part

/-- The place is the identity of a row, or lies inside it. -/
def Place.EntersRowId (l : Place) : Prop := ∃ n, [.item n, .member RowId.key] <:+: l

namespace RowId

/-! ### What stripping leaves as it is -/

private theorem dropFromRow_of_none {v : Json} (habsent : v.get? key = none) :
    dropFromRow v = v := by
  cases v with
  | object members => rw [dropFromRow, Dictionary.erase_of_get?_none habsent]
  | _ => rfl

mutual

private theorem strip_of_isBare : (v : Json) → isBare v = true → strip v = v
  | .array items, hbare => by
    rw [isBare] at hbare
    rw [strip, stripItems_of_areBareItems items hbare]
  | .object members, hbare => by
    rw [isBare] at hbare
    rw [strip, stripMembers_of_areBareMembers members hbare]
  | .null, _ | .bool _, _ | .number _, _ | .text _, _ => by simp only [strip]

private theorem stripItems_of_areBareItems : (items : List Json) → areBareItems items = true →
    stripItems items = items
  | [], _ => rfl
  | v :: rest, hbare => by
    simp only [areBareItems, Bool.and_eq_true, Option.isNone_iff_eq_none] at hbare
    obtain ⟨⟨hunnamed, hbare⟩, hlater⟩ := hbare
    rw [stripItems, strip_of_isBare v hbare, dropFromRow_of_none hunnamed,
      stripItems_of_areBareItems rest hlater]

private theorem stripMembers_of_areBareMembers : (members : List (String × Json)) →
    areBareMembers members = true → stripMembers members = members
  | [], _ => rfl
  | (_, v) :: rest, hbare => by
    obtain ⟨hbare, hlater⟩ := Bool.and_eq_true_iff.mp hbare
    rw [stripMembers, strip_of_isBare v hbare, stripMembers_of_areBareMembers rest hlater]

end

private theorem strip_strip (v : Json) :
    strip (strip v) = strip v := strip_of_isBare _ (isBare_strip v)

private theorem strip_eq_self_iff {v : Json} : strip v = v ↔ isBare v = true :=
  ⟨fun hsame => hsame ▸ isBare_strip v, strip_of_isBare v⟩

private theorem unnamed_of_isBare {v : Json} {items : List Json} (hbare : isBare v = true)
    (hpart : v.HasPart (.array items)) : ∀ row ∈ items, row.get? key = none := by
  generalize hwhole : Json.array items = inner at hpart
  induction hpart with
  | self v =>
    subst hwhole
    rw [isBare, areBareItems_iff] at hbare
    exact fun row hmember => (hbare row hmember).1
  | item hheld _ ih =>
    rw [isBare, areBareItems_iff] at hbare
    exact ih (hbare _ hheld).2 hwhole
  | member hheld _ ih =>
    rw [isBare, areBareMembers_iff] at hbare
    exact ih (hbare _ hheld) hwhole

mutual

private theorem isBare_of_unnamed : (v : Json) →
    (∀ items, v.HasPart (.array items) → ∀ row ∈ items, row.get? key = none) → isBare v = true
  | .array items, hunnamed => by
    rw [isBare]
    refine areBareItems_of_unnamed items (hunnamed items (.self _)) fun v hheld items hpart => ?_
    exact hunnamed items (.item hheld hpart)
  | .object members, hunnamed => by
    rw [isBare]
    exact areBareMembers_of_unnamed members fun pair hheld items hpart =>
      hunnamed items (.member hheld hpart)
  | .null, _ | .bool _, _ | .number _, _ | .text _, _ => by simp only [isBare]

private theorem areBareItems_of_unnamed : (items : List Json) → (∀ v ∈ items, v.get? key = none) →
    (∀ v ∈ items, ∀ items, v.HasPart (.array items) → ∀ row ∈ items, row.get? key = none) →
    areBareItems items = true
  | [], _, _ => rfl
  | v :: rest, hunnamed, hbelow => by
    rw [areBareItems, hunnamed v List.mem_cons_self,
      isBare_of_unnamed v (hbelow v List.mem_cons_self),
      areBareItems_of_unnamed rest (fun w hheld => hunnamed w (List.mem_cons_of_mem v hheld))
        fun w hheld => hbelow w (List.mem_cons_of_mem v hheld)]
    rfl

private theorem areBareMembers_of_unnamed : (members : List (String × Json)) →
    (∀ pair ∈ members, ∀ items, pair.2.HasPart (.array items) → ∀ row ∈ items,
      row.get? key = none) → areBareMembers members = true
  | [], _ => rfl
  | (k, v) :: rest, hbelow => by
    rw [areBareMembers, isBare_of_unnamed v (hbelow (k, v) List.mem_cons_self),
      areBareMembers_of_unnamed rest fun pair hheld => hbelow pair (List.mem_cons_of_mem _ hheld)]
    rfl

end

/-! ### Stripping what was stamped -/

private theorem stripMembers_eq (members : List (String × Json)) :
    stripMembers members = Dictionary.mapValues (fun _ => strip) members := by
  induction members with
  | nil => rfl
  | cons pair rest ih => rw [stripMembers, ih]; rfl

private theorem stripItems_eq (items : List Json) :
    stripItems items = items.map fun v => dropFromRow (strip v) := by
  induction items with
  | nil => rfl
  | cons v rest ih => rw [stripItems, ih, List.map_cons]

private theorem dropFromRow_strip_insert_key (members : Dictionary Json) (id : Json) :
    dropFromRow (strip (.object (Dictionary.insert members key id))) =
      dropFromRow (strip (.object members)) := by
  rw [strip, strip, dropFromRow, dropFromRow, stripMembers_eq, stripMembers_eq,
    Dictionary.mapValues_insert, Dictionary.erase_insert]

section Stamping

variable (creating : Bool)

mutual

theorem strip_stamp : (v : Json) → (ids : RowIds) → strip (stamp creating ids v).1 = strip v
  | .object members, ids => by
    rw [stamp, strip, strip, stripMembers_stampMembers false members ids]
  | .array items, ids => by
    rw [stamp, strip, strip, stripItems_stampItems items ids]
  | .null, _ | .bool _, _ | .number _, _ | .text _, _ => by simp only [stamp]

private theorem stripMembers_stampMembers (inRow : Bool) : (members : List (String × Json)) →
    (ids : RowIds) → stripMembers (stampMembers creating inRow ids members).1 = stripMembers members
  | [], _ => rfl
  | (k, v) :: rest, ids => by
    rw [stampMembers]
    split
    · rw [stripMembers, stripMembers, stripMembers_stampMembers inRow rest ids]
    · rw [stripMembers, stripMembers, strip_stamp v ids, stripMembers_stampMembers inRow rest]

private theorem stripItems_stampItems : (items : List Json) → (ids : RowIds) →
    stripItems (stampItems creating ids items).1 = stripItems items
  | [], _ => rfl
  | .object members :: rest, ids => by
    rw [stampItems, stripItems, stripItems, dropFromRow_strip_insert_key, strip,
      stripMembers_stampMembers true members, stripItems_stampItems rest, ← strip]
  | .array _ :: rest, ids | .null :: rest, ids | .bool _ :: rest, ids | .number _ :: rest, ids
  | .text _ :: rest, ids => by
    rw [stampItems, stripItems, stripItems, stripItems_stampItems rest ids]
    simp

end

end Stamping

/-! ### The places of a stripped value -/

/-- What a value that stands at a place is after stripping: a row has lost its identity. -/
def strippedAt (l : Place) (v : Json) : Json :=
  match l.getLast? with
  | some (.item _) => dropFromRow (strip v)
  | _ => strip v

private theorem strippedAt_cons (s s' : Step) (l : Place) :
    strippedAt (s :: s' :: l) = strippedAt (s' :: l) := by
  funext v
  rw [strippedAt, strippedAt, List.getLast?_cons_cons]

theorem at?_dropFromRow_cons {s : Step} (hother : s ≠ .member key) (v : Json) (l : Place) :
    (dropFromRow v).at? (s :: l) = v.at? (s :: l) := by
  cases v with
  | object members =>
    cases s with
    | item n => rfl
    | member name =>
      have hkept : key ≠ name := fun hsame => hother (by rw [hsame])
      rw [Json.at?_cons, Json.at?_cons, dropFromRow, Json.below?, Json.below?,
        Dictionary.get?_erase, if_neg hkept]
  | _ => rfl

private theorem entersRowId_cons {s : Step} {l : Place} (henters : l.EntersRowId) :
    Place.EntersRowId (s :: l) := by
  obtain ⟨n, hinside⟩ := henters
  exact ⟨n, List.infix_cons hinside⟩

/-- Outside of identities a stripped value has at every place what was there, stripped. -/
theorem at?_strip {l : Place} (houtside : ¬ l.EntersRowId) (v : Json) :
    (strip v).at? l = (v.at? l).map (strippedAt l) := by
  induction l generalizing v with
  | nil => rfl
  | cons s l ih =>
    have hlater (w : Json) := ih (fun henters => houtside (entersRowId_cons henters)) w
    rw [Json.at?_cons, Json.at?_cons]
    cases v with
    | array items =>
      cases s with
      | member name => rfl
      | item n =>
        simp only [strip, Json.below?, stripItems_eq, List.getElem?_map]
        cases items[n]? with
        | none => rfl
        | some c =>
          simp only [Option.map_some, Option.bind_some]
          cases l with
          | nil => rfl
          | cons s' l =>
            -- A row has lost its identity, but the place does not go there.
            have hother : s' ≠ .member key := by
              rintro rfl
              exact houtside ⟨n, [], l, rfl⟩
            rw [at?_dropFromRow_cons hother, hlater, strippedAt_cons]
    | object members =>
      cases s with
      | item n => rfl
      | member name =>
        simp only [strip, Json.below?, stripMembers_eq, Dictionary.get?_mapValues]
        cases Dictionary.get? members name with
        | none => rfl
        | some c =>
          simp only [Option.map_some, Option.bind_some]
          cases l with
          | nil => rfl
          | cons s' l => rw [hlater, strippedAt_cons]
    | _ => rfl

private theorem isBare_at? {v c : Json} {l : Place} (hbare : isBare v = true)
    (hleads : v.at? l = some c) :
    isBare c = true := by
  induction l generalizing v with
  | nil =>
    cases hleads
    exact hbare
  | cons s l ih =>
    obtain ⟨w, hbelow, hleads⟩ := Option.bind_eq_some_iff.mp hleads
    refine ih ?_ hleads
    cases v with
    | array items =>
      cases s with
      | member name => cases hbelow
      | item n =>
        rw [isBare, areBareItems_iff] at hbare
        exact (hbare w (List.mem_of_getElem? hbelow)).2
    | object members =>
      cases s with
      | item n => cases hbelow
      | member name => exact isBare_of_get? (v := .object members) hbare hbelow
    | _ => cases hbelow

private theorem at?_strip_of_enters {l : Place} (henters : l.EntersRowId) (v : Json) :
    (strip v).at? l = none := by
  obtain ⟨n, front, rest, rfl⟩ := henters
  rw [List.append_assoc, Json.at?_append]
  cases hheld : (strip v).at? front with
  | none => rfl
  | some w =>
    have hbare := isBare_at? (isBare_strip v) hheld
    cases w with
    | array items =>
      rw [isBare, areBareItems_iff] at hbare
      change (items[n]?.bind fun c => c.at? (.member key :: rest)) = none
      cases hrow : items[n]? with
      | none => rfl
      | some c =>
        have hunnamed := (hbare c (List.mem_of_getElem? hrow)).1
        rw [Option.bind_some, Json.at?_cons, Json.below?_member, hunnamed]
        rfl
    | _ => rfl

private theorem not_entersRowId_concat {l : Place} (houtside : ¬ l.EntersRowId)
    (hnoItem : ∀ n, l.getLast? ≠ some (.item n)) (name : String) :
    ¬ Place.EntersRowId (l ++ [.member name]) := by
  rintro ⟨n, hinside⟩
  rcases List.infix_concat_iff.mp hinside with hatEnd | hbefore
  · obtain ⟨front, hsame⟩ := hatEnd
    have hends : front ++ [.item n] = l := by
      have hparted : (front ++ [.item n]) ++ [.member key] = l ++ [.member name] := by
        simpa using hsame
      exact (List.append_inj' hparted rfl).1
    exact hnoItem n (by rw [← hends, List.getLast?_concat])
  · exact houtside ⟨n, hbefore⟩

private theorem get?_key_strip {l : Place} (houtside : ¬ l.EntersRowId)
    (hnoItem : ∀ n, l.getLast? ≠ some (.item n)) (v : Json) :
    ((strip v).at? l).bind (·.get? key) = ((v.at? l).bind (·.get? key)).map strip := by
  have hmember (w : Json) : (w.at? l).bind (·.get? key) = w.at? (l ++ [.member key]) := by
    rw [Json.at?_append]
    refine congrArg (w.at? l).bind (funext fun c => ?_)
    rw [Json.at?_cons, Json.below?_member]
    cases c.get? key <;> rfl
  have hplain : strippedAt (l ++ [.member key]) = strip := by
    funext w
    rw [strippedAt, List.getLast?_concat]
  rw [hmember, hmember, at?_strip (not_entersRowId_concat houtside hnoItem key), hplain]

/-- Stripping undoes stamping, and undoes nothing else. A value and the stamped value are the same
after stripping, a second time it changes nothing, and it leaves a value as it is exactly if no item
of an array in it has an identity. Of an object that is no row, and that is not inside the identity
of one, both functions leave the member of that name alone, but for the rows in its value. Of the
identities of rows, and of what is inside, stripping leaves nothing. -/
theorem strip_undoes_stamp (v : Json) :
    (∀ creating ids, strip (stamp creating ids v).1 = strip v) ∧
    strip (strip v) = strip v ∧
    (strip v = v ↔ ∀ items, v.HasPart (.array items) → ∀ row ∈ items, row.get? key = none) ∧
    ∀ l : Place, (l.EntersRowId → (strip v).at? l = none) ∧
      (¬ l.EntersRowId → (∀ n, l.getLast? ≠ some (.item n)) →
        ((strip v).at? l).bind (·.get? key) = ((v.at? l).bind (·.get? key)).map strip ∧
        ∀ creating ids, (((stamp creating ids v).1.at? l).bind (·.get? key)).map strip =
          ((v.at? l).bind (·.get? key)).map strip) := by
  have hundone (creating : Bool) (ids : RowIds) : strip (stamp creating ids v).1 = strip v :=
    strip_stamp creating v ids
  refine ⟨hundone, strip_strip v, strip_eq_self_iff.trans ⟨?_, isBare_of_unnamed v⟩, ?_⟩
  · exact fun hbare items hpart => unnamed_of_isBare hbare hpart
  · refine fun l => ⟨fun henters => at?_strip_of_enters henters v, fun houtside hnoItem => ?_⟩
    have hkept := get?_key_strip houtside hnoItem
    exact ⟨hkept v, fun creating ids => by rw [← hkept, ← hkept, hundone]⟩

/-- An invoice that has a number under the name of identities, and so has the customer of its line.
-/
private def invoiceInFile : Json :=
  .ofPairs [("cid", .text "2026-7"), ("lines", .array [
    .ofPairs [("cid", .text "c1"), ("customer", .ofPairs [("cid", .ofNat 12)]),
      ("sizes", .array [.array [.ofPairs [("cid", .text "c2"), ("size", .ofNat 3)]]])]])]

/-- The line and its size lose their identities, the invoice and the customer keep their numbers. -/
theorem strip_undoes_stamp_invoice :
    let customer : Place := [.member "lines", .item 0, .member "customer"]
    let identity : Place := [.member "lines", .item 0, .member key]
    strip invoiceInFile = .ofPairs [("cid", .text "2026-7"), ("lines", .array [
      .ofPairs [("customer", .ofPairs [("cid", .ofNat 12)]),
        ("sizes", .array [.array [.ofPairs [("size", .ofNat 3)]]])]])] ∧
      strip (stamp true ⟨4⟩ invoiceInFile).1 = strip invoiceInFile ∧
      ¬ customer.EntersRowId ∧ (∀ n, customer.getLast? ≠ some (.item n)) ∧
      (((stamp true ⟨4⟩ invoiceInFile).1.at? customer).bind (·.get? key)).map strip =
        some (.ofNat 12) ∧
      ((strip invoiceInFile).at? customer).bind (·.get? key) = some (.ofNat 12) ∧
      identity.EntersRowId ∧ (strip invoiceInFile).at? identity = none := by
  intro customer identity
  obtain ⟨hundone, -, -, hkept⟩ := strip_undoes_stamp invoiceInFile
  have houtside : ¬ customer.EntersRowId := by
    rintro ⟨n, hinside⟩
    have hnamed : Step.member key ∈ customer := hinside.mem (by simp)
    exact absurd hnamed (by decide)
  have hnoItem : ∀ n, customer.getLast? ≠ some (.item n) := by simp [customer]
  have hnumber : ((invoiceInFile.at? customer).bind (·.get? key)).map strip = some (.ofNat 12) := by
    decide +kernel
  have henters : identity.EntersRowId := ⟨0, [.member "lines"], [], rfl⟩
  obtain ⟨hstripped, hstamped⟩ := (hkept customer).2 houtside hnoItem
  exact ⟨by decide +kernel, hundone true ⟨4⟩, houtside, hnoItem, (hstamped true ⟨4⟩).trans hnumber,
    hstripped.trans hnumber, henters, (hkept identity).1 henters⟩

end RowId

end SchemaForm
