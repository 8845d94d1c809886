import SchemaForm.Proofs.RowId.Naming
import SchemaForm.Proofs.RowId.Stripping

set_option autoImplicit false
set_option relaxedAutoImplicit false

/-!
The rows that stamping reaches. It does not go into arrays that are items of arrays, where stripping
does go. Every row outside of such arrays gets the next number, and what is inside stays as it was.
So stamping names every row of a value exactly if no row of it lies in an array of arrays.
-/

namespace SchemaForm

/-- The place lies in an array that is an item of an array. -/
def Place.Nested (l : Place) : Prop := ∃ m n, [.item m, .item n] <:+: l

private theorem Place.nested_cons_iff {s : Step} {l : Place} : Place.Nested (s :: l) ↔
    ((∃ n, s = .item n) ∧ ∃ n rest, l = .item n :: rest) ∨ l.Nested := by
  constructor
  · rintro ⟨m, n, hinside⟩
    rcases List.infix_cons_iff.mp hinside with hhere | hlater
    · obtain ⟨hsame, rest, rfl⟩ := List.cons_prefix_cons.mp hhere
      exact .inl ⟨⟨m, hsame.symm⟩, n, rest, rfl⟩
    · exact .inr ⟨m, n, hlater⟩
  · rintro (⟨⟨m, rfl⟩, n, rest, rfl⟩ | ⟨m, n, hlater⟩)
    · exact ⟨m, n, [], rest, rfl⟩
    · exact ⟨m, n, List.infix_cons hlater⟩

namespace Json

private theorem areFlatItems_iff {items : List Json} : areFlatItems items = true ↔
    ∀ v ∈ items, v.isArray = false ∧ v.isFlat = true := by
  induction items with
  | nil => simp [areFlatItems]
  | cons v rest ih => simp [areFlatItems, ih]

private theorem areFlatMembers_iff {members : List (String × Json)} :
    areFlatMembers members = true ↔
    ∀ pair ∈ members, pair.2.isFlat = true := by
  induction members with
  | nil => simp [areFlatMembers]
  | cons pair rest ih => simp [areFlatMembers, ih]

end Json

private theorem Place.Nested.two_le_length {l : Place} (hnested : l.Nested) : 2 ≤ l.length := by
  obtain ⟨m, n, hinside⟩ := hnested
  exact hinside.length_le

@[simp] theorem Place.not_nested_nil : ¬ Place.Nested [] :=
  fun hnested => absurd hnested.two_le_length (by simp)

private theorem Json.not_nested_of_isFlat {v c : Json} {l : Place} (hflat : v.isFlat = true)
    (hleads : v.at? l = some c) : ¬ l.Nested := by
  induction l generalizing v with
  | nil => exact Place.not_nested_nil
  | cons s l ih =>
    obtain ⟨w, hbelow, honward⟩ := Option.bind_eq_some_iff.mp hleads
    rw [Place.nested_cons_iff]
    cases v with
    | array items =>
      cases s with
      | member name => cases hbelow
      | item n =>
        rw [isFlat, areFlatItems_iff] at hflat
        obtain ⟨hsingle, hflatW⟩ := hflat w (List.mem_of_getElem? hbelow)
        rintro (⟨-, m, rest, rfl⟩ | hlater)
        · cases w with
          | array inner => cases hsingle
          | _ => cases honward
        · exact ih hflatW honward hlater
    | object members =>
      cases s with
      | item n => cases hbelow
      | member name =>
        rw [isFlat, areFlatMembers_iff] at hflat
        simpa using ih (hflat _ (Dictionary.mem_of_get? hbelow)) honward
    | _ => cases hbelow

namespace RowId

/-! ### Rows outside of arrays of arrays -/

mutual

/-- The value with null in place of every array that is an item of an array. -/
def pruned : Json → Json
  | .array items => .array (prunedItems items)
  | .object members => .object (prunedMembers members)
  | v => v

def prunedItems : List Json → List Json
  | [] => []
  | v :: rest => (if v.isArray then .null else pruned v) :: prunedItems rest

def prunedMembers : List (String × Json) → List (String × Json)
  | [] => []
  | (k, v) :: rest => (k, pruned v) :: prunedMembers rest

end

private theorem prunedItems_eq (items : List Json) :
    prunedItems items = items.map fun v => if v.isArray then .null else pruned v := by
  induction items with
  | nil => rfl
  | cons v rest ih => rw [prunedItems, ih, List.map_cons]

private theorem prunedMembers_eq (members : List (String × Json)) :
    prunedMembers members = Dictionary.mapValues (fun _ => pruned) members := by
  induction members with
  | nil => rfl
  | cons pair rest ih => rw [prunedMembers, ih]; rfl

private theorem isArray_pruned (v : Json) : (pruned v).isArray = v.isArray := by
  cases v <;> simp only [pruned, Json.isArray]

mutual

private theorem isFlat_pruned : (v : Json) → (pruned v).isFlat = true
  | .array items => by
    rw [pruned, Json.isFlat]
    exact areFlatItems_prunedItems items
  | .object members => by
    rw [pruned, Json.isFlat]
    exact areFlatMembers_prunedMembers members
  | .null | .bool _ | .number _ | .text _ => by simp only [pruned, Json.isFlat]

private theorem areFlatItems_prunedItems : (items : List Json) →
    Json.areFlatItems (prunedItems items) = true
  | [] => rfl
  | v :: rest => by
    rw [prunedItems, Json.areFlatItems, areFlatItems_prunedItems rest]
    split
    · rfl
    · rename_i hsingle
      simp [isArray_pruned, hsingle, isFlat_pruned v]

private theorem areFlatMembers_prunedMembers : (members : List (String × Json)) →
    Json.areFlatMembers (prunedMembers members) = true
  | [] => rfl
  | (_, v) :: rest => by
    rw [prunedMembers, Json.areFlatMembers, isFlat_pruned v, areFlatMembers_prunedMembers rest]
    rfl

end

section Stamping

variable (creating : Bool)

mutual

/-- Stamping and pruning can be done in either order, with the same identities. -/
private theorem stamp_pruned : (v : Json) → (ids : RowIds) →
    stamp creating ids (pruned v) = (pruned (stamp creating ids v).1, (stamp creating ids v).2)
  | .object members, ids => by
    rw [pruned, stamp, stamp, pruned, stampMembers_pruned false members ids]
  | .array items, ids => by
    rw [pruned, stamp, stamp, pruned, stampItems_pruned items ids]
  | .null, _ | .bool _, _ | .number _, _ | .text _, _ => by simp only [pruned, stamp]

private theorem stampMembers_pruned (inRow : Bool) :
    (members : List (String × Json)) → (ids : RowIds) →
    stampMembers creating inRow ids (prunedMembers members) =
      (prunedMembers (stampMembers creating inRow ids members).1,
        (stampMembers creating inRow ids members).2)
  | [], _ => rfl
  | (k, v) :: rest, ids => by
    rw [prunedMembers, stampMembers, stampMembers]
    split
    · rw [stampMembers_pruned inRow rest ids]
      rfl
    · have hlater := stampMembers_pruned inRow rest (stamp creating ids v).2
      simp only [stamp_pruned v ids, hlater]
      rfl

private theorem stampItems_pruned : (items : List Json) → (ids : RowIds) →
    stampItems creating ids (prunedItems items) =
      (prunedItems (stampItems creating ids items).1, (stampItems creating ids items).2)
  | [], _ => rfl
  | .object members :: rest, ids => by
    have hinside := stampMembers_pruned true members (ids.draw (letters creating)).2
    have hlater := fun ids => stampItems_pruned rest ids
    have hlaid (d : Dictionary Json) (id : String) :
        Dictionary.insert (prunedMembers d) key (.text id) =
          prunedMembers (Dictionary.insert d key (.text id)) := by
      have hscalar : pruned (.text id) = .text id := by simp only [pruned]
      rw [prunedMembers_eq, prunedMembers_eq, Dictionary.mapValues_insert, hscalar]
    have hrow (d : Dictionary Json) (rest : List Json) : prunedItems (.object d :: rest) =
        .object (prunedMembers d) :: prunedItems rest := by
      simp [prunedItems, pruned, Json.isArray]
    simp only [hrow, stampItems, hinside, hlater, hlaid]
  | .array _ :: rest, ids | .null :: rest, ids | .bool _ :: rest, ids | .number _ :: rest, ids
  | .text _ :: rest, ids => by
    have hlater := stampItems_pruned rest ids
    simp [prunedItems, pruned, Json.isArray, stampItems, hlater]

end

end Stamping

private theorem rowAt_pruned {v row : Json} {l : Place} (hthere : v.RowAt l row)
    (houtside : ¬ l.Nested) :
    (pruned v).RowAt l (pruned row) := by
  induction l generalizing v with
  | nil => exact absurd rfl hthere.ne_nil
  | cons s l ih =>
    have hlater : ¬ Place.Nested l := fun hnested =>
      houtside (Place.nested_cons_iff.mpr (.inr hnested))
    have hisObject : ∃ members, pruned row = .object members := by
      obtain ⟨members, rfl⟩ := hthere.isObject
      exact ⟨_, rfl⟩
    cases v with
    | array items =>
      obtain ⟨n, c, l', hsame, hheld, hinside⟩ := hthere.cases_array
      cases hsame
      -- An item that holds the row is no array, as the place would be nested.
      have hsingle : c.isArray = false := by
        cases c with
        | array inner =>
          rcases hinside with hinside | ⟨-, rfl⟩
          · obtain ⟨m, -, rest, rfl, -, -⟩ := hinside.cases_array
            exact absurd (Place.nested_cons_iff.mpr (.inl ⟨⟨n, rfl⟩, m, rest, rfl⟩)) houtside
          · obtain ⟨members, hisRow⟩ := hthere.isObject
            cases hisRow
        | _ => rfl
      rw [pruned]
      refine .of_cases_array (c := pruned c) ?_ ?_ hisObject
      · simp [prunedItems_eq, hheld, hsingle]
      · exact hinside.imp (fun hinside => ih hinside hlater)
          fun ⟨hnothing, hsame⟩ => ⟨hnothing, by rw [hsame]⟩
    | object members =>
      obtain ⟨name, c, l', hsame, hheld, hinside⟩ := hthere.cases_object
      cases hsame
      refine (ih hinside hlater).of_below (s := .member name) ?_
      simp [pruned, Json.below?, prunedMembers_eq, Dictionary.get?_mapValues, hheld]
    | _ => exact absurd hthere (Json.not_rowAt_of_isScalar rfl _ row)

private theorem of?_pruned (row : Json) : of? (pruned row) = of? row := by
  cases row with
  | object members =>
    rw [of?, of?, pruned, Json.get?, Json.get?, prunedMembers_eq, Dictionary.get?_mapValues]
    cases Dictionary.get? members key with
    | none => rfl
    | some id => cases id <;> simp only [Option.map_some, Option.bind_some, pruned, Json.text?]
  | array items => rfl
  | _ => simp only [pruned]

/-! ### What lies in arrays of arrays -/

private theorem NamesMembers.get? {ids : List String} {members members' : Dictionary Json}
    (hnames : NamesMembers ids members members') {name : String} {v' : Json}
    (hheld : Dictionary.get? members' name = some v') :
    ∃ v ids', Dictionary.get? members name = some v ∧ Names ids' v v' := by
  induction members generalizing ids members' with
  | nil =>
    cases hnames
    cases hheld
  | cons pair rest ih =>
    cases hnames with
    | cons hvalue hrest =>
      rw [Dictionary.get?_cons] at hheld ⊢
      split at hheld
      · rename_i hsame
        cases hheld
        exact ⟨_, _, if_pos hsame, hvalue⟩
      · rename_i hother
        rw [if_neg hother]
        exact ih hrest hheld

private theorem NamesItems.getElem? {ids : List String} {items items' : List Json}
    (hnames : NamesItems ids items items') {n : Nat} {v' : Json} (hheld : items'[n]? = some v') :
    (∃ members members' id ids', v' = .object members' ∧ items[n]? = some (.object members) ∧
      Dictionary.get? members' key = some (.text id) ∧
      NamesMembers ids' (Dictionary.erase members key) (Dictionary.erase members' key)) ∨
    items[n]? = some v' := by
  induction items generalizing ids items' n with
  | nil =>
    cases hnames
    cases hheld
  | cons v rest ih =>
    cases hnames with
    | row hid hothers hrest =>
      cases n with
      | zero =>
        cases hheld
        exact .inl ⟨_, _, _, _, rfl, rfl, hid, hothers⟩
      | succ n => exact ih hrest hheld
    | other hother hrest =>
      cases n with
      | zero => exact .inr hheld
      | succ n => exact ih hrest hheld

/-- What stands in an array of arrays after stamping, stood there before. -/
private theorem Names.at?_of_nested {ids : List String} {v v' c : Json} {l : Place}
    (hnames : Names ids v v') (hnested : l.Nested) (hleads : v'.at? l = some c) :
    v.at? l = some c := by
  induction l generalizing ids v v' with
  | nil => exact absurd hnested.two_le_length (by simp)
  | cons s l ih =>
    obtain ⟨w', hbelow, honward⟩ := Option.bind_eq_some_iff.mp hleads
    cases hnames with
    | scalar hscalar =>
      rw [Json.below?_of_isScalar hscalar] at hbelow
      cases hbelow
    | object hmembers =>
      cases s with
      | item n => cases hbelow
      | member name =>
        have hlater : Place.Nested l := by simpa using Place.nested_cons_iff.mp hnested
        obtain ⟨w, ids', hheld, hinside⟩ := hmembers.get? hbelow
        rw [Json.at?_cons, Json.below?, hheld]
        exact ih hinside hlater honward
    | array hitems =>
      cases s with
      | member name => cases hbelow
      | item n =>
        rw [Json.at?_cons, Json.below?]
        rcases hitems.getElem? hbelow with
          ⟨members, members', id, ids', rfl, hheld, hid, hothers⟩ | hheld
        · rw [hheld, Option.bind_some]
          cases l with
          | nil => exact absurd hnested.two_le_length (by simp)
          | cons s' l =>
            obtain ⟨w, hinRow, hfurther⟩ := Option.bind_eq_some_iff.mp honward
            cases s' with
            | item m => cases hinRow
            | member name =>
              have hlater : Place.Nested (.member name :: l) := by
                simpa using Place.nested_cons_iff.mp hnested
              -- Below the new identity of the row, which is a text, nothing stands.
              have hother : Step.member name ≠ .member key := by
                rintro hsame
                cases hsame
                rw [Json.below?, hid] at hinRow
                cases hinRow
                cases l with
                | nil => exact absurd hlater.two_le_length (by simp)
                | cons s'' l => cases hfurther
              have hinside : (dropFromRow (.object members)).at? (.member name :: l) = some c := by
                refine ih (.object hothers) hlater ?_
                rwa [← dropFromRow, at?_dropFromRow_cons hother]
              rwa [at?_dropFromRow_cons hother] at hinside
        · rw [hheld]
          exact honward

/-! ### The rows of a stamped value -/

section Rows

variable {creating : Bool} {ids : RowIds} {v row : Json} {l : Place}

private theorem exists_named_stamp (hthere : (stamp creating ids v).1.RowAt l row)
    (houtside : ¬ l.Nested) :
    ∃ n, ids.last < n ∧ n ≤ (stamp creating ids v).2.last ∧ of? row = some (named creating n) := by
  have hnumbered := numbered_stamp creating (pruned v) ids (isFlat_pruned v)
  rw [stamp_pruned] at hnumbered
  have hname := hnumbered.isNamed l (pruned row) (rowAt_pruned hthere houtside)
  rwa [of?_pruned] at hname

private theorem eq_of_of?_stamp {l' : Place} {row' : Json}
    (hthere : (stamp creating ids v).1.RowAt l row)
    (hthere' : (stamp creating ids v).1.RowAt l' row') (houtside : ¬ l.Nested)
    (houtside' : ¬ l'.Nested) (hsame : of? row = of? row') : l = l' := by
  have hnumbered := numbered_stamp creating (pruned v) ids (isFlat_pruned v)
  rw [stamp_pruned] at hnumbered
  refine hnumbered.distinct l l' _ _ (rowAt_pruned hthere houtside)
    (rowAt_pruned hthere' houtside') ?_
  rw [of?_pruned, of?_pruned, hsame]

private theorem exists_rowAt_stamp (hthere : v.RowAt l row) (houtside : ¬ l.EntersRowId)
    (creating : Bool) (ids : RowIds) : ∃ row', (stamp creating ids v).1.RowAt l row' := by
  obtain ⟨n, hlast⟩ := hthere.isItem
  obtain ⟨members, hisRow⟩ := hthere.isObject
  have hstripped :
      ((stamp creating ids v).1.at? l).map (strippedAt l) = some (strippedAt l row) := by
    rw [← at?_strip houtside, strip_stamp, at?_strip houtside, hthere.leads, Option.map_some]
  obtain ⟨c, hleads, hsame⟩ := Option.map_eq_some_iff.mp hstripped
  refine ⟨c, hleads, hthere.isItem, ?_⟩
  simp only [strippedAt, hlast, hisRow, strip, dropFromRow] at hsame
  cases c with
  | object members' => exact ⟨members', rfl⟩
  | _ => simp [strip] at hsame

private theorem not_nested_of_rowAt_stamp
    (hapart : ∀ l row, v.RowAt l row → ¬ l.EntersRowId → ¬ l.Nested)
    (hthere : (stamp creating ids v).1.RowAt l row) : ¬ l.Nested := by
  -- A place that enters an identity goes through a row nearer to the top.
  induction hlength : l.length using Nat.strong_induction_on generalizing l row with
  | _ count ih =>
    intro hnested
    have hbefore : v.RowAt l row :=
      ⟨(names_stamp creating v ids).at?_of_nested hnested hthere.leads, hthere.isItem,
        hthere.isObject⟩
    by_cases henters : l.EntersRowId
    · obtain ⟨n, front, rest, rfl⟩ := henters
      have hparted : front ++ [.item n, .member key] ++ rest =
          (front ++ [.item n]) ++ .member key :: rest := by simp
      have hleads := hthere.leads
      rw [hparted, Json.at?_append] at hleads
      obtain ⟨outer, hthrough, hleads⟩ := Option.bind_eq_some_iff.mp hleads
      obtain ⟨id, hheld, hleads⟩ := Option.bind_eq_some_iff.mp hleads
      rw [Json.below?_member] at hheld
      have hisObject : ∃ members, outer = .object members := by
        cases outer with
        | object members => exact ⟨members, rfl⟩
        | _ => cases hheld
      have houterRow : (stamp creating ids v).1.RowAt (front ++ [.item n]) outer :=
        ⟨hthrough, ⟨n, List.getLast?_concat ..⟩, hisObject⟩
      have hshorter : (front ++ [Step.item n]).length < count := by
        rw [← hlength]
        simp
      obtain ⟨m, -, -, hname⟩ := exists_named_stamp houterRow (ih _ hshorter houterRow rfl)
      rw [of?, hheld, Option.bind_some] at hname
      cases id with
      | text s =>
        cases rest with
        | nil =>
          obtain ⟨k, hlast⟩ := hthere.isItem
          simp at hlast
        | cons s' rest => cases hleads
      | _ => cases hname
    · exact hapart l row hbefore henters hnested

end Rows

/-- Stamping covers the rows outside of arrays of arrays. Each of them is named with a number of its
own, drawn from the supply in between; what lies in an array that is an item of an array stays as it
was. So all rows are named, whatever was drawn before, exactly if none lies in an array of arrays;
rows in the old identities of rows do not count, as new ones take the place of these. -/
theorem stamp_covers_iff (creating : Bool) (v : Json) :
    (∀ ids : RowIds,
      let stamped := (stamp creating ids v).1
      let last := (stamp creating ids v).2.last
      (∀ l row, stamped.RowAt l row → ¬ l.Nested →
        ∃ n, ids.last < n ∧ n ≤ last ∧ of? row = some (named creating n)) ∧
      (∀ l l' row row', stamped.RowAt l row → stamped.RowAt l' row' → ¬ l.Nested → ¬ l'.Nested →
        of? row = of? row' → l = l') ∧
      ∀ l c, l.Nested → stamped.at? l = some c → v.at? l = some c) ∧
    ((∀ ids : RowIds, Numbered creating ids.last (stamp creating ids v).2.last
        (stamp creating ids v).1) ↔
      ∀ l row, v.RowAt l row → ¬ l.EntersRowId → ¬ l.Nested) := by
  refine ⟨fun ids => ⟨?_, ?_, ?_⟩, fun hcovered l row hthere houtside hnested => ?_,
    fun hapart ids => ?_⟩
  · exact fun l row hthere houtside => exists_named_stamp hthere houtside
  · exact fun l l' row row' hthere hthere' houtside houtside' =>
      eq_of_of?_stamp hthere hthere' houtside houtside'
  · exact fun l c hnested hleads => (names_stamp creating v ids).at?_of_nested hnested hleads
  · -- The row keeps its name, which cannot be new again when it was drawn once.
    have hunchanged (ids : RowIds) : (stamp creating ids v).1.RowAt l row := by
      obtain ⟨row', hthere'⟩ := exists_rowAt_stamp hthere houtside creating ids
      have hbefore := (names_stamp creating v ids).at?_of_nested hnested hthere'.leads
      rw [hthere.leads] at hbefore
      cases hbefore
      exact hthere'
    obtain ⟨n, -, -, hname⟩ := (hcovered ⟨0⟩).isNamed l row (hunchanged ⟨0⟩)
    obtain ⟨n', habove, -, hname'⟩ := (hcovered ⟨n⟩).isNamed l row (hunchanged ⟨n⟩)
    rw [hname, Option.some.injEq] at hname'
    exact absurd (named_inj hname') (Nat.ne_of_lt habove)
  · have houtside {l : Place} {row : Json} (hthere : (stamp creating ids v).1.RowAt l row) :
        ¬ l.Nested := not_nested_of_rowAt_stamp hapart hthere
    refine ⟨last_le_stamp creating ids v, ?_, ?_⟩
    · exact fun l row hthere => exists_named_stamp hthere (houtside hthere)
    · exact fun l l' row row' hthere hthere' =>
        eq_of_of?_stamp hthere hthere' (houtside hthere) (houtside hthere')

private def orderInFile : Json :=
  .ofPairs [("lines", .array [.ofPairs [("parts", .array [.ofPairs [("size", .ofNat 3)]])],
    .text "by hand"])]

theorem stamp_covers_iff_order :
    let line : Place := [.member "lines", .item 0]
    let part : Place := [.member "lines", .item 0, .member "parts", .item 0]
    (stamp true ⟨4⟩ orderInFile).1 = .ofPairs [("lines", .array [
        .ofPairs [("cid", .text "c5"), ("parts", .array [
          .ofPairs [("cid", .text "c6"), ("size", .ofNat 3)]])], .text "by hand"])] ∧
      ¬ line.Nested ∧ ¬ part.Nested ∧
      (∃ row, orderInFile.RowAt part row ∧ ¬ part.EntersRowId) ∧
      (∃ row, (stamp true ⟨4⟩ orderInFile).1.RowAt part row ∧
        ∃ n, 4 < n ∧ of? row = some (named true n)) ∧
      Numbered true 4 (stamp true ⟨4⟩ orderInFile).2.last (stamp true ⟨4⟩ orderInFile).1 := by
  intro line part
  obtain ⟨hstamped, hcovered⟩ := stamp_covers_iff true orderInFile
  obtain ⟨hfresh, -, -⟩ := hstamped ⟨4⟩
  have hapart : ∀ l row, orderInFile.RowAt l row → ¬ l.EntersRowId → ¬ l.Nested :=
    fun l row hthere _ => Json.not_nested_of_isFlat (by decide +kernel) hthere.leads
  have hunnested : ¬ part.Nested := by simp [part, Place.nested_cons_iff]
  have houtside : ¬ part.EntersRowId := by
    rintro ⟨n, hinside⟩
    have hnamed : Step.member key ∈ part := hinside.mem (by simp)
    exact absurd hnamed (by decide)
  have hbefore : orderInFile.RowAt part (.ofPairs [("size", .ofNat 3)]) :=
    ⟨by decide +kernel, ⟨0, rfl⟩, ⟨_, rfl⟩⟩
  have hafter : (stamp true ⟨4⟩ orderInFile).1.RowAt part
      (.ofPairs [("cid", .text "c6"), ("size", .ofNat 3)]) :=
    ⟨by decide +kernel, ⟨0, rfl⟩, ⟨_, rfl⟩⟩
  obtain ⟨n, habove, -, hname⟩ := hfresh part _ hafter hunnested
  exact ⟨by decide +kernel, by simp [line, Place.nested_cons_iff], hunnested,
    ⟨_, hbefore, houtside⟩, ⟨_, hafter, n, habove, hname⟩, hcovered.mpr hapart ⟨4⟩⟩

/-- A row in an array of arrays gets no identity, although stripping takes one off there. -/
theorem stamp_passes_over_nested_row :
    let row : Json := .ofPairs [("size", .ofNat 3)]
    let sizes : Json := .array [.array [row]]
    sizes.RowAt [.item 0, .item 0] row ∧ stamp false ⟨0⟩ sizes = (sizes, ⟨0⟩) ∧ of? row = none ∧
      strip (.array [.array [.ofPairs [("cid", .text "nn1"), ("size", .ofNat 3)]]]) = sizes ∧
      ¬ Numbered false 0 (stamp false ⟨0⟩ sizes).2.last (stamp false ⟨0⟩ sizes).1 := by
  intro row sizes
  have hthere : sizes.RowAt [.item 0, .item 0] row := ⟨rfl, ⟨0, rfl⟩, ⟨_, rfl⟩⟩
  have hunchanged : stamp false ⟨0⟩ sizes = (sizes, ⟨0⟩) := by decide +kernel
  have hunnamed : of? row = none := by decide +kernel
  refine ⟨hthere, hunchanged, hunnamed, by decide +kernel, fun hcovered => ?_⟩
  rw [hunchanged] at hcovered
  obtain ⟨n, -, -, hname⟩ := hcovered.isNamed _ row hthere
  rw [hunnamed] at hname
  cases hname

end RowId

end SchemaForm
