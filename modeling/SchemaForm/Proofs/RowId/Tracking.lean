import SchemaForm.Proofs.RowId.Stamping
import SchemaForm.Reduction

set_option autoImplicit false
set_option relaxedAutoImplicit false

/-!
Following rows through a change of a document. A route says where the row of each place goes, if it
is not lost. Along the routes of the changes that actions make to the rows of a collection, rows
keep their identities, and every row of the new document is one that came along, or one that was
made. A value that is replaced in a document leaves the rows elsewhere alone.
-/

namespace SchemaForm

namespace RowId

/-- Where the row of a place goes, if it is not lost. -/
abbrev Route := Place → Option Place

/-- The rows of one value go along a route to another one and keep their identities there. All other
rows of that value are made. -/
structure Carries (route : Route) (made : Place → Prop) (v v' : Json) : Prop where
  kept : ∀ l l' row, v.RowAt l row → route l = some l' →
    ∃ row', v'.RowAt l' row' ∧ of? row' = of? row
  origin : ∀ l' row', v'.RowAt l' row' →
    made l' ∨ ∃ l row, v.RowAt l row ∧ route l = some l' ∧ of? row' = of? row

theorem Carries.imp {route : Route} {made made' : Place → Prop} {v v' : Json}
    (h : Carries route made v v') (hweaker : ∀ l, made l → made' l) : Carries route made' v v' := by
  refine ⟨h.kept, fun l' row' hthere => ?_⟩
  rcases h.origin l' row' hthere with hnew | hold
  · exact .inl (hweaker l' hnew)
  · exact .inr hold

theorem Carries.refl {route : Route} (hstays : ∀ l, route l = some l) (v : Json) :
    Carries route (fun _ => False) v v := by
  constructor
  · intro l l' row hthere hgoes
    rw [hstays l, Option.some.injEq] at hgoes
    exact ⟨row, hgoes ▸ hthere, rfl⟩
  · intro l row hthere
    exact .inr ⟨l, row, hthere, hstays l, rfl⟩

/-! ### Identified rows -/

/-- Every row of a document is named with a number up to a bound, and no two rows have one
identity. -/
structure Identified (bound : Nat) (doc : Json) : Prop where
  isNamed : ∀ l row, doc.RowAt l row →
    ∃ creating n, n ≤ bound ∧ of? row = some (named creating n)
  distinct : ∀ l l' row row', doc.RowAt l row → doc.RowAt l' row' → of? row = of? row' → l = l'

theorem Numbered.identified {creating : Bool} {lower upper : Nat} {v : Json}
    (h : Numbered creating lower upper v) : Identified upper v := by
  refine ⟨fun l row hthere => ?_, h.distinct⟩
  obtain ⟨n, -, hbelow, hname⟩ := h.isNamed l row hthere
  exact ⟨creating, n, hbelow, hname⟩

theorem Identified.mono {bound bound' : Nat} {doc : Json} (h : Identified bound doc)
    (hle : bound ≤ bound') : Identified bound' doc := by
  refine ⟨fun l row hthere => ?_, h.distinct⟩
  obtain ⟨creating, n, hbelow, hname⟩ := h.isNamed l row hthere
  exact ⟨creating, n, Nat.le_trans hbelow hle, hname⟩

/-- Rows that come along stay identified, if those that are made are the rows of a value that was
numbered behind them. -/
theorem Identified.carried {bound bound' : Nat} {doc doc' made_rows : Json} {route : Route}
    {made : Place → Prop} {place : Place → Place} (h : Identified bound doc)
    (hcarries : Carries route made doc doc') (hnumbered : Numbered true bound bound' made_rows)
    (hfresh : ∀ l row, made l → doc'.RowAt l row → ∃ l₀, l = place l₀ ∧ made_rows.RowAt l₀ row) :
    Identified bound' doc' := by
  have hapart {l₀ l : Place} {row₀ row row' : Json} (hthere₀ : made_rows.RowAt l₀ row₀)
      (hthere : doc.RowAt l row) (hsame : of? row' = of? row) : of? row₀ ≠ of? row' := by
    intro hequal
    obtain ⟨n, habove, -, hname⟩ := hnumbered.isNamed l₀ row₀ hthere₀
    obtain ⟨creating, n', hbelow, hname'⟩ := h.isNamed l row hthere
    rw [hequal, hsame, hname', Option.some.injEq] at hname
    have hequal := named_inj hname
    omega
  -- Every row is an old one or a new one, and their numbers are on either side of the bound.
  constructor
  · intro l' row' hthere'
    rcases hcarries.origin l' row' hthere' with hnew | ⟨l, row, hthere, -, hsame⟩
    · obtain ⟨l₀, -, hthere₀⟩ := hfresh l' row' hnew hthere'
      obtain ⟨n, -, hbelow, hname⟩ := hnumbered.isNamed l₀ row' hthere₀
      exact ⟨true, n, hbelow, hname⟩
    · obtain ⟨creating, n, hbelow, hname⟩ := h.isNamed l row hthere
      exact ⟨creating, n, Nat.le_trans hbelow hnumbered.le, hsame.trans hname⟩
  · intro l₁' l₂' row₁' row₂' hthere₁' hthere₂' hequal
    rcases hcarries.origin l₁' row₁' hthere₁' with hnew₁ | ⟨l₁, row₁, hthere₁, hgoes₁, hsame₁⟩
    · obtain ⟨m₁, rfl, hmade₁⟩ := hfresh l₁' row₁' hnew₁ hthere₁'
      rcases hcarries.origin l₂' row₂' hthere₂' with hnew₂ | ⟨l₂, row₂, hthere₂, -, hsame₂⟩
      · obtain ⟨m₂, rfl, hmade₂⟩ := hfresh l₂' row₂' hnew₂ hthere₂'
        rw [hnumbered.distinct m₁ m₂ row₁' row₂' hmade₁ hmade₂ hequal]
      · exact absurd hequal (hapart hmade₁ hthere₂ hsame₂)
    · rcases hcarries.origin l₂' row₂' hthere₂' with hnew₂ | ⟨l₂, row₂, hthere₂, hgoes₂, hsame₂⟩
      · obtain ⟨m₂, rfl, hmade₂⟩ := hfresh l₂' row₂' hnew₂ hthere₂'
        exact absurd hequal.symm (hapart hmade₂ hthere₁ hsame₁)
      · have hone := h.distinct l₁ l₂ row₁ row₂ hthere₁ hthere₂
          (hsame₁.symm.trans (hequal.trans hsame₂))
        subst hone
        rw [hgoes₁, Option.some.injEq] at hgoes₂
        exact hgoes₂

/-! ### The rows of one collection -/

/-- The route of the items of an array, and of all below them. -/
def Route.ofItems (shift : Nat → Option Nat) : Route
  | .item n :: l => (shift n).map fun m => .item m :: l
  | l => some l

/-- The route when a column of every row is overwritten. -/
def Route.clearing (column : String) : Route := fun l =>
  if l[1]? = some (.member column) then none else some l

def Route.none : Route := fun _ => .none

/-- The items of a list are those of another one that are put elsewhere, and those that are made. -/
structure Shifted (shift : Nat → Option Nat) (made : Nat → Prop) (rows rows' : List Json) :
    Prop where
  kept : ∀ n m, n < rows.length → shift n = some m → rows'[m]? = rows[n]?
  origin : ∀ m, m < rows'.length → made m ∨ ∃ n, shift n = some m ∧ rows[n]? = rows'[m]?

section Items

variable {shift : Nat → Option Nat} {made : Nat → Prop} {rows rows' : List Json}

theorem carries_items (hshifted : Shifted shift made rows rows') :
    Carries (.ofItems shift) (fun l => ∃ m l', l = .item m :: l' ∧ made m) (.array rows)
      (.array rows') := by
  constructor
  · intro l l' row hthere hgoes
    obtain ⟨n, c, below, rfl, hheld, hinside⟩ := hthere.cases_array
    obtain ⟨m, hsends, rfl⟩ := Option.map_eq_some_iff.mp hgoes
    obtain ⟨hbound, -⟩ := List.getElem?_eq_some_iff.mp hheld
    have hmoved : rows'[m]? = some c := (hshifted.kept n m hbound hsends).trans hheld
    exact ⟨row, .of_cases_array hmoved hinside hthere.isObject, rfl⟩
  · intro l' row hthere
    obtain ⟨m, c, below, rfl, hheld, hinside⟩ := hthere.cases_array
    obtain ⟨hbound, -⟩ := List.getElem?_eq_some_iff.mp hheld
    rcases hshifted.origin m hbound with hnew | ⟨n, hsends, hsame⟩
    · exact .inl ⟨m, below, rfl, hnew⟩
    · refine .inr ⟨.item n :: below, row, ?_, ?_, rfl⟩
      · exact .of_cases_array (hsame.trans hheld) hinside hthere.isObject
      · rw [Route.ofItems, hsends]
        rfl

theorem carries_rearranged (hshifted : Shifted shift (fun _ => False) rows rows') :
    Carries (.ofItems shift) (fun _ => False) (.array rows) (.array rows') :=
  (carries_items hshifted).imp fun _ ⟨_, _, _, hno⟩ => hno

end Items

section Column

variable {column : String} {c row : Json} {l : Place}

private theorem below?_clearColumn {s : Step} (hapart : s ≠ .member column) :
    (Rows.clearColumn column c).below? s = c.below? s := by
  cases c with
  | object members =>
    cases s with
    | item n => rfl
    | member name =>
      have hdiffer : column ≠ name := fun hsame => hapart (by rw [hsame])
      rw [Rows.clearColumn, Json.below?, Json.below?, Dictionary.get?_insert, if_neg hdiffer]
  | _ => rfl

theorem of?_clearColumn (hother : column ≠ key) :
    of? (Rows.clearColumn column c) = of? c := by
  cases c with
  | object members =>
    rw [Rows.clearColumn, of?, of?, Json.get?, Json.get?, Dictionary.get?_insert, if_neg hother]
  | _ => rfl

private theorem not_rowAt_clearColumn :
    ¬ (Rows.clearColumn column c).RowAt (.member column :: l) row := by
  intro hthere
  cases c with
  | object members =>
    obtain ⟨name, v, l', hsame, hheld, hinside⟩ := hthere.cases_object
    cases hsame
    rw [Dictionary.get?_insert, if_pos rfl] at hheld
    cases hheld
    exact Json.not_rowAt_of_isScalar rfl l row hinside
  | _ =>
    obtain ⟨s, l', v, hsame, hheld, -⟩ := hthere.cases_below
    cases hsame
    cases hheld

private theorem rowAt_clearColumn_iff (hapart : l[0]? ≠ some (.member column)) :
    (Rows.clearColumn column c).RowAt l row ↔ c.RowAt l row := by
  have hleads (hnonempty : l ≠ []) : (Rows.clearColumn column c).at? l = c.at? l := by
    cases l with
    | nil => exact absurd rfl hnonempty
    | cons s l =>
      have hdiffer : s ≠ .member column := fun hsame => hapart (by rw [hsame]; rfl)
      rw [Json.at?_cons, Json.at?_cons, below?_clearColumn hdiffer]
  constructor
  · intro hthere
    exact ⟨hleads hthere.ne_nil ▸ hthere.leads, hthere.isItem, hthere.isObject⟩
  · intro hthere
    exact ⟨(hleads hthere.ne_nil).trans hthere.leads, hthere.isItem, hthere.isObject⟩

theorem carries_clearColumns (hother : column ≠ key) (rows : List Json) :
    Carries (.clearing column) (fun _ => False) (.array rows)
      (Rows.clearColumns column (.array rows)) := by
  constructor
  · intro l l' row hthere hgoes
    obtain ⟨n, c, below, rfl, hheld, hinside⟩ := hthere.cases_array
    have hitem : (rows.map (Rows.clearColumn column))[n]? = some (Rows.clearColumn column c) := by
      rw [List.getElem?_map, hheld]
      rfl
    unfold Route.clearing at hgoes
    split at hgoes
    · cases hgoes
    · rename_i hapart
      cases hgoes
      rcases hinside with hinside | ⟨rfl, rfl⟩
      · have hkept := (rowAt_clearColumn_iff hapart).mpr hinside
        exact ⟨row, .of_cases_array hitem (.inl hkept) hthere.isObject, rfl⟩
      · obtain ⟨members, rfl⟩ := hthere.isObject
        exact ⟨_, .of_cases_array hitem (.inr ⟨rfl, rfl⟩) ⟨_, rfl⟩, of?_clearColumn hother⟩
  · intro l row' hthere
    obtain ⟨n, c', below, rfl, hheld, hinside⟩ := hthere.cases_array
    rw [List.getElem?_map, Option.map_eq_some_iff] at hheld
    obtain ⟨c, hitem, rfl⟩ := hheld
    right
    rcases hinside with hinside | ⟨rfl, rfl⟩
    · have hapart : below[0]? ≠ some (.member column) := by
        intro hsame
        cases below with
        | nil => cases hsame
        | cons s below =>
          cases hsame
          exact not_rowAt_clearColumn hinside
      have hkept := (rowAt_clearColumn_iff hapart).mp hinside
      refine ⟨_, row', .of_cases_array hitem (.inl hkept) hthere.isObject, ?_, rfl⟩
      exact if_neg hapart
    · obtain ⟨members', hsame⟩ := hthere.isObject
      have hisObject : ∃ members, c = .object members := by
        cases c with
        | object members => exact ⟨members, rfl⟩
        | _ => cases hsame
      refine ⟨_, c, .of_cases_array hitem (.inr ⟨rfl, rfl⟩) hisObject, rfl, ?_⟩
      exact of?_clearColumn hother

end Column

/-! ### Rows elsewhere in the document -/

/-- The route when the value at a place is replaced: below it rows go along a route of their own,
all others stay. -/
def Route.within (base : Place) (route : Route) : Route := fun l =>
  if base <+: l then (route (l.drop base.length)).map (base ++ ·) else some l

private theorem Route.within_above (l : Place) (s : Step) (rest : Place) (route : Route) :
    Route.within (l ++ s :: rest) route l = some l := by
  have hlonger : ¬ (l ++ s :: rest) <+: l := fun hshort => by
    have hbound := hshort.length_le
    rw [List.length_append, List.length_cons] at hbound
    omega
  rw [Route.within, if_neg hlonger]

private theorem Route.within_append (base : Place) (route : Route) (l : Place) :
    Route.within base route (base ++ l) = (route l).map (base ++ ·) := by
  rw [Route.within, if_pos (List.prefix_append base l), List.drop_left]

theorem Route.within_stays {route : Route} (hstays : ∀ l, route l = some l) (base l : Place) :
    Route.within base route l = some l := by
  by_cases hbelow : base <+: l
  · obtain ⟨rest, rfl⟩ := hbelow
    rw [Route.within_append, hstays]
    rfl
  · rw [Route.within, if_neg hbelow]

private theorem of?_replaceAt {row old : Json} {s : Step} {rest : Place} {id : String}
    (hisObject : ∃ members, row = .object members) (hnamed : of? row = some id)
    (hleads : row.at? (s :: rest) = some old) (hapart : s :: rest ≠ [.member key]) (new : Json) :
    (∃ members, Json.replaceAt new row (s :: rest) = .object members) ∧
      of? (Json.replaceAt new row (s :: rest)) = of? row := by
  obtain ⟨members, rfl⟩ := hisObject
  obtain ⟨c, hbelow, honward⟩ := Option.bind_eq_some_iff.mp hleads
  rw [Json.replaceAt_cons hbelow]
  cases s with
  | item n => cases hbelow
  | member name =>
    -- The identity is a text, so that nothing lies below it.
    have hother : name ≠ key := by
      rintro rfl
      obtain ⟨v, hheld, htext⟩ := Option.bind_eq_some_iff.mp hnamed
      have hsame : v = c := Option.some.inj (hheld.symm.trans hbelow)
      subst hsame
      cases rest with
      | nil => exact hapart rfl
      | cons s' rest =>
        cases v with
        | text value => cases honward
        | _ => cases htext
    refine ⟨⟨_, rfl⟩, ?_⟩
    rw [Json.putBelow, of?, of?, Json.get?, Json.get?, Dictionary.get?_insert, if_neg hother]

private theorem rowAt_of_replaceAt_above {doc old new row' : Json} {l : Place} {s : Step}
    {rest : Place} (hleads : doc.at? (l ++ s :: rest) = some old)
    (hthere : (Json.replaceAt new doc (l ++ s :: rest)).RowAt l row') :
    ∃ row, doc.RowAt l row ∧ row' = Json.replaceAt new row (s :: rest) := by
  rw [Json.at?_append] at hleads
  obtain ⟨row, habove, hfurther⟩ := Option.bind_eq_some_iff.mp hleads
  have hheld := hthere.leads
  rw [Json.at?_replaceAt_above habove new (s :: rest), Option.some.injEq] at hheld
  subst hheld
  obtain ⟨c, hbelow, -⟩ := Option.bind_eq_some_iff.mp hfurther
  obtain ⟨members, hputObject⟩ := hthere.isObject
  rw [Json.replaceAt_cons hbelow] at hputObject
  have hisObject : ∃ members, row = .object members := by
    cases row with
    | object members => exact ⟨members, rfl⟩
    | array items => cases s <;> cases hputObject
    | _ => cases hbelow
  exact ⟨row, ⟨habove, hthere.isItem, hisObject⟩, rfl⟩

private theorem rowAt_replaceAt_beside_iff {doc old row : Json} {base l : Place}
    (hleads : doc.at? base = some old) (new : Json) (hbeside : ¬ base <+: l)
    (hbeside' : ¬ l <+: base) : (Json.replaceAt new doc base).RowAt l row ↔ doc.RowAt l row := by
  have hheld := Json.at?_replaceAt_beside hleads new hbeside hbeside'
  constructor
  · intro hthere
    exact ⟨hheld ▸ hthere.leads, hthere.isItem, hthere.isObject⟩
  · intro hthere
    exact ⟨hheld.trans hthere.leads, hthere.isItem, hthere.isObject⟩

private theorem isObject_of_rowAt {doc held row : Json} {base : Place}
    (hleads : doc.at? base = some held) (hthere : doc.RowAt (base ++ []) row) :
    ∃ members, held = .object members := by
  have hrow := hthere.leads
  rw [List.append_nil, hleads, Option.some.injEq] at hrow
  exact hrow ▸ hthere.isObject

/-- Rows come along when the value at a place is replaced by another one, which is no object, if the
rows below the place do, and the place is not that of the identity of a row. -/
theorem Carries.replaceAt {doc old new : Json} {base : Place} {route : Route} {made : Place → Prop}
    (hinside : Carries route made old new) (hleads : doc.at? base = some old)
    (hnamed : ∀ l row, doc.RowAt l row → ∃ id, of? row = some id)
    (hapart : ∀ l row, doc.RowAt l row → base ≠ l ++ [.member key])
    (hnoRow : ∀ members, new ≠ .object members)
    (hlost : ∀ members, old = .object members → route [] = none) :
    Carries (.within base route) (fun l => ∃ l', l = base ++ l' ∧ made l') doc
      (.replaceAt new doc base) := by
  have hput : (Json.replaceAt new doc base).at? base = some new := by
    have hbelow := Json.at?_replaceAt_below hleads new []
    rwa [List.append_nil] at hbelow
  have habove {l : Place} {s : Step} {rest : Place} {row : Json} (hsame : base = l ++ s :: rest)
      (hthere : doc.RowAt l row) :
      (∃ members, Json.replaceAt new row (s :: rest) = .object members) ∧
        of? (Json.replaceAt new row (s :: rest)) = of? row := by
    obtain ⟨id, hname⟩ := hnamed l row hthere
    have hfurther : row.at? (s :: rest) = some old := by
      rw [← Json.at?_append_of_some hthere.leads, ← hsame, hleads]
    have hdiffer : s :: rest ≠ [.member key] := fun hequal =>
      hapart l row hthere (by rw [hsame, hequal])
    exact of?_replaceAt hthere.isObject hname hfurther hdiffer new
  constructor
  · intro l l' row hthere hgoes
    rcases Place.below_or_above_or_beside base l with
      ⟨below, rfl⟩ | ⟨s, rest, rfl⟩ | ⟨hbeside, hbeside'⟩
    · rw [Route.within_append, Option.map_eq_some_iff] at hgoes
      obtain ⟨below', hgoes, rfl⟩ := hgoes
      -- A row at the place itself is lost with the value that is replaced.
      have hproper : below ≠ [] := by
        rintro rfl
        obtain ⟨members, hsame⟩ := isObject_of_rowAt hleads hthere
        rw [hlost members hsame] at hgoes
        cases hgoes
      obtain ⟨row', hthere', hsame⟩ :=
        hinside.kept below below' row ((Json.rowAt_append_iff hleads hproper row).mp hthere) hgoes
      exact ⟨row', (Json.rowAt_append_iff hput hthere'.ne_nil row').mpr hthere', hsame⟩
    · rw [Route.within_above, Option.some.injEq] at hgoes
      subst hgoes
      obtain ⟨hisObject, hsame⟩ := habove rfl hthere
      have hleads' := Json.at?_replaceAt_above hthere.leads new (s :: rest)
      exact ⟨_, ⟨hleads', hthere.isItem, hisObject⟩, hsame⟩
    · rw [Route.within, if_neg hbeside, Option.some.injEq] at hgoes
      subst hgoes
      exact ⟨row, (rowAt_replaceAt_beside_iff hleads new hbeside hbeside').mpr hthere, rfl⟩
  · intro l row' hthere
    rcases Place.below_or_above_or_beside base l with
      ⟨below, rfl⟩ | ⟨s, rest, rfl⟩ | ⟨hbeside, hbeside'⟩
    · have hproper : below ≠ [] := by
        rintro rfl
        obtain ⟨members, hsame⟩ := isObject_of_rowAt hput hthere
        exact hnoRow members hsame
      rcases hinside.origin below row' ((Json.rowAt_append_iff hput hproper row').mp hthere) with
        hnewRow | ⟨below₀, row, hthere₀, hgoes, hsame⟩
      · exact .inl ⟨below, rfl, hnewRow⟩
      · refine .inr ⟨base ++ below₀, row, ?_, ?_, hsame⟩
        · exact (Json.rowAt_append_iff hleads hthere₀.ne_nil row).mpr hthere₀
        · rw [Route.within_append, hgoes]
          rfl
    · right
      obtain ⟨row, hthere₀, rfl⟩ := rowAt_of_replaceAt_above hleads hthere
      exact ⟨l, row, hthere₀, Route.within_above l s rest route, (habove rfl hthere₀).2⟩
    · right
      have hthere₀ := (rowAt_replaceAt_beside_iff hleads new hbeside hbeside').mp hthere
      refine ⟨l, row', hthere₀, ?_, rfl⟩
      rw [Route.within, if_neg hbeside]

end RowId

end SchemaForm
