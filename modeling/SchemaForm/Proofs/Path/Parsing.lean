import SchemaForm.Proofs.Path.Lens

set_option autoImplicit false
set_option relaxedAutoImplicit false

/-!
Reading a flat form. Cutting a text at its dots and joining the parts undo each other, so what a
text loses by being read is lost in its numerals: a sign, or zeros in front. What was read once is
read again, and the paths that are read are told exactly.
-/

namespace SchemaForm

namespace Segment

private theorem chars_ofChars_eq_iff (cs : List Char) :
    (ofChars cs).chars = cs ↔ ((index? cs).isSome = true → Numeral.IsCanonical cs) := by
  cases hread : index? cs with
  | none => simp [ofChars, hread, chars]
  | some n =>
    have hprinted : (ofChars cs).chars = Nat.toDigits 10 n := by simp only [ofChars, hread, chars]
    rw [hprinted, Option.isSome_some, imp_iff_right rfl]
    refine ⟨fun hsame => hsame ▸ Numeral.isCanonical_toDigits n, fun hcanonical => ?_⟩
    -- Canonical digits do not begin with a sign, so all of them are read.
    have hunsigned (rest : List Char) : cs ≠ '+' :: rest := by
      rintro rfl
      cases List.all_eq_true.mp hcanonical.1 '+' List.mem_cons_self
    have hdigits : Numeral.natural? cs = some n := by
      have hbelow := (Option.filter_eq_some_iff.mp hread).1
      split at hbelow
      · exact absurd rfl (hunsigned _)
      · exact hbelow
    rw [Numeral.natural?, Option.ite_none_right_eq_some] at hdigits
    obtain ⟨⟨hne, -⟩, hvalue⟩ := hdigits
    rw [← Option.some.inj hvalue, hcanonical.toDigits_ofDigits hne]

private theorem dot_not_mem_chars_ofChars {cs : List Char} (hcs : '.' ∉ cs) :
    '.' ∉ (ofChars cs).chars := by
  unfold ofChars
  split
  · exact dot_not_mem_index_chars _
  · rwa [chars, String.toList_ofList]

private theorem isCanonical_iff (s : Segment) :
    s.IsCanonical ↔ s.InRange ∧ ∀ name, s = .key name → index? name.toList = none := by
  cases s with
  | key name =>
    refine ⟨fun h => ⟨trivial, ?_⟩, fun h => ?_⟩
    · rintro _ ⟨⟩
      exact h.unread
    · simp only [IsCanonical, ofChars, chars, h.2 name rfl, String.ofList_toList]
  | index n =>
    refine ⟨fun h => ⟨?_, fun name hkey => by cases hkey⟩, fun h => ?_⟩
    · unfold IsCanonical ofChars at h
      split at h
      · rename_i m hread
        cases h
        simpa [InRange] using (Option.filter_eq_some_iff.mp hread).2
      · cases h
    · have hbound : n < indexBound := h.1
      simp only [IsCanonical, ofChars, index?_chars hbound]

end Segment

namespace Path

private theorem intercalate_splitAtDots (cs : List Char) :
    ['.'].intercalate (splitAtDots cs) = cs := by
  rw [splitAtDots_eq_splitOn, List.intercalate_splitOn]

private theorem segments_parse {flat : String} (hne : flat ≠ "") :
    (parse flat).segments = (splitAtDots flat.toList).map Segment.ofChars := by
  rw [parse, if_neg hne]

/-! ### Paths that are read -/

/-- No key has a dot or is a numeral, indices are machine words, and it is not the path of the empty
key, whose flat form is that of the root. -/
structure IsRead (p : Path) : Prop where
  inRange : p.InRange
  keys : ∀ name, .key name ∈ p.segments → '.' ∉ name.toList ∧ Segment.index? name.toList = none
  ne_empty_key : p ≠ root.key ""

private theorem IsRead.isCanonical {p : Path} (h : p.IsRead) : p.IsCanonical := by
  intro s hs
  refine (Segment.isCanonical_iff s).mpr ⟨h.inRange s hs, ?_⟩
  rintro name rfl
  exact (h.keys name hs).2

private theorem IsRead.dot_not_mem_chars {p : Path} (h : p.IsRead) {s : Segment}
    (hs : s ∈ p.segments) :
    '.' ∉ s.chars := by
  cases s with
  | key name => exact (h.keys name hs).1
  | index n => exact Segment.dot_not_mem_index_chars n

private theorem parse_ne_empty_key (flat : String) : parse flat ≠ root.key "" := by
  intro hkey
  by_cases hne : flat = ""
  · rw [hne] at hkey
    cases hkey
  have hsegments := (segments_parse hne).symm.trans (congrArg segments hkey)
  obtain ⟨part, hparts, hread⟩ := List.map_eq_singleton_iff.mp hsegments
  have hwhole := intercalate_splitAtDots flat.toList
  rw [hparts, List.intercalate_singleton] at hwhole
  have hempty : part = "".toList := by
    unfold Segment.ofChars at hread
    split at hread
    · cases hread
    · rw [← Segment.key.inj hread, String.toList_ofList]
  exact hne (String.toList_injective (hwhole.symm.trans hempty))

theorem isRead_parse (flat : String) : (parse flat).IsRead where
  inRange s hs := ((Segment.isCanonical_iff s).mp (isCanonical_parse flat s hs)).1
  keys name hname := by
    refine ⟨?_, (isCanonical_parse flat _ hname).unread⟩
    have hne : flat ≠ "" := by
      rintro rfl
      cases hname
    rw [segments_parse hne] at hname
    obtain ⟨part, hpart, hread⟩ := List.mem_map.mp hname
    have hfree := Segment.dot_not_mem_chars_ofChars (dot_not_mem_of_mem_splitAtDots hpart)
    rwa [hread] at hfree
  ne_empty_key := parse_ne_empty_key flat

private theorem IsRead.parse_flat {p : Path} (h : p.IsRead) : parse p.flat = p := by
  by_cases hroot : p = root
  · rw [hroot]
    rfl
  have hchars : p.flatChars ≠ [] := fun hempty =>
    (flatChars_eq_nil_iff_or.mp hempty).elim hroot h.ne_empty_key
  have hne : p.flat ≠ "" := fun hempty => hchars (by simpa [flat] using hempty)
  have hsplit : splitAtDots p.flatChars = p.segments.map Segment.chars := by
    refine splitAtDots_intercalate ?_ fun part hpart => ?_
    · simpa using fun hnil => hroot (congrArg Path.mk hnil)
    · obtain ⟨s, hs, rfl⟩ := List.mem_map.mp hpart
      exact h.dot_not_mem_chars hs
  have hsegments : (parse p.flat).segments = p.segments :=
    calc (parse p.flat).segments
        = (splitAtDots p.flat.toList).map Segment.ofChars := segments_parse hne
      _ = p.segments.map (Segment.ofChars ∘ Segment.chars) := by
        rw [flat, String.toList_ofList, hsplit, List.map_map]
      _ = p.segments.map id := List.map_congr_left h.isCanonical
      _ = p.segments := List.map_id p.segments
  cases p
  exact congrArg Path.mk hsegments

private theorem parse_flat_eq_iff {p : Path} : parse p.flat = p ↔ p.IsRead :=
  ⟨fun h => h ▸ isRead_parse p.flat, IsRead.parse_flat⟩

/-! ### Texts that are kept -/

private theorem flat_parse_eq_iff {flat : String} : (parse flat).flat = flat ↔
    ∀ part ∈ splitAtDots flat.toList, (Segment.ofChars part).chars = part := by
  by_cases hne : flat = ""
  · subst hne
    exact iff_of_true rfl fun part hpart => by rw [List.mem_singleton.mp hpart]; rfl
  let parts := splitAtDots flat.toList
  let written := parts.map fun part => (Segment.ofChars part).chars
  have hchars : (parse flat).flatChars = ['.'].intercalate written := by
    rw [flatChars, segments_parse hne, List.map_map]
    rfl
  have hsplit : splitAtDots (['.'].intercalate written) = written := by
    refine splitAtDots_intercalate ?_ fun part hpart => ?_
    · simp [written, parts, splitAtDots_eq_splitOn]
    · obtain ⟨read, hread, rfl⟩ := List.mem_map.mp hpart
      exact Segment.dot_not_mem_chars_ofChars (dot_not_mem_of_mem_splitAtDots hread)
  have hsame : (parse flat).flat = flat ↔ written = parts := by
    rw [← String.toList_inj, Path.flat, String.toList_ofList, hchars]
    refine ⟨fun h => ?_, fun h => ?_⟩
    · rw [← hsplit, h]
    · rw [h]
      exact intercalate_splitAtDots flat.toList
  have hparts : written = parts ↔ ∀ part ∈ parts, (Segment.ofChars part).chars = part := by
    conv_lhs => rw [← List.map_id parts]
    exact List.map_inj_left
  exact hsame.trans hparts

/-! ### Reading and writing flat forms -/

/-- What was read from a text is read from its flat form again. The flat form is the text itself
just if every numeral between its dots is written canonically. And a path is read from its flat form
just if its indices are machine words, its keys have no dots and are no numerals, and it is not the
path of the empty key. -/
theorem parsing_canonical :
    (∀ flat : String, parse (parse flat).flat = parse flat) ∧
    (∀ flat : String, (parse flat).flat = flat ↔
      ∀ part ∈ flat.toList.splitOn '.',
        (Segment.index? part).isSome = true → Numeral.IsCanonical part) ∧
    ∀ p : Path, parse p.flat = p ↔
      p.InRange ∧
      (∀ name, .key name ∈ p.segments →
        '.' ∉ name.toList ∧ Segment.index? name.toList = none) ∧
      p ≠ root.key "" := by
  refine ⟨fun flat => (isRead_parse flat).parse_flat, fun flat => ?_, fun p => ?_⟩
  · rw [flat_parse_eq_iff, splitAtDots_eq_splitOn]
    exact forall₂_congr fun part _ => Segment.chars_ofChars_eq_iff part
  · rw [parse_flat_eq_iff]
    exact ⟨fun h => ⟨h.inRange, h.keys, h.ne_empty_key⟩, fun ⟨hrange, hkeys, hne⟩ =>
      ⟨hrange, hkeys, hne⟩⟩

/-- A sign and a zero are lost, once; an empty part is a key, and so is a number that is too great
for an index. -/
theorem parsing_canonical_lines :
    let read : Path := (((root.key "lines").index 7).key "").key "18446744073709551616"
    parse "lines.+07..18446744073709551616" = read ∧
      read.flat = "lines.7..18446744073709551616" ∧ parse read.flat = read ∧
      parse (parse "lines.+07").flat = parse "lines.+07" ∧
      (parse "lines.7..18446744073709551616").flat = "lines.7..18446744073709551616" ∧
      (parse "lines.+07").flat ≠ "lines.+07" := by
  intro read
  obtain ⟨hagain, hkept, hread⟩ := parsing_canonical
  have hparse : parse "lines.+07..18446744073709551616" = read := by decide +kernel
  have hrange : read.InRange := by decide
  have hkeys (name : String) (hname : .key name ∈ read.segments) :
      '.' ∉ name.toList ∧ Segment.index? name.toList = none := by
    have hnames : name = "lines" ∨ name = "" ∨ name = "18446744073709551616" := by
      simpa [read, root, key, index, child] using hname
    rcases hnames with rfl | rfl | rfl <;> decide +kernel
  refine ⟨hparse, by decide +kernel, (hread read).mpr ⟨hrange, hkeys, by decide⟩,
    hagain _, (hkept _).mpr (by decide +kernel), fun hsame => ?_⟩
  have hsigned : Numeral.IsCanonical "+07".toList :=
    (hkept _).mp hsame _ (by decide +kernel) (by decide +kernel)
  exact absurd hsigned (by decide +kernel)

end Path

end SchemaForm
