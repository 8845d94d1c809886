import Mathlib.Data.List.Basic
import SchemaForm.Path.Cover
import SchemaForm.Proofs.Numeral

set_option autoImplicit false
set_option relaxedAutoImplicit false

/-!
Covering among the rows of a collection. Flat forms are matched as texts, but with a dot behind each
of them the numerals of two positions are never mistaken for each other: what lies in one row of a
collection does not cover what lies in another.
-/

namespace SchemaForm

theorem Segment.index_chars_inj {m n : Nat}
    (hsame : (Segment.index m).chars = (Segment.index n).chars) : m = n := by
  have hvalue (k : Nat) : Numeral.ofDigits 0 (Segment.index k).chars = k :=
    Numeral.ofDigits_toDigits k
  rw [← hvalue m, hsame, hvalue]

theorem Segment.dot_not_mem_index_chars (n : Nat) : '.' ∉ (Segment.index n).chars := by
  intro hmember
  have hdigit : Char.isDigit '.' = true := Numeral.isDigit_of_mem_toDigits hmember
  cases hdigit

namespace Path

/-- What goes on behind a separator determines what is before it, if that is free of separators. -/
private theorem eq_of_prefix_of_separated {c : Char} {as bs xs ys : List Char} (hfree : c ∉ as)
    (hfree' : c ∉ bs) (hbegins : as ++ c :: xs <+: bs ++ c :: ys) : as = bs := by
  induction as generalizing bs with
  | nil =>
    cases bs with
    | nil => rfl
    | cons b bs =>
      rw [List.nil_append, List.cons_append, List.cons_prefix_cons] at hbegins
      exact absurd (hbegins.1 ▸ List.mem_cons_self) hfree'
  | cons a as ih =>
    cases bs with
    | nil =>
      rw [List.nil_append, List.cons_append, List.cons_prefix_cons] at hbegins
      exact absurd (hbegins.1 ▸ List.mem_cons_self) hfree
    | cons b bs =>
      rw [List.cons_append, List.cons_append, List.cons_prefix_cons] at hbegins
      obtain ⟨rfl, hlater⟩ := hbegins
      rw [ih (fun hmember => hfree (List.mem_cons_of_mem a hmember))
        (fun hmember => hfree' (List.mem_cons_of_mem a hmember)) hlater]

/-! ### Parts with dots behind them -/

private theorem endsOrDot_iff (rest : List Char) :
    endsOrDot rest = true ↔ ['.'] <+: rest ++ ['.'] := by
  cases rest with
  | nil => simp [endsOrDot]
  | cons c rest => simpa [endsOrDot] using eq_comm

/-- A flat form covers another if it is empty, or begins it where both have a dot behind them. -/
theorem charsCover_iff (short long : List Char) :
    charsCover short long = true ↔ short = [] ∨ short ++ ['.'] <+: long ++ ['.'] := by
  rw [charsCover, Bool.or_eq_true_iff, List.isEmpty_iff, Bool.and_eq_true_iff,
    List.isPrefixOf_iff_prefix]
  refine or_congr_right ⟨?_, fun hdotted => ?_⟩
  · rintro ⟨⟨rest, rfl⟩, hends⟩
    rw [List.drop_left, endsOrDot_iff] at hends
    rw [List.append_assoc]
    exact (List.prefix_append_right_inj short).mpr hends
  · have hlength : short.length ≤ long.length := by simpa using hdotted.length_le
    have hbegins : short <+: long := List.prefix_of_prefix_length_le
      ((List.prefix_append short ['.']).trans hdotted) (List.prefix_append long ['.']) hlength
    obtain ⟨rest, rfl⟩ := hbegins
    rw [List.append_assoc, List.prefix_append_right_inj] at hdotted
    rw [List.drop_left, endsOrDot_iff]
    exact ⟨List.prefix_append short rest, hdotted⟩

private theorem intercalate_append_dot {parts : List (List Char)} (hne : parts ≠ []) :
    ['.'].intercalate parts ++ ['.'] = parts.flatMap (· ++ ['.']) := by
  induction parts with
  | nil => exact absurd rfl hne
  | cons part parts ih =>
    cases parts with
    | nil => simp
    | cons next parts =>
      rw [List.intercalate_cons_cons, List.append_assoc, ih (List.cons_ne_nil next parts)]
      rfl

theorem flatMap_dot_prefix_iff {parts parts' : List (List Char)}
    (hfree : ∀ part ∈ parts, '.' ∉ part) (hfree' : ∀ part ∈ parts', '.' ∉ part) :
    parts.flatMap (· ++ ['.']) <+: parts'.flatMap (· ++ ['.']) ↔ parts <+: parts' := by
  induction parts generalizing parts' with
  | nil => exact iff_of_true List.nil_prefix List.nil_prefix
  | cons part parts ih =>
    cases parts' with
    | nil => simp
    | cons part' parts' =>
      have ih := ih (fun other hother => hfree other (List.mem_cons_of_mem part hother))
        fun other hother => hfree' other (List.mem_cons_of_mem part' hother)
      rw [List.flatMap_cons, List.flatMap_cons, List.cons_prefix_cons, ← ih]
      constructor
      · intro hbegins
        have hdotted := hbegins
        simp only [List.append_assoc, List.singleton_append] at hdotted
        have hsame : part = part' := eq_of_prefix_of_separated (hfree part List.mem_cons_self)
          (hfree' part' List.mem_cons_self) hdotted
        subst hsame
        exact ⟨rfl, (List.prefix_append_right_inj _).mp hbegins⟩
      · rintro ⟨rfl, hlater⟩
        exact (List.prefix_append_right_inj _).mpr hlater

/-! ### Covering -/

theorem flatChars_append_dot {p : Path} (hne : p.segments ≠ []) :
    p.flatChars ++ ['.'] = (p.segments.map Segment.chars).flatMap (· ++ ['.']) :=
  intercalate_append_dot (by simpa using hne)

/-- What begins with the path of one row of a collection covers nothing that begins with the path
of another. -/
theorem eq_of_covers_of_rows {p q r : Path} {m n : Nat}
    (hq : (p.index m).segments <+: q.segments) (hr : (p.index n).segments <+: r.segments)
    (hcovers : q.covers r = true) : m = n := by
  have hdotted {k : Nat} {q : Path} (hq : (p.index k).segments <+: q.segments) : ∃ rest,
      q.flatChars ++ ['.'] = (p.segments.map Segment.chars).flatMap (· ++ ['.']) ++
        ((Segment.index k).chars ++ '.' :: rest) := by
    obtain ⟨rest, hrest⟩ := hq
    have hne : q.segments ≠ [] := by simp [← hrest, index, child]
    refine ⟨(rest.map Segment.chars).flatMap (· ++ ['.']), ?_⟩
    rw [flatChars_append_dot hne, ← hrest]
    simp [index, child]
  obtain ⟨rest, hbelow⟩ := hdotted hq
  obtain ⟨rest', hbelow'⟩ := hdotted hr
  rw [covers, charsCover_iff] at hcovers
  rcases hcovers with hempty | hbegins
  · -- The numeral of the row has a digit at least, so that the flat form is not empty.
    have hdigits : 0 < (Segment.index m).chars.length :=
      List.length_pos_of_ne_nil Nat.toDigits_ne_nil
    have hlength := congrArg List.length hbelow
    simp only [hempty, List.length_append, List.length_cons, List.length_nil] at hlength
    omega
  · rw [hbelow, hbelow', List.prefix_append_right_inj] at hbegins
    exact Segment.index_chars_inj (eq_of_prefix_of_separated (Segment.dot_not_mem_index_chars m)
      (Segment.dot_not_mem_index_chars n) hbegins)

end Path

end SchemaForm
