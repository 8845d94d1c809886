import SchemaForm.Json.Equality
import SchemaForm.Json.Numeral
import SchemaForm.Proofs.Binary64.Decimal
import SchemaForm.Proofs.Numeral
import SchemaForm.Text.Blank

set_option autoImplicit false
set_option relaxedAutoImplicit false

/-!
Texts of numbers. In either layout a decimal is written so that it is read back, and so the text of
a number is read as that number. It is read as an integer just if the number is one of the signed
64-bit range.
-/

namespace SchemaForm

namespace Numeral

/-! ### Digits -/

private theorem ofDigits_append (start : Nat) (cs ds : List Char) :
    ofDigits start (cs ++ ds) = ofDigits (ofDigits start cs) ds :=
  List.foldl_append

private theorem ofDigits_zeros (start k : Nat) :
    ofDigits start (List.replicate k '0') = start * 10 ^ k := by
  induction k generalizing start with
  | zero => simp [ofDigits]
  | succ k ih =>
    have hstep : ofDigits start (List.replicate (k + 1) '0') =
        ofDigits (10 * start) (List.replicate k '0') := rfl
    rw [hstep, ih, Nat.pow_succ]
    ring

private theorem isDigit_of_mem_zeros {k : Nat} {c : Char} (hc : c ∈ List.replicate k '0') :
    c.isDigit = true := by
  rw [List.eq_of_mem_replicate hc]
  rfl

/-! ### Signs -/

/-- What begins with a digit. -/
def Begins (cs : List Char) : Prop := ∃ c rest, cs = c :: rest ∧ c.isDigit = true

private theorem begins_append {cs : List Char} (hne : cs ≠ []) (hcs : ∀ c ∈ cs, c.isDigit = true)
    (rest : List Char) : Begins (cs ++ rest) := by
  obtain ⟨c, later, rfl⟩ := List.exists_cons_of_ne_nil hne
  exact ⟨c, later ++ rest, rfl, hcs c List.mem_cons_self⟩

private theorem begins_toDigits (n : Nat) : Begins (Nat.toDigits 10 n) := by
  rw [← List.append_nil (Nat.toDigits 10 n)]
  exact begins_append Nat.toDigits_ne_nil (fun _ => isDigit_of_mem_toDigits) []

def signed (negative : Bool) (cs : List Char) : List Char := if negative then '-' :: cs else cs

private theorem splitSign_signed (negative : Bool) {cs : List Char} (hcs : Begins cs) :
    splitSign (signed negative cs) = (negative, cs) := by
  obtain ⟨c, rest, rfl, hc⟩ := hcs
  cases negative with
  | true => rfl
  | false =>
    have hminus : c ≠ '-' := fun h => by rw [h] at hc; cases hc
    have hplus : c ≠ '+' := fun h => by rw [h] at hc; cases hc
    simp [signed, splitSign, hminus, hplus]

/-! ### Reading the parts of a number -/

/-- A fraction behind its point. An empty one has none. -/
def pointed : List Char → List Char
  | [] => []
  | c :: rest => '.' :: c :: rest

private theorem pointed_eq {fraction : List Char} (hne : fraction ≠ []) :
    pointed fraction = '.' :: fraction := by
  obtain ⟨c, rest, rfl⟩ := List.exists_cons_of_ne_nil hne
  rfl

private theorem isDigit_head_of_exponent? {tail : List Char} {e : Int}
    (he : exponent? tail = some e) :
    ∀ c ∈ tail.head?, c.isDigit = false ∧ c ≠ '.' := by
  cases tail with
  | nil => simp
  | cons c rest =>
    simp only [exponent?] at he
    split at he
    · rename_i hc
      rcases hc with rfl | rfl <;> simp
    · cases he

private theorem takeWhile_isDigit {cs : List Char} (rest : List Char)
    (hcs : ∀ c ∈ cs, c.isDigit = true) (hrest : ∀ c ∈ rest.head?, c.isDigit = false) :
    (cs ++ rest).takeWhile Char.isDigit = cs ∧ (cs ++ rest).dropWhile Char.isDigit = rest := by
  rw [List.takeWhile_append_of_pos hcs, List.dropWhile_append_of_pos hcs]
  cases rest with
  | nil => simp
  | cons c rest =>
    have hc : c.isDigit = false := hrest c rfl
    simp [hc]

private theorem real?_of_parts {cs : List Char} (whole fraction tail : List Char) {negative : Bool}
    {e : Int} (hsign : splitSign cs = (negative, whole ++ (pointed fraction ++ tail)))
    (hne : whole ≠ []) (hwhole : ∀ c ∈ whole, c.isDigit = true)
    (hfraction : ∀ c ∈ fraction, c.isDigit = true) (he : exponent? tail = some e) : real? cs =
      Binary64.ofDecimal? negative (ofDigits 0 (whole ++ fraction)) (e - fraction.length) := by
  have htail := isDigit_head_of_exponent? he
  cases fraction with
  | nil =>
    obtain ⟨htake, hdrop⟩ := takeWhile_isDigit tail hwhole fun c hc => (htail c hc).1
    simp only [real?, hsign, pointed, List.nil_append, htake, hdrop]
    cases tail with
    | nil => simp [hne, he]
    | cons c rest =>
      have hpoint : c ≠ '.' := (htail c rfl).2
      simp [hne, he, hpoint]
  | cons c rest =>
    obtain ⟨htake, hdrop⟩ := takeWhile_isDigit ('.' :: (c :: rest ++ tail)) hwhole (by simp)
    obtain ⟨htake', hdrop'⟩ := takeWhile_isDigit tail hfraction fun c hc => (htail c hc).1
    rw [List.cons_append] at htake hdrop htake' hdrop'
    simp only [real?, hsign, pointed, List.cons_append, htake, hdrop, htake', hdrop', hne,
      false_and, if_false, he, Option.bind_some]

/-! ### Integers -/

private theorem real?_signed (negative : Bool) (k : Nat) :
    real? (signed negative (Nat.toDigits 10 k)) = Binary64.ofRatio? negative k 1 := by
  have hsign := splitSign_signed negative (begins_toDigits k)
  rw [real?_of_parts _ [] [] (by simpa [pointed] using hsign)
    Nat.toDigits_ne_nil (fun _ => isDigit_of_mem_toDigits) (by simp) rfl, List.append_nil,
    ofDigits_toDigits, Binary64.ofDecimal?_eq_ofRatio?]
  simp

/-- An integer of the signed 64-bit range. -/
def InSigned64 (i : Int) : Prop := -(2 ^ 63) ≤ i ∧ i < 2 ^ 63

instance (i : Int) : Decidable (InSigned64 i) := inferInstanceAs (Decidable (_ ∧ _))

private theorem signed?_signed (negative : Bool) (k : Nat) :
    signed? (signed negative (Nat.toDigits 10 k)) =
      (some (if negative then -(k : Int) else k)).filter fun i => decide (InSigned64 i) := by
  cases negative with
  | true =>
    simp only [signed, signed?, if_true, natural?_toDigits]
    rfl
  | false =>
    obtain ⟨c, rest, htext, hc⟩ := begins_toDigits k
    have hplus : c ≠ '+' := fun h => by rw [h] at hc; cases hc
    have hminus : c ≠ '-' := fun h => by rw [h] at hc; cases hc
    have hunsigned : signed false (Nat.toDigits 10 k) = Nat.toDigits 10 k := rfl
    rw [hunsigned]
    unfold signed?
    split
    · rename_i heq
      exact absurd (List.head_eq_of_cons_eq (htext.symm.trans heq)) hplus
    · rename_i heq
      exact absurd (List.head_eq_of_cons_eq (htext.symm.trans heq)) hminus
    · rw [natural?_toDigits]
      rfl

private theorem signed?_eq_none {cs : List Char} {c : Char} (hc : c ∈ cs)
    (hdigit : c.isDigit = false) (hsign : c ≠ '+' ∧ c ≠ '-') : signed? cs = none := by
  have hnatural {ds : List Char} (hds : c ∈ ds) : natural? ds = none := by
    refine if_neg fun hdigits => ?_
    have := List.all_eq_true.mp hdigits.2 c hds
    rw [hdigit] at this
    cases this
  unfold signed?
  split
  · rw [hnatural ((List.mem_cons.mp hc).resolve_left hsign.1)]
    rfl
  · rw [hnatural ((List.mem_cons.mp hc).resolve_left hsign.2)]
    rfl
  · rw [hnatural hc]
    rfl

/-! ### Numbers that are no integers -/

/-- A text spells a decimal, and not as digits only: a whole part, a fraction or an exponent, and
together they have its value. -/
inductive Spells (d : Decimal) : List Char → Prop
  | parts (whole fraction tail : List Char) (e : Int) (hnonempty : whole ≠ [])
      (hwholeDigits : ∀ c ∈ whole, c.isDigit = true)
      (hfractionDigits : ∀ c ∈ fraction, c.isDigit = true) (htailReads : exponent? tail = some e)
      (htailChars : ∀ c ∈ tail, NumberText.mayContain c = true)
      (hmarked : fraction ≠ [] ∨ 'e' ∈ tail)
      (hvalueEq : Decimal.value ⟨ofDigits 0 (whole ++ fraction), e - fraction.length⟩ = d.value) :
      Spells d (whole ++ (pointed fraction ++ tail))

private theorem mayContain_of_isDigit {c : Char} (hc : c.isDigit = true) :
    NumberText.mayContain c = true := by
  simp [NumberText.mayContain, hc]

section Spells

variable {d : Decimal} {cs : List Char}

private theorem Spells.begins (h : Spells d cs) : Begins cs := by
  cases h with
  | parts _ _ _ _ hnonempty hwholeDigits => exact begins_append hnonempty hwholeDigits _

private theorem Spells.real? (h : Spells d cs) (negative : Bool) :
    real? (signed negative cs) = Binary64.ofDecimal? negative d.digits d.exponent := by
  have hsign := splitSign_signed negative h.begins
  cases h with
  | parts _ _ _ _ hnonempty hwholeDigits hfractionDigits htailReads _ _ hvalueEq =>
    rw [real?_of_parts _ _ _ hsign hnonempty hwholeDigits hfractionDigits htailReads]
    exact Binary64.ofDecimal?_congr negative hvalueEq

private theorem Spells.mayContain (h : Spells d cs) {c : Char} (hc : c ∈ cs) :
    NumberText.mayContain c = true := by
  cases h with
  | parts whole fraction tail e _ hwholeDigits hfractionDigits _ htailChars =>
    rcases List.mem_append.mp hc with hc | hc
    · exact mayContain_of_isDigit (hwholeDigits c hc)
    · rcases List.mem_append.mp hc with hc | hc
      · cases fraction with
        | nil => cases hc
        | cons c' rest =>
          rcases List.mem_cons.mp hc with rfl | hc
          · rfl
          · exact mayContain_of_isDigit (hfractionDigits c hc)
      · exact htailChars c hc

private theorem Spells.exists_mark (h : Spells d cs) : ∃ c ∈ cs, c = '.' ∨ c = 'e' := by
  cases h with
  | parts whole fraction tail e _ _ _ _ _ hmarked =>
    rcases hmarked with hfraction | htail
    · exact ⟨'.', by simp [pointed_eq hfraction], .inl rfl⟩
    · exact ⟨'e', by simp [htail], .inr rfl⟩

end Spells

private theorem exponent?_scientific (leading : Int) :
    exponent? ('e' :: (if leading < 0 then '-' else '+') :: Nat.toDigits 10 leading.natAbs) =
      some leading := by
  by_cases hnegative : leading < 0
  · simp only [hnegative, if_true, exponent?, splitSign, natural?_toDigits, true_or]
    refine congrArg some ?_
    dsimp only
    omega
  · simp only [hnegative, if_false, exponent?, splitSign, natural?_toDigits, true_or, if_true,
      Bool.false_eq_true]
    refine congrArg some ?_
    dsimp only
    omega

end Numeral

/-! ### Decimals as they are written -/

namespace Decimal

open Numeral

variable {d : Decimal}

private theorem isDigit_of_mem_text {c : Char} (hc : c ∈ d.text) : c.isDigit = true :=
  isDigit_of_mem_toDigits hc

private theorem ofDigits_text (d : Decimal) :
    ofDigits 0 d.text = d.digits := ofDigits_toDigits d.digits

private theorem leading_add_one (d : Decimal) : d.leading + 1 = d.exponent + d.text.length := by
  have hlength : 0 < d.text.length := Nat.length_toDigits_pos
  unfold leading
  omega

private theorem spells_behind_point {zeros : Nat} (h : d.exponent + zeros + d.text.length = 0) :
    Spells d ('0' :: '.' :: (List.replicate zeros '0' ++ d.text)) := by
  have hdigits : ∀ c ∈ List.replicate zeros '0' ++ d.text, c.isDigit = true := fun c hc =>
    (List.mem_append.mp hc).elim isDigit_of_mem_zeros isDigit_of_mem_text
  have hne : List.replicate zeros '0' ++ d.text ≠ [] :=
    List.append_ne_nil_of_right_ne_nil _ Nat.toDigits_ne_nil
  have hvalue : ofDigits 0 (['0'] ++ (List.replicate zeros '0' ++ d.text)) = d.digits := by
    rw [ofDigits_append, ofDigits_append, ofDigits_zeros]
    exact (congrArg (ofDigits · d.text) (Nat.zero_mul _)).trans (ofDigits_text d)
  have hexponent : 0 - ((List.replicate zeros '0' ++ d.text).length : Int) = d.exponent := by
    rw [List.length_append, List.length_replicate]
    omega
  have hspells := Spells.parts ['0'] _ [] 0 (by simp) (by simp) hdigits rfl (by simp) (.inl hne)
    (by rw [hvalue, hexponent])
  rwa [List.append_nil, pointed_eq hne] at hspells

private theorem spells_across_point {whole : Nat} (hpos : 0 < whole) (hless : whole < d.text.length)
    (h : d.exponent + d.text.length = whole) :
    Spells d (d.text.take whole ++ '.' :: d.text.drop whole) := by
  have hwhole : d.text.take whole ≠ [] := by
    rw [← List.length_pos_iff, List.length_take]
    omega
  have hne : d.text.drop whole ≠ [] := by
    rw [← List.length_pos_iff, List.length_drop]
    omega
  have hexponent : 0 - ((d.text.drop whole).length : Int) = d.exponent := by
    rw [List.length_drop]
    omega
  have hspells := Spells.parts (d.text.take whole) (d.text.drop whole) [] 0 hwhole
    (fun c hc => isDigit_of_mem_text (List.mem_of_mem_take hc))
    (fun c hc => isDigit_of_mem_text (List.mem_of_mem_drop hc)) rfl (by simp) (.inl hne)
    (by rw [List.take_append_drop, ofDigits_text, hexponent])
  rwa [List.append_nil, pointed_eq hne] at hspells

private theorem spells_before_point {zeros : Nat} (h : d.exponent = zeros) :
    Spells d (d.text ++ List.replicate zeros '0' ++ ['.', '0']) := by
  have hdigits : ∀ c ∈ d.text ++ List.replicate zeros '0', c.isDigit = true := fun c hc =>
    (List.mem_append.mp hc).elim isDigit_of_mem_text isDigit_of_mem_zeros
  have hvalue : ofDigits 0 (d.text ++ List.replicate zeros '0' ++ ['0']) =
      d.digits * 10 ^ zeros * 10 := by
    rw [ofDigits_append, ofDigits_append, ofDigits_text, ofDigits_zeros]
    exact Nat.mul_comm 10 _
  refine Spells.parts _ ['0'] [] 0 (List.append_ne_nil_of_left_ne_nil Nat.toDigits_ne_nil _)
    hdigits (by simp) rfl (by simp) (.inl (by simp)) ?_
  rw [hvalue, value, value, h]
  push_cast
  simp

private theorem spells_positional (d : Decimal) : Spells d (positional d.text (d.leading + 1)) := by
  have hleading := leading_add_one d
  unfold positional
  split
  · exact spells_behind_point (by omega)
  · obtain ⟨whole, hwhole⟩ : ∃ k : Nat, (d.leading + 1).toNat = k := ⟨_, rfl⟩
    simp only [hwhole]
    rcases Nat.lt_or_ge whole d.text.length with hlength | hlength
    · rw [Nat.sub_eq_zero_of_le hlength.le, List.replicate_zero, List.append_nil,
        if_neg (by simpa using hlength)]
      exact spells_across_point (by omega) hlength (by omega)
    · obtain ⟨zeros, rfl⟩ := Nat.exists_eq_add_of_le hlength
      have hpadded : (d.text ++ List.replicate zeros '0').length = d.text.length + zeros := by
        simp
      rw [Nat.add_sub_cancel_left, List.take_of_length_le hpadded.le,
        List.drop_of_length_le hpadded.le, List.isEmpty_nil, if_pos rfl]
      exact spells_before_point (by omega)

private theorem spells_scientific (d : Decimal) : Spells d (scientific d.text d.leading) := by
  have hleading := leading_add_one d
  have hdigits : ∀ c ∈ d.text, c.isDigit = true := fun _ => isDigit_of_mem_text
  have hvalue := ofDigits_text d
  have htail : ∀ c ∈ 'e' :: (if d.leading < 0 then '-' else '+') ::
      Nat.toDigits 10 d.leading.natAbs, NumberText.mayContain c = true := by
    simp only [List.forall_mem_cons]
    exact ⟨rfl, by split <;> rfl, fun c hc => mayContain_of_isDigit (isDigit_of_mem_toDigits hc)⟩
  unfold scientific
  cases htext : d.text with
  | nil => exact absurd htext Nat.toDigits_ne_nil
  | cons c rest =>
    rw [htext] at hleading hdigits hvalue
    obtain ⟨hc, hrest⟩ := List.forall_mem_cons.mp hdigits
    have hexponent : d.leading - (rest.length : Int) = d.exponent := by
      rw [List.length_cons] at hleading
      omega
    have hspells := Spells.parts (d := d) [c] rest _ d.leading (by simp) (by simpa using hc) hrest
      (exponent?_scientific d.leading) htail (.inr List.mem_cons_self)
      (by rw [List.singleton_append, hvalue, hexponent])
    cases rest with
    | nil => exact hspells
    | cons c' rest => exact hspells

private theorem spells_render (layout : DecimalLayout) (d : Decimal) :
    Spells d (d.render layout) := by
  unfold render
  split
  · exact spells_positional d
  · exact spells_scientific d

end Decimal

/-! ### Numbers as they are written -/

private theorem Binary64.ofRatio?_of_isIntegral {x : Binary64} (h : x.isIntegral = true) :
    ofRatio? x.negative (x.magnitude / unitsPerOne) 1 = some x := by
  have hmod : x.magnitude % unitsPerOne = 0 := by simpa [isIntegral] using h
  have hunits : x.magnitude / unitsPerOne * unitsPerOne = x.magnitude :=
    Nat.div_mul_cancel (Nat.dvd_of_mod_eq_zero hmod)
  have hself := ofUnits?_magnitude x x.negative Nat.one_pos
  rwa [Nat.mul_one, withSign_self, ← hunits] at hself

namespace Number

open Numeral

/-- The integer that a number is, if it is one. -/
def whole? : Number → Option Int
  | .int i => some i
  | .real x =>
    if x.isIntegral then
      some (if x.negative then -(x.magnitude / Binary64.unitsPerOne : Nat)
        else (x.magnitude / Binary64.unitsPerOne : Nat))
    else
      none

private theorem toList_plainText (n : Number) :
    (∃ negative k, n.plainText.toList = signed negative (Nat.toDigits 10 k) ∧
      n.whole? = some (if negative then -(k : Int) else k) ∧
      n.toBinary64? = Binary64.ofRatio? negative k 1) ∨
    ∃ x d cs, n = .real x ∧ n.whole? = none ∧ Spells d cs ∧
      n.plainText.toList = signed x.negative cs ∧
      Binary64.ofDecimal? x.negative d.digits d.exponent = some x := by
  cases n with
  | int i =>
    refine .inl ⟨decide (i < 0), i.natAbs, ?_, ?_, rfl⟩
    · cases i with
      | ofNat k => simp [plainText, signed, Int.toString_eq_repr, Int.repr]
      | negSucc k => simp [plainText, signed, Int.toString_eq_repr, Int.repr, Int.negSucc_lt_zero]
    · simp only [whole?, decide_eq_true_eq]
      refine congrArg some ?_
      split <;> omega
  | real x =>
    by_cases hwhole : x.isIntegral = true
    · refine .inl ⟨x.negative, x.magnitude / Binary64.unitsPerOne, ?_, ?_, ?_⟩
      · cases hsign : x.negative <;>
          simp [plainText, hwhole, Binary64.integralText, signed, hsign]
      · exact if_pos hwhole
      · exact (Binary64.ofRatio?_of_isIntegral hwhole).symm
    · have hpos : 0 < x.magnitude := by
        rw [Nat.pos_iff_ne_zero]
        intro hzero
        exact hwhole (by simp [Binary64.isIntegral, hzero])
      have hzero : x.isZero = false := by
        rw [Binary64.isZero, beq_eq_false_iff_ne, Ne, ← Binary64.magnitude_eq_zero_iff]
        omega
      refine .inr ⟨x, x.shortest, x.shortest.render Json.numberLayout, rfl, ?_,
        Decimal.spells_render _ _, ?_, Binary64.ofDecimal?_shortest hpos x.negative⟩
      · exact if_neg hwhole
      · cases hsign : x.negative <;> simp [plainText, hwhole, toText, hzero, signed, hsign]

/-- The text of a number is read as the number. -/
theorem real?_plainText (n : Number) : real? n.plainText.toList = n.toBinary64? := by
  rcases toList_plainText n with
    ⟨negative, k, htext, -, hnumber⟩ | ⟨x, d, cs, rfl, -, hspells, htext, hx⟩
  · rw [htext, hnumber, real?_signed]
  · rw [htext, hspells.real?, hx]
    rfl

/-- The text of a number is read as an integer just if the number is one of the signed 64-bit
range. -/
theorem signed?_plainText (n : Number) :
    signed? n.plainText.toList = n.whole?.filter fun i => decide (InSigned64 i) := by
  rcases toList_plainText n with
    ⟨negative, k, htext, hwhole, -⟩ | ⟨x, d, cs, -, hwhole, hspells, htext, -⟩
  · rw [htext, hwhole, signed?_signed]
  · obtain ⟨c, hc, hmark⟩ := hspells.exists_mark
    rw [htext, hwhole]
    refine signed?_eq_none (c := c) ?_ ?_ ?_
    · unfold signed
      split <;> simp [hc]
    · rcases hmark with rfl | rfl <;> rfl
    · rcases hmark with rfl | rfl <;> decide

theorem isSome_whole?_iff (n : Number) :
    n.whole?.isSome = true ↔ ∀ c ∈ n.plainText.toList, c ≠ '.' ∧ c ≠ 'e' := by
  rcases toList_plainText n with
    ⟨negative, k, htext, hwhole, -⟩ | ⟨x, d, cs, -, hwhole, hspells, htext, -⟩
  · refine iff_of_true (by rw [hwhole]; rfl) fun c hc => ?_
    have hchar : c = '-' ∨ c.isDigit = true := by
      rw [htext, signed] at hc
      split at hc
      · exact (List.mem_cons.mp hc).imp_right isDigit_of_mem_toDigits
      · exact .inr (isDigit_of_mem_toDigits hc)
    constructor <;> rintro rfl <;> rcases hchar with hchar | hchar <;> cases hchar
  · obtain ⟨c, hc, hmark⟩ := hspells.exists_mark
    refine iff_of_false (by simp [hwhole]) fun h => ?_
    have hmem : c ∈ n.plainText.toList := by
      rw [htext, signed]
      split <;> simp [hc]
    rcases hmark with rfl | rfl
    · exact (h _ hmem).1 rfl
    · exact (h _ hmem).2 rfl

private theorem mayContain_of_mem_plainText {n : Number} {c : Char} (hc : c ∈ n.plainText.toList) :
    NumberText.mayContain c = true := by
  have hsigned {negative : Bool} {cs : List Char} (hc : c ∈ signed negative cs)
      (hcs : c ∈ cs → NumberText.mayContain c = true) : NumberText.mayContain c = true := by
    unfold signed at hc
    split at hc
    · rcases List.mem_cons.mp hc with rfl | hc
      · rfl
      · exact hcs hc
    · exact hcs hc
  rcases toList_plainText n with ⟨_, _, htext, -⟩ | ⟨_, _, _, _, -, hspells, htext, -⟩
  · exact hsigned (htext ▸ hc) fun hc => mayContain_of_isDigit (isDigit_of_mem_toDigits hc)
  · exact hsigned (htext ▸ hc) hspells.mayContain

private theorem plainText_ne_empty (n : Number) : n.plainText.toList ≠ [] := by
  have hsigned {negative : Bool} {cs : List Char} (hcs : Begins cs) : signed negative cs ≠ [] := by
    obtain ⟨c, rest, rfl, -⟩ := hcs
    cases negative <;> simp [signed]
  rcases toList_plainText n with ⟨_, _, htext, -⟩ | ⟨_, _, _, _, -, hspells, htext, -⟩
  · exact htext ▸ hsigned (begins_toDigits _)
  · exact htext ▸ hsigned hspells.begins

end Number

/-! ### Blanks -/

namespace Text

private theorem isBlank_of_mayContain {c : Char} (hc : NumberText.mayContain c = true) :
    isBlank c = false := by
  have hrange : 43 ≤ c.toNat ∧ c.toNat ≤ 101 := by
    simp only [NumberText.mayContain, Bool.or_eq_true, beq_iff_eq] at hc
    rcases hc with ((((hdigit | rfl) | rfl) | rfl) | rfl) | rfl
    · simp only [Char.isDigit, Bool.and_eq_true, decide_eq_true_eq,
        UInt32.le_iff_toNat_le] at hdigit
      have hlow : 48 ≤ c.toNat := hdigit.1
      have hhigh : c.toNat ≤ 57 := hdigit.2
      omega
    all_goals decide
  simp only [isBlank, Bool.or_eq_false_iff, Bool.and_eq_false_iff, decide_eq_false_iff_not,
    beq_eq_false_iff_ne]
  omega

private theorem trimChars_eq {cs : List Char} (hcs : ∀ c ∈ cs, isBlank c = false) :
    trimChars cs = cs := by
  have hdrop {cs : List Char} (hcs : ∀ c ∈ cs, isBlank c = false) : cs.dropWhile isBlank = cs := by
    cases cs with
    | nil => rfl
    | cons c rest => exact List.dropWhile_cons_of_neg (by simp [hcs c List.mem_cons_self])
  rw [trimChars, hdrop hcs, hdrop fun c hc => hcs c (List.mem_reverse.mp hc), List.reverse_reverse]

theorem trimChars_plainText (n : Number) : trimChars n.plainText.toList = n.plainText.toList :=
  trimChars_eq fun _ hc => isBlank_of_mayContain (Number.mayContain_of_mem_plainText hc)

theorem isBlankText_plainText (n : Number) : isBlankText n.plainText = false := by
  obtain ⟨c, rest, htext⟩ := List.exists_cons_of_ne_nil n.plainText_ne_empty
  have hc : isBlank c = false :=
    isBlank_of_mayContain (Number.mayContain_of_mem_plainText (n := n) (by simp [htext]))
  rw [isBlankText, htext, List.all_cons, hc, Bool.false_and]

end Text

end SchemaForm
