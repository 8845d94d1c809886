import Mathlib.Data.List.Basic
import SchemaForm.Binary64.Reading

set_option autoImplicit false
set_option relaxedAutoImplicit false

/-!
Digits. A number is read from the digits it is printed with, and digits are printed for the number
they are read as if they have no needless zeros in front.
-/

namespace SchemaForm

namespace Numeral

theorem ofDigits_toDigits (n : Nat) : ofDigits 0 (Nat.toDigits 10 n) = n :=
  Nat.ofDigitChars_toDigits (by decide) (by decide)

theorem isDigit_of_mem_toDigits {n : Nat} {c : Char} (hc : c ∈ Nat.toDigits 10 n) :
    c.isDigit = true :=
  Nat.isDigit_of_mem_toDigits (by decide) (by decide) hc

theorem natural?_toDigits (n : Nat) : natural? (Nat.toDigits 10 n) = some n := by
  rw [natural?, ofDigits_toDigits]
  exact if_pos ⟨Nat.toDigits_ne_nil, List.all_eq_true.mpr fun _ => isDigit_of_mem_toDigits⟩

/-! ### Canonical digits -/

/-- Digits as a number is printed: no sign, and no zero in front of other digits. -/
def IsCanonical (cs : List Char) : Prop :=
  cs.all Char.isDigit = true ∧ (cs.head? = some '0' → cs = ['0'])

instance (cs : List Char) : Decidable (IsCanonical cs) :=
  inferInstanceAs (Decidable (cs.all Char.isDigit = true ∧ (cs.head? = some '0' → cs = ['0'])))

private theorem toNat_of_isDigit {c : Char} (hc : c.isDigit = true) :
    '0'.toNat ≤ c.toNat ∧ c.toNat - '0'.toNat < 10 := by
  have hrange : 48 ≤ c.toNat ∧ c.toNat ≤ 57 := by
    simpa [Char.isDigit, UInt32.le_iff_toNat_le] using hc
  have hzero : '0'.toNat = 48 := rfl
  omega

private theorem toDigits_digit {c : Char} (hc : c.isDigit = true) :
    Nat.toDigits 10 (c.toNat - '0'.toNat) = [c] := by
  obtain ⟨hlow, hdigit⟩ := toNat_of_isDigit hc
  have hchar : (c.toNat - '0'.toNat).digitChar = c := by
    apply Char.toNat_inj.mp
    rw [Nat.toNat_digitChar_of_lt_ten hdigit]
    exact Nat.add_sub_cancel' hlow
  rw [Nat.toDigits_of_lt_base hdigit, hchar]

private theorem toDigits_ofDigits {n : Nat} (hn : 0 < n) {cs : List Char}
    (hcs : ∀ c ∈ cs, c.isDigit = true) :
    Nat.toDigits 10 (ofDigits n cs) = Nat.toDigits 10 n ++ cs := by
  induction cs generalizing n with
  | nil => simp [ofDigits]
  | cons c cs ih =>
    have hc := hcs c List.mem_cons_self
    have hstep := Nat.toDigits_append_toDigits (b := 10) (by decide) hn (toNat_of_isDigit hc).2
    rw [toDigits_digit hc] at hstep
    have hlater := ih (n := 10 * n + (c.toNat - '0'.toNat)) (by omega)
      fun d hd => hcs d (List.mem_cons_of_mem c hd)
    calc Nat.toDigits 10 (ofDigits n (c :: cs))
        = Nat.toDigits 10 (10 * n + (c.toNat - '0'.toNat)) ++ cs := hlater
      _ = Nat.toDigits 10 n ++ c :: cs := by rw [← hstep, List.append_assoc, List.singleton_append]

theorem IsCanonical.toDigits_ofDigits {cs : List Char} (h : IsCanonical cs) (hne : cs ≠ []) :
    Nat.toDigits 10 (ofDigits 0 cs) = cs := by
  obtain ⟨hall, hzero⟩ := h
  have hdigits := List.all_eq_true.mp hall
  cases cs with
  | nil => exact absurd rfl hne
  | cons c cs =>
    by_cases hc : c = '0'
    · rw [hzero (congrArg some hc)]
      rfl
    · have hdigit := hdigits c List.mem_cons_self
      have hpos : 0 < c.toNat - '0'.toNat := by
        have hlow := (toNat_of_isDigit hdigit).1
        have hdiffer : c.toNat ≠ '0'.toNat := mt Char.toNat_inj.mp hc
        omega
      have hstart : ofDigits 0 (c :: cs) = ofDigits (c.toNat - '0'.toNat) cs := by
        rw [ofDigits, List.foldl_cons, Nat.mul_zero, Nat.zero_add, ofDigits]
      rw [hstart, Numeral.toDigits_ofDigits hpos fun d hd => hdigits d (List.mem_cons_of_mem c hd),
        toDigits_digit hdigit, List.singleton_append]

theorem isCanonical_toDigits (n : Nat) : IsCanonical (Nat.toDigits 10 n) := by
  refine ⟨List.all_eq_true.mpr fun _ => isDigit_of_mem_toDigits, ?_⟩
  induction n using Nat.strongRecOn with
  | ind n ih =>
    intro hzero
    by_cases hn : n < 10
    · rw [Nat.toDigits_of_lt_base hn] at hzero ⊢
      simpa using hzero
    · -- The first digit is that of the tenth part, which would have to be zero.
      rw [Nat.toDigits_of_base_le (by decide) (by omega),
        List.head?_append_of_ne_nil _ Nat.toDigits_ne_nil] at hzero
      have htenth := ih (n / 10) (by omega) hzero
      have hvalue := ofDigits_toDigits (n / 10)
      rw [htenth] at hvalue
      have hvanishes : n / 10 = 0 := hvalue.symm
      omega

end Numeral

end SchemaForm
