import Mathlib.Data.List.Infix
import Mathlib.Data.List.TakeWhile
import SchemaForm.Text.Lowercase

set_option autoImplicit false
set_option relaxedAutoImplicit false

/-!
Parts of texts in lower case. Every character has one form in lower case wherever it stands, but for
the capital sigma, whose form depends on the nearest characters around it that are not skipped. A
text that holds these characters for each of its sigmas is found in lower case in every text that
holds it; any other one is missed in some text.
-/

namespace SchemaForm.Text

theorem occursIn_iff {needle hay : List Char} : occursIn needle hay = true ↔ needle <:+: hay := by
  induction hay with
  | nil => simp [occursIn]
  | cons c rest ih =>
    rw [occursIn, Bool.or_eq_true, ih, List.isPrefixOf_iff_prefix, List.infix_cons_iff]

/-! ### The characters around a sigma -/

/-- Whether the first character that is not skipped is cased, none where all are skipped. -/
def nearestCased? (cs : List Char) : Option Bool :=
  (cs.find? fun c => !isCaseIgnorable c).map isCased

/-- Whether a capital sigma has the same form whatever stands around the characters given: there is
no word before it, or its word goes on, or both ends of its surroundings are in sight. -/
def settlesSigma (before after : List Char) : Bool :=
  nearestCased? before == some false || nearestCased? after == some true ||
    ((nearestCased? before).isSome && (nearestCased? after).isSome)

/-- Whether this holds of every capital sigma of a text, those before the text in reverse. -/
def settlesSigmas (before : List Char) : List Char → Bool
  | [] => true
  | c :: rest => (c != 'Σ' || settlesSigma before rest) && settlesSigmas (c :: before) rest

private theorem nearestCased?_append (a b : List Char) :
    nearestCased? (a ++ b) = (nearestCased? a).or (nearestCased? b) := by
  rw [nearestCased?, List.find?_append, Option.map_or]
  rfl

private theorem meetsCased_eq (cs : List Char) : meetsCased cs = (nearestCased? cs).getD false := by
  simp only [meetsCased, nearestCased?, List.find?_eq_head?_dropWhile_not, Bool.not_not]
  cases cs.dropWhile isCaseIgnorable <;> rfl

private theorem exists_unsettled {before cs : List Char} (h : settlesSigmas before cs = false) :
    ∃ a b, cs = a ++ 'Σ' :: b ∧ settlesSigma (a.reverse ++ before) b = false := by
  induction cs generalizing before with
  | nil => cases h
  | cons c rest ih =>
    rw [settlesSigmas, Bool.and_eq_false_iff, Bool.or_eq_false_iff] at h
    rcases h with ⟨hc, hsettles⟩ | h
    · obtain rfl : c = 'Σ' := by simpa using hc
      exact ⟨[], rest, rfl, hsettles⟩
    · obtain ⟨a, b, rfl, hsettles⟩ := ih h
      exact ⟨c :: a, b, rfl, by simpa using hsettles⟩

/-! ### Lower case of a part -/

/-- The form of a character between those before it, in reverse, and those after it. -/
def formBetween (before : List Char) (c : Char) (after : List Char) : List Char :=
  if c = 'Σ' then
    [if meetsCased before && !meetsCased after then 'ς' else 'σ']
  else
    lowerChar c

/-- Lower case of the part of a text between what stands before it, in reverse, and after it. -/
def lowerPart (before : List Char) : List Char → List Char → List Char
  | [], _ => []
  | c :: rest, after => formBetween before c (rest ++ after) ++ lowerPart (c :: before) rest after

private theorem formBetween_sigma (before after : List Char) : formBetween before 'Σ' after =
    [if (nearestCased? before).getD false && !(nearestCased? after).getD false then 'ς'
      else 'σ'] := by
  rw [formBetween, if_pos rfl, meetsCased_eq, meetsCased_eq]

private theorem lowerFrom_append (before cs after : List Char) : lowerFrom before (cs ++ after) =
    lowerPart before cs after ++ lowerFrom (cs.reverse ++ before) after := by
  induction cs generalizing before with
  | nil => rfl
  | cons c rest ih =>
    rw [List.cons_append, lowerFrom, lowerPart, ih, formBetween, List.append_assoc,
      List.reverse_cons, List.append_assoc, List.singleton_append]

private theorem lowerFrom_eq (before cs : List Char) :
    lowerFrom before cs = lowerPart before cs [] := by
  have hwhole := lowerFrom_append before cs []
  rwa [List.append_nil, lowerFrom, List.append_nil] at hwhole

private theorem lowerPart_append (before a b after : List Char) : lowerPart before (a ++ b) after =
    lowerPart before a (b ++ after) ++ lowerPart (a.reverse ++ before) b after := by
  induction a generalizing before with
  | nil => rfl
  | cons c a ih =>
    rw [List.cons_append, lowerPart, lowerPart, ih, List.append_assoc, List.append_assoc,
      List.reverse_cons, List.append_assoc, List.singleton_append]

private theorem length_formBetween (before before' : List Char) (c : Char)
    (after after' : List Char) :
    (formBetween before c after).length = (formBetween before' c after').length := by
  unfold formBetween
  split <;> rfl

private theorem length_lowerPart (before before' cs after after' : List Char) :
    (lowerPart before cs after).length = (lowerPart before' cs after').length := by
  induction cs generalizing before before' with
  | nil => rfl
  | cons c rest ih =>
    rw [lowerPart, lowerPart, List.length_append, List.length_append,
      ih (c :: before) (c :: before'),
      length_formBetween before before' c (rest ++ after) (rest ++ after')]

/-! ### Settled sigmas -/

private theorem formBetween_append {before after : List Char} (h : settlesSigma before after = true)
    (further further' : List Char) : formBetween (before ++ further) 'Σ' (after ++ further') =
      formBetween before 'Σ' after := by
  rw [formBetween_sigma, formBetween_sigma, nearestCased?_append, nearestCased?_append]
  unfold settlesSigma at h
  generalize nearestCased? before = nearest at h ⊢
  generalize nearestCased? after = nearest' at h ⊢
  rcases nearest with _ | _ | _ <;> rcases nearest' with _ | _ | _ <;> simp_all

private theorem lowerPart_of_settles {before cs : List Char} (h : settlesSigmas before cs = true)
    (further after : List Char) :
    lowerPart (before ++ further) cs after = lowerPart before cs [] := by
  induction cs generalizing before with
  | nil => rfl
  | cons c rest ih =>
    rw [settlesSigmas, Bool.and_eq_true] at h
    obtain ⟨hc, hrest⟩ := h
    rw [lowerPart, lowerPart, ← List.cons_append, ih hrest, List.append_nil]
    by_cases hsigma : c = 'Σ'
    · subst hsigma
      rw [formBetween_append (by simpa using hc)]
    · rw [formBetween, formBetween, if_neg hsigma, if_neg hsigma]

theorem infix_lowerFrom_of_settles {t s : List Char} (h : settlesSigmas [] t = true)
    (ht : t <:+: s) : lowerFrom [] t <:+: lowerFrom [] s := by
  obtain ⟨before, after, rfl⟩ := ht
  rw [List.append_assoc, lowerFrom_append, lowerFrom_append, List.append_nil, lowerFrom_eq [] t,
    ← lowerPart_of_settles h before.reverse after, List.nil_append, ← List.append_assoc]
  exact List.infix_append _ _ _

/-! ### Sigmas that are not settled -/

private theorem formBetween_ne_of_before {before after further : List Char}
    (h : settlesSigma before after = false) (hbefore : nearestCased? before = none)
    (hfurther : nearestCased? further = some true) :
    formBetween before 'Σ' after ≠ formBetween (before ++ further) 'Σ' after := by
  rw [formBetween_sigma, formBetween_sigma, nearestCased?_append, hbefore, hfurther]
  unfold settlesSigma at h
  generalize nearestCased? after = nearest at h ⊢
  rcases nearest with _ | _ | _ <;> simp_all

private theorem formBetween_ne_of_after {before after further : List Char}
    (h : settlesSigma before after = false) (hbefore : nearestCased? before ≠ none)
    (hfurther : nearestCased? further = some true) :
    formBetween before 'Σ' after ≠ formBetween before 'Σ' (after ++ further) := by
  rw [formBetween_sigma, formBetween_sigma, nearestCased?_append, hfurther]
  unfold settlesSigma at h
  generalize nearestCased? before = nearest at h hbefore ⊢
  generalize nearestCased? after = nearest' at h ⊢
  rcases nearest with _ | _ | _ <;> rcases nearest' with _ | _ | _ <;> simp_all

private theorem lowerPart_ne {a b before before' after after' : List Char}
    (h : formBetween (a.reverse ++ before) 'Σ' (b ++ after) ≠
      formBetween (a.reverse ++ before') 'Σ' (b ++ after')) :
    lowerPart before (a ++ 'Σ' :: b) after ≠ lowerPart before' (a ++ 'Σ' :: b) after' := by
  intro heq
  rw [lowerPart_append, lowerPart_append] at heq
  obtain ⟨-, hparts⟩ := List.append_inj heq (length_lowerPart _ _ _ _ _)
  obtain ⟨hform, -⟩ := List.append_inj hparts (length_formBetween _ _ _ _ _)
  exact h hform

private theorem not_infix_cons {l l' : List Char} {x : Char} (hlength : l.length = l'.length)
    (hne : l ≠ l') (hhead : l.head? ≠ some x) : ¬ l <:+: x :: l' := by
  rw [List.infix_cons_iff]
  rintro (hstart | hpart)
  · rcases List.prefix_cons_iff.mp hstart with rfl | ⟨rest, rfl, -⟩
    · exact hne (List.length_eq_zero_iff.mp hlength.symm).symm
    · exact hhead rfl
  · exact hne (hpart.eq_of_length hlength)

private theorem not_infix_concat {l l' : List Char} {x : Char} (hlength : l.length = l'.length)
    (hne : l ≠ l') (hlast : l.getLast? ≠ some x) : ¬ l <:+: l' ++ [x] := by
  rw [← List.reverse_infix, List.reverse_concat]
  refine not_infix_cons ?_ (fun h => hne (List.reverse_inj.mp h)) ?_
  · rwa [List.length_reverse, List.length_reverse]
  · rwa [List.head?_reverse]

/-- Cased letters that are their own lower case. There are two, so that one of them differs from any
character given. -/
private theorem exists_letter (found : Option Char) : ∃ x : Char, found ≠ some x ∧
    nearestCased? [x] = some true ∧ ∀ before after, formBetween before x after = [x] := by
  by_cases ha : found = some 'a'
  · refine ⟨'b', by rw [ha]; decide, by decide +kernel, fun before after => ?_⟩
    rw [formBetween, if_neg (by decide)]
    rfl
  · refine ⟨'a', ha, by decide +kernel, fun before after => ?_⟩
    rw [formBetween, if_neg (by decide)]
    rfl

/-- A text with a sigma that is not settled is missed where a letter in front of it begins the word
of the sigma, or where a letter behind it goes on with that word. -/
theorem exists_missed_of_unsettled {t : List Char} (h : settlesSigmas [] t = false) :
    ∃ s, t <:+: s ∧ ¬ lowerFrom [] t <:+: lowerFrom [] s := by
  obtain ⟨a, b, rfl, hsigma⟩ := exists_unsettled h
  rw [List.append_nil] at hsigma
  set t := a ++ 'Σ' :: b
  by_cases hbefore : nearestCased? a.reverse = none
  · obtain ⟨x, hhead, hcased, hform⟩ := exists_letter (lowerFrom [] t).head?
    have hlower : lowerFrom [] (x :: t) = x :: lowerPart [x] t [] := by
      rw [lowerFrom_eq, lowerPart, hform]
      rfl
    refine ⟨x :: t, List.infix_cons_iff.mpr (.inr List.infix_rfl), ?_⟩
    rw [hlower]
    refine not_infix_cons ?_ ?_ hhead
    · rw [lowerFrom_eq]
      exact length_lowerPart _ _ _ _ _
    · rw [lowerFrom_eq]
      refine lowerPart_ne ?_
      rw [List.append_nil, List.append_nil]
      exact formBetween_ne_of_before hsigma hbefore hcased
  · obtain ⟨x, hlast, hcased, hform⟩ := exists_letter (lowerFrom [] t).getLast?
    have hlower : lowerFrom [] (t ++ [x]) = lowerPart [] t [x] ++ [x] := by
      rw [lowerFrom_append, lowerFrom_eq, lowerPart, hform]
      rfl
    refine ⟨t ++ [x], List.infix_append' [] t [x], ?_⟩
    rw [hlower]
    refine not_infix_concat ?_ ?_ hlast
    · rw [lowerFrom_eq]
      exact length_lowerPart _ _ _ _ _
    · rw [lowerFrom_eq]
      refine lowerPart_ne ?_
      rw [List.append_nil, List.append_nil]
      exact formBetween_ne_of_after hsigma hbefore hcased

end SchemaForm.Text
