import SchemaForm.Options.Registry
import SchemaForm.Proofs.Dictionary

set_option autoImplicit false
set_option relaxedAutoImplicit false

/-!
The laws of evaluating the options of a node. The rules of the node's kind are taken one after the
other, so a fact about all options is proved of one rule at a time, and an option stays as its rule
made it if no later rule has its name.
-/

namespace SchemaForm

namespace OptionRegistry

open Dictionary

def names (r : OptionRegistry) : List String := r.rules.map OptionRule.name

variable {node : OptionNode} {name : String} {v : Json}

/-- What every rule guarantees, whatever options with the same guarantee it is given, holds of all
options. -/
theorem forall_evaluate {r : OptionRegistry} {P : String → Json → Prop}
    (hrule : ∀ rule ∈ r.rules, node.kind ∈ rule.kinds → ∀ options : Dictionary Json,
      (∀ name v, get? options name = some v → P name v) → P rule.name (rule.value node options))
    (hfound : get? (r.evaluate node) name = some v) : P name v := by
  suffices hfold : ∀ (rules : List OptionRule) (options : Dictionary Json), rules ⊆ r.rules →
      (∀ name v, get? options name = some v → P name v) →
      ∀ name v, get? (rules.foldl (step node) options) name = some v → P name v from
    hfold r.rules [] (List.Subset.refl _) (fun _ _ hnone => by cases hnone) name v hfound
  intro rules
  induction rules with
  | nil => exact fun _ _ hbefore => hbefore
  | cons rule rules ih =>
    intro options hsub hbefore
    refine ih (step node options rule) (fun other hother => hsub (List.mem_cons_of_mem _ hother)) ?_
    intro name v hstep
    unfold step at hstep
    split at hstep
    · rename_i hkind
      rw [get?_insert] at hstep
      split at hstep
      · rename_i hname
        cases hstep
        rw [← hname]
        exact hrule rule (hsub List.mem_cons_self) (by simpa using hkind) options hbefore
      · exact hbefore name v hstep
    · exact hbefore name v hstep

private theorem isSome_get?_step (options : Dictionary Json) (rule : OptionRule) :
    (get? (step node options rule) name).isSome = true ↔
      (get? options name).isSome = true ∨ (rule.name = name ∧ node.kind ∈ rule.kinds) := by
  unfold step
  by_cases hkind : node.kind ∈ rule.kinds
  · rw [if_pos (by simpa using hkind), get?_insert]
    by_cases hname : rule.name = name <;> simp [hname, hkind]
  · rw [if_neg (by simpa using hkind)]
    simp [hkind]

theorem isSome_get?_evaluate_iff {r : OptionRegistry} :
    (get? (r.evaluate node) name).isSome = true ↔
      ∃ rule ∈ r.rules, rule.name = name ∧ node.kind ∈ rule.kinds := by
  suffices hfold : ∀ (rules : List OptionRule) (options : Dictionary Json),
      (get? (rules.foldl (step node) options) name).isSome = true ↔
        (get? options name).isSome = true ∨
          ∃ rule ∈ rules, rule.name = name ∧ node.kind ∈ rule.kinds by
    rw [evaluate, hfold]
    simp
  intro rules
  induction rules with
  | nil => simp
  | cons rule rules ih =>
    intro options
    simp only [List.foldl_cons, ih, isSome_get?_step, List.mem_cons, exists_eq_or_imp, or_assoc]

theorem mem_names_of_get?_evaluate {r : OptionRegistry}
    (hfound : get? (r.evaluate node) name = some v) : name ∈ r.names := by
  obtain ⟨rule, hrule, hname, -⟩ :=
    isSome_get?_evaluate_iff.mp (Option.isSome_iff_exists.mpr ⟨v, hfound⟩)
  exact List.mem_map.mpr ⟨rule, hrule, hname⟩

private theorem get?_evaluate_append {front later : List OptionRule}
    (hlater : ∀ rule ∈ later, rule.name ≠ name) :
    get? (evaluate ⟨front ++ later⟩ node) name = get? (evaluate ⟨front⟩ node) name := by
  rw [evaluate, List.foldl_append, ← evaluate]
  generalize evaluate ⟨front⟩ node = options
  induction later generalizing options with
  | nil => rfl
  | cons rule later ih =>
    have hstep : get? (step node options rule) name = get? options name := by
      unfold step
      split
      · rw [get?_insert, if_neg (hlater rule List.mem_cons_self)]
      · rfl
    rw [List.foldl_cons, ih (fun other hother => hlater other (List.mem_cons_of_mem rule hother)),
      hstep]

section Distinct

variable {r : OptionRegistry} {n : Nat}

private theorem names_drop_ne (hnodup : r.names.Nodup) (hn : n < r.rules.length) :
    ∀ rule ∈ r.rules.drop (n + 1), rule.name ≠ r.rules[n].name := by
  intro rule hrule hname
  have hsplit : (r.rules.drop n).map OptionRule.name =
      r.rules[n].name :: (r.rules.drop (n + 1)).map OptionRule.name := by
    rw [List.drop_eq_getElem_cons hn, List.map_cons]
  have htail : ((r.rules.drop n).map OptionRule.name).Nodup :=
    hnodup.sublist ((List.drop_sublist n r.rules).map OptionRule.name)
  rw [hsplit, List.nodup_cons] at htail
  exact htail.1 (hname ▸ List.mem_map_of_mem hrule)

/-- An option is what its rule makes of the options before it. -/
theorem get?_evaluate_getElem (hnodup : r.names.Nodup) (hn : n < r.rules.length)
    (hkind : node.kind ∈ r.rules[n].kinds) :
    get? (r.evaluate node) r.rules[n].name =
      some (r.rules[n].value node (evaluate ⟨r.rules.take n⟩ node)) := by
  have hrules : r.rules = r.rules.take (n + 1) ++ r.rules.drop (n + 1) :=
    (List.take_append_drop (n + 1) r.rules).symm
  have hstep : evaluate ⟨r.rules.take (n + 1)⟩ node =
      Dictionary.insert (evaluate ⟨r.rules.take n⟩ node) r.rules[n].name
        (r.rules[n].value node (evaluate ⟨r.rules.take n⟩ node)) := by
    rw [evaluate, List.take_add_one, List.getElem?_eq_getElem hn, List.foldl_append, ← evaluate,
      Option.toList_some, List.foldl_cons, List.foldl_nil, step, if_pos (by simpa using hkind)]
  have hlast : get? (evaluate ⟨r.rules.take (n + 1) ++ r.rules.drop (n + 1)⟩ node) r.rules[n].name =
      get? (evaluate ⟨r.rules.take (n + 1)⟩ node) r.rules[n].name :=
    get?_evaluate_append (names_drop_ne hnodup hn)
  rw [← hrules, hstep, get?_insert, if_pos rfl] at hlast
  exact hlast

theorem get?_evaluate_take (hnodup : r.names.Nodup) (hn : n < r.rules.length) {m : Nat}
    (hbefore : n < m) :
    get? (evaluate ⟨r.rules.take m⟩ node) r.rules[n].name =
      get? (r.evaluate node) r.rules[n].name := by
  have hlater : ∀ rule ∈ r.rules.drop m, rule.name ≠ r.rules[n].name := fun rule hrule =>
    names_drop_ne hnodup hn rule (List.drop_subset_drop_left r.rules hbefore hrule)
  have hsame : get? (evaluate ⟨r.rules.take m ++ r.rules.drop m⟩ node) r.rules[n].name =
      get? (evaluate ⟨r.rules.take m⟩ node) r.rules[n].name := get?_evaluate_append hlater
  rw [List.take_append_drop] at hsame
  exact hsame.symm

end Distinct

end OptionRegistry

end SchemaForm
