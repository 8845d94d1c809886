import Mathlib.Data.List.Nodup
import Mathlib.Data.String.Basic
import SchemaForm.Grid.Basic

set_option autoImplicit false
set_option relaxedAutoImplicit false

/-!
The order in which the features of a registry take effect. No registration, replacement or removal
ever leaves two features of one name, so priority and name leave no two of them in the same place.
The order depends on nothing else, and so not on how the registry came about.
-/

namespace SchemaForm

/-- A change of a registry. -/
inductive RegistryOp where
  | register (e : FeatureEntry)
  | replace (e : FeatureEntry)
  | erase (name : String)

/-- What the place of a feature among others goes by. -/
structure FeatureRank where
  name : String
  priority : Int
  deriving DecidableEq

namespace FeatureRank

/-- Higher priorities come first, and within one priority lesser names. -/
def Before (a b : FeatureRank) : Prop :=
  b.priority < a.priority ∨ (a.priority = b.priority ∧ a.name < b.name)

instance (a b : FeatureRank) : Decidable (a.Before b) :=
  inferInstanceAs (Decidable (_ ∨ _))

private theorem Before.asymm {a b : FeatureRank} (hab : a.Before b) : ¬ b.Before a := by
  intro hba
  rcases hab with hab | ⟨hab, hname⟩ <;> rcases hba with hba | ⟨hba, hname'⟩
  · omega
  · omega
  · omega
  · exact String.lt_asymm hname hname'

private theorem eq_of_pairwise_before {α : Type} (rank : α → FeatureRank) {l l' : List α}
    (hl : l.Pairwise fun a b => (rank a).Before (rank b))
    (hl' : l'.Pairwise fun a b => (rank a).Before (rank b)) (hperm : l.Perm l') : l = l' :=
  hperm.eq_of_pairwise (fun _ _ _ _ hab hba => absurd hba hab.asymm) hl hl'

end FeatureRank

namespace FeatureEntry

def rank (e : FeatureEntry) : FeatureRank := ⟨e.name, e.priority⟩

variable {a b : FeatureEntry}

private theorem notAfter_iff : a.notAfter b = true ↔
    b.priority < a.priority ∨ (a.priority = b.priority ∧ a.name ≤ b.name) := by
  simp [notAfter]

private theorem notAfter_trans (a b c : FeatureEntry) (hab : a.notAfter b = true)
    (hbc : b.notAfter c = true) : a.notAfter c = true := by
  rw [notAfter_iff] at hab hbc ⊢
  rcases hab with hab | ⟨hab, hname⟩ <;> rcases hbc with hbc | ⟨hbc, hname'⟩
  · exact .inl (by omega)
  · exact .inl (by omega)
  · exact .inl (by omega)
  · exact .inr ⟨hab.trans hbc, String.le_trans hname hname'⟩

private theorem notAfter_total (a b : FeatureEntry) : (a.notAfter b || b.notAfter a) = true := by
  rw [Bool.or_eq_true, notAfter_iff, notAfter_iff]
  rcases lt_trichotomy a.priority b.priority with hlt | heq | hgt
  · exact .inr (.inl hlt)
  · rcases String.le_total a.name b.name with hname | hname
    · exact .inl (.inr ⟨heq, hname⟩)
    · exact .inr (.inr ⟨heq.symm, hname⟩)
  · exact .inl (.inl hgt)

private theorem before_of_notAfter (hab : a.notAfter b = true) (hne : a.name ≠ b.name) :
    a.rank.Before b.rank := by
  rcases notAfter_iff.mp hab with hpriority | ⟨hpriority, hname⟩
  · exact .inl hpriority
  · exact .inr ⟨hpriority, lt_of_le_of_ne hname hne⟩

end FeatureEntry

namespace FeatureRegistry

def perform (r : FeatureRegistry) : RegistryOp → FeatureRegistry
  | .register e =>
    match r.register e with
    | .ok r => r
    | .error _ => r
  | .replace e => r.replace e
  | .erase name => r.erase name

def run (r : FeatureRegistry) (ops : List RegistryOp) : FeatureRegistry := ops.foldl perform r

def HasUniqueNames (r : FeatureRegistry) : Prop := (r.entries.map FeatureEntry.name).Nodup

instance (r : FeatureRegistry) : Decidable r.HasUniqueNames :=
  inferInstanceAs (Decidable (r.entries.map FeatureEntry.name).Nodup)

variable {r r' : FeatureRegistry}

private theorem has_iff {name : String} :
    r.has name = true ↔ name ∈ r.entries.map FeatureEntry.name := by
  simp [has]

private theorem register_taken {e : FeatureEntry} (htaken : r.has e.name = true) :
    r.register e = .error ⟨e.name⟩ := by
  rw [register, if_pos htaken]

private theorem register_free {e : FeatureEntry} (hfree : r.has e.name = false) :
    r.register e = .ok ⟨r.entries ++ [e]⟩ := by
  rw [register, hfree, if_neg Bool.false_ne_true]

/-! ### Unique names -/

theorem empty_hasUniqueNames : empty.HasUniqueNames := List.nodup_nil

private theorem HasUniqueNames.append (h : r.HasUniqueNames) {e : FeatureEntry}
    (hfree : r.has e.name = false) : HasUniqueNames ⟨r.entries ++ [e]⟩ := by
  have hnew : e.name ∉ r.entries.map FeatureEntry.name := by
    rw [← has_iff, hfree]
    exact Bool.false_ne_true
  rw [HasUniqueNames, List.map_append, List.map_singleton, ← List.concat_eq_append,
    List.nodup_concat]
  exact ⟨hnew, h⟩

private theorem HasUniqueNames.erase (h : r.HasUniqueNames) (name : String) :
    (r.erase name).HasUniqueNames :=
  h.sublist (List.filter_sublist.map FeatureEntry.name)

private theorem has_erase_self (r : FeatureRegistry) (name : String) :
    (r.erase name).has name = false := by
  rw [← Bool.not_eq_true, has_iff]
  intro hmem
  obtain ⟨e, he, hname⟩ := List.mem_map.mp hmem
  have hother := (List.mem_filter.mp he).2
  simp [hname] at hother

private theorem HasUniqueNames.perform (h : r.HasUniqueNames) (op : RegistryOp) :
    (r.perform op).HasUniqueNames := by
  cases op with
  | register e =>
    cases hhas : r.has e.name with
    | true =>
      rw [FeatureRegistry.perform, register_taken hhas]
      exact h
    | false =>
      rw [FeatureRegistry.perform, register_free hhas]
      exact h.append hhas
  | replace e => exact (h.erase e.name).append (has_erase_self r e.name)
  | erase name => exact h.erase name

theorem HasUniqueNames.run (h : r.HasUniqueNames) (ops : List RegistryOp) :
    (r.run ops).HasUniqueNames := by
  induction ops generalizing r with
  | nil => exact h
  | cons op ops ih => exact ih (h.perform op)

/-! ### The order -/

private theorem ordered_perm (r : FeatureRegistry) : r.ordered.Perm r.entries :=
  List.mergeSort_perm r.entries _

theorem HasUniqueNames.pairwise_ordered (h : r.HasUniqueNames) :
    r.ordered.Pairwise fun a b => a.rank.Before b.rank := by
  have hsorted : r.ordered.Pairwise fun a b => a.notAfter b = true :=
    List.pairwise_mergeSort FeatureEntry.notAfter_trans FeatureEntry.notAfter_total r.entries
  have hnames : r.ordered.Pairwise fun a b => a.name ≠ b.name :=
    List.pairwise_map.mp ((r.ordered_perm.map FeatureEntry.name).nodup_iff.mpr h)
  exact hsorted.imp₂ (fun _ _ => FeatureEntry.before_of_notAfter) hnames

private theorem HasUniqueNames.nodup_ranks (h : r.HasUniqueNames) :
    (r.entries.map FeatureEntry.rank).Nodup := by
  refine List.Nodup.of_map FeatureRank.name ?_
  rw [List.map_map]
  exact h

private theorem HasUniqueNames.map_rank_ordered_eq (h : r.HasUniqueNames) (h' : r'.HasUniqueNames)
    (hsame : ∀ rank, rank ∈ r.entries.map FeatureEntry.rank ↔
      rank ∈ r'.entries.map FeatureEntry.rank) :
    r.ordered.map FeatureEntry.rank = r'.ordered.map FeatureEntry.rank := by
  have hperm : (r.ordered.map FeatureEntry.rank).Perm (r'.ordered.map FeatureEntry.rank) :=
    calc (r.ordered.map FeatureEntry.rank).Perm (r.entries.map FeatureEntry.rank) :=
          r.ordered_perm.map _
      _ |>.Perm (r'.entries.map FeatureEntry.rank) :=
          (List.perm_ext_iff_of_nodup h.nodup_ranks h'.nodup_ranks).mpr hsame
      _ |>.Perm (r'.ordered.map FeatureEntry.rank) := (r'.ordered_perm.map _).symm
  exact FeatureRank.eq_of_pairwise_before id (List.pairwise_map.mpr h.pairwise_ordered)
    (List.pairwise_map.mpr h'.pairwise_ordered) hperm

theorem HasUniqueNames.ordered_eq (h : r.HasUniqueNames) {l : List FeatureEntry}
    (hsorted : l.Pairwise fun a b => a.rank.Before b.rank) (hperm : l.Perm r.entries) :
    r.ordered = l :=
  FeatureRank.eq_of_pairwise_before FeatureEntry.rank h.pairwise_ordered hsorted
    (r.ordered_perm.trans hperm.symm)

private theorem perform_register_of_error {e : FeatureEntry} {refusal : DuplicateFeature}
    (hrefused : r.register e = .error refusal) :
    refusal = ⟨e.name⟩ ∧ r.perform (.register e) = r := by
  cases hhas : r.has e.name with
  | true =>
    rw [register_taken hhas] at hrefused
    cases hrefused
    refine ⟨rfl, ?_⟩
    rw [perform, register_taken hhas]
  | false =>
    rw [register_free hhas] at hrefused
    cases hrefused

/-- The order of the features goes by the names and priorities that a history leaves. -/
theorem feature_order_determined (ops : List RegistryOp) :
    let r := empty.run ops
    r.HasUniqueNames ∧
    (∀ e, (r.has e.name = true → r.register e = .error ⟨e.name⟩) ∧
      (r.has e.name = false → r.register e = .ok ⟨r.entries ++ [e]⟩) ∧
      ∀ refusal, r.register e = .error refusal → r.perform (.register e) = r) ∧
    r.ordered.Perm r.entries ∧
    r.ordered.Pairwise (fun a b => a.rank.Before b.rank) ∧
    r.names = r.ordered.map FeatureEntry.name ∧
    (∀ schema p g, Grid.ofPath schema p r = .ok g → g.features = r.ordered) ∧
    ∀ ops', let r' := empty.run ops'
      (∀ rank, rank ∈ r.entries.map FeatureEntry.rank ↔ rank ∈ r'.entries.map FeatureEntry.rank) →
      r.ordered.map FeatureEntry.rank = r'.ordered.map FeatureEntry.rank ∧ r.names = r'.names := by
  intro r
  have hunique : r.HasUniqueNames := empty_hasUniqueNames.run ops
  refine ⟨hunique, fun e => ⟨register_taken, register_free, fun refusal hrefused =>
    (perform_register_of_error hrefused).2⟩, r.ordered_perm, hunique.pairwise_ordered, rfl, ?_, ?_⟩
  · intro schema p g hg
    unfold Grid.ofPath at hg
    split at hg
    · cases hg
      rfl
    · cases hg
  · intro ops' r' hsame
    have hunique' : r'.HasUniqueNames := empty_hasUniqueNames.run ops'
    have hranks := hunique.map_rank_ordered_eq hunique' hsame
    refine ⟨hranks, ?_⟩
    calc r.names = (r.ordered.map FeatureEntry.rank).map FeatureRank.name := by
          rw [List.map_map]; rfl
      _ = (r'.ordered.map FeatureEntry.rank).map FeatureRank.name := by rw [hranks]
      _ = r'.names := by rw [List.map_map]; rfl

/-- A feature that is added to the built-in ones stands where its priority puts it, whether it is
added last or first and in place of another one. -/
theorem feature_order_determined_audit :
    let builtins := builtin.entries.map RegistryOp.replace
    let ops := builtins ++ [.register ⟨"audit", 3, .inert⟩, .register ⟨"delete-row", 9, .inert⟩]
    let ops' := [.register ⟨"audit", 7, .inert⟩, .replace ⟨"audit", 3, .inert⟩] ++ builtins
    let r := empty.run ops
    let r' := empty.run ops'
    r.entries ≠ r'.entries ∧ r.register ⟨"delete-row", 9, .inert⟩ = .error ⟨"delete-row"⟩ ∧
      r.names = r'.names := by
  intro builtins ops ops' r r'
  have hperm : (r.entries.map FeatureEntry.rank).Perm (r'.entries.map FeatureEntry.rank) := by
    decide
  obtain ⟨-, hregister, -, -, -, -, horder⟩ := feature_order_determined ops
  have htaken : r.has "delete-row" = true := by decide
  exact ⟨by decide, (hregister ⟨"delete-row", 9, .inert⟩).1 htaken,
    (horder ops' fun rank => hperm.mem_iff).2⟩

end FeatureRegistry

end SchemaForm
