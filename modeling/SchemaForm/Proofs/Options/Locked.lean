import SchemaForm.Proofs.Options.Tree

set_option autoImplicit false
set_option relaxedAutoImplicit false

/-!
What the built-in options allow where a document is only shown, where it is part of a catalog, and
in a collection that is disabled or keeps its rows.
-/

namespace SchemaForm

open Dictionary
open Diff (UniqueIds)
open OptionName

namespace OptionName

/-- The options that let a document be changed. -/
def actions : List String :=
  [canAdd, canAddRow, canEdit, canDelete, canReorder, expandEditOnAdd, addOnTop, canSearch,
    canEditRow, canDeleteRow, editable]

/-- The options that let what there is be changed. -/
def changes : List String := [canEdit, canDelete, editable]

end OptionName

/-- Whether a view takes an option away from all nodes. -/
def View.Closes (view : View) (name : String) : Prop :=
  (view.isProperties = true ∧ name ∈ actions) ∨ (view.isLocked = true ∧ name ∈ OptionName.changes)

namespace View.Closes

variable {view : View} {name : String}

private theorem isLocked (hcloses : view.Closes name) : view.isLocked = true := by
  rcases hcloses with ⟨hprops, -⟩ | ⟨hlocked, -⟩
  · exact Bool.or_eq_true_iff.mpr (.inr hprops)
  · exact hlocked

private theorem mem_actions (hcloses : view.Closes name) : name ∈ actions := by
  have hsub : ∀ name ∈ OptionName.changes, name ∈ actions := by decide
  rcases hcloses with ⟨-, hname⟩ | ⟨-, hname⟩
  · exact hname
  · exact hsub name hname

private theorem isProperties (hcloses : view.Closes name) (hname : name ∉ OptionName.changes) :
    view.isProperties = true := by
  rcases hcloses with ⟨hprops, -⟩ | ⟨-, hchanges⟩
  · exact hprops
  · exact absurd hchanges hname

end View.Closes

namespace OptionRule

variable {name : String} {default : Bool} {kinds : List NodeKind} {holds : EvalContext → Bool}

@[simp] theorem flag_value (node : OptionNode) (options : Dictionary Json) :
    (flag name default kinds holds).value node options =
      .bool (holds (node.context (flag name default kinds holds) options)) := rfl

end OptionRule

/-- The option of a name at the node of a path. -/
def Json.option? (tree : Json) (p : Path) (name : String) : Option Json :=
  (tree.valueAt? p).bind fun node => node.get? name

namespace OptionRegistry

open OptionRule

variable {node : OptionNode} {name : String} {v : Json}

/-! ### The options of one node -/

theorem exists_bool_of_get?_builtin (hfound : get? (builtin.evaluate node) name = some v) :
    ∃ b, v = .bool b := by
  refine forall_evaluate (P := fun _ v => ∃ b, v = .bool b) (fun rule hrule _ options _ => ?_)
    hfound
  simp only [builtin, builtins, List.mem_cons, List.not_mem_nil, or_false] at hrule
  rcases hrule with rfl | rfl | rfl | rfl | rfl | rfl | rfl | rfl | rfl | rfl | rfl | rfl | rfl |
    rfl <;> exact ⟨_, rfl⟩

private theorem eq_false_of_closes (hfound : get? (builtin.evaluate node) name = some v)
    (hcloses : node.view.Closes name) : v = .bool false := by
  refine forall_evaluate (P := fun name v => node.view.Closes name → v = .bool false)
    (fun rule hrule _ options hbefore hcloses => ?_) hfound hcloses
  have hlocked := hcloses.isLocked
  have haction := hcloses.mem_actions
  have hshown := hcloses.isProperties
  -- The row button is the only action that looks at another one.
  have hcanAdd (hprops : node.view.isProperties = true) :
      ((get? options canAdd).map Json.truthy).getD false = false := by
    cases hv : get? options canAdd with
    | none => rfl
    | some v =>
      rw [hbefore canAdd v hv (.inl ⟨hprops, by decide⟩)]
      rfl
  simp only [builtin, builtins, List.mem_cons, List.not_mem_nil, or_false] at hrule
  rcases hrule with rfl | rfl | rfl | rfl | rfl | rfl | rfl | rfl | rfl | rfl | rfl | rfl | rfl |
    rfl <;> first
    | exact absurd haction (by decide)
    | simp [OptionNode.context, EvalContext.flag, hshown (by decide), hcanAdd (hshown (by decide))]
    | simp [OptionNode.context, hlocked]

private theorem builtin_names_nodup : builtin.names.Nodup := by decide

theorem get?_readonly (hlocked : node.view.isLocked = true) (hkind : node.kind ≠ .row) :
    get? (builtin.evaluate node) readonly = some (.bool true) := by
  have hfieldLike : node.kind ∈ fieldLike := by
    cases hcase : node.kind with
    | row => exact absurd hcase hkind
    | _ => decide
  have hvalue := get?_evaluate_getElem (r := builtin) (n := 2) builtin_names_nodup (by decide)
    hfieldLike
  rw [show builtin.rules[2].name = readonly from rfl] at hvalue
  rw [hvalue]
  simp [builtin, builtins, OptionNode.context, hlocked]

theorem get?_canAdd_of_shut (hkind : node.kind = .collection)
    (hshut : get? (builtin.evaluate node) disabled = some (.bool true) ∨
      node.field.fixedRows?.isSome = true) :
    get? (builtin.evaluate node) canAdd = some (.bool false) ∧
      get? (builtin.evaluate node) canAddRow = some (.bool false) := by
  have hcollection : node.kind ∈ [NodeKind.collection] := List.mem_singleton.mpr hkind
  have hdisabled : get? (evaluate ⟨builtins.take 3⟩ node) disabled =
      get? (builtin.evaluate node) disabled :=
    get?_evaluate_take (r := builtin) (n := 0) builtin_names_nodup (by decide) (by decide)
  have hcanAdd := get?_evaluate_getElem (r := builtin) (n := 3) builtin_names_nodup (by decide)
    hcollection
  have hfalse : get? (builtin.evaluate node) canAdd = some (.bool false) := by
    refine hcanAdd.trans (congrArg (fun b => some (Json.bool b)) ?_)
    rcases hshut with hoption | hfixed
    · rw [← hdisabled] at hoption
      simp [OptionNode.context, EvalContext.flag, builtin, hoption, Json.truthy]
    · simp [OptionNode.context, Option.isNone_eq_false_iff.mpr hfixed]
  have hbefore : get? (evaluate ⟨builtins.take 7⟩ node) canAdd =
      get? (builtin.evaluate node) canAdd :=
    get?_evaluate_take (r := builtin) (n := 3) builtin_names_nodup (by decide) (by decide)
  have hcanAddRow := get?_evaluate_getElem (r := builtin) (n := 7) builtin_names_nodup (by decide)
    hcollection
  refine ⟨hfalse, hcanAddRow.trans (congrArg (fun b => some (Json.bool b)) ?_)⟩
  rw [hfalse] at hbefore
  simp [OptionNode.context, EvalContext.flag, builtin, hbefore, Json.truthy]

/-! ### The options of the whole tree -/

section Tree

variable {s : Schema} {doc : Json} {view : View} {p : Path}

theorem NodeAt.option? (hnode : NodeAt builtin s doc view p node) (hunique : UniqueIds s)
    (hapart : node.kind = .row → RowIdsApart builtin.names s) (hname : name ∈ builtin.names) :
    (builtin.tree s doc view).option? p name = get? (builtin.evaluate node) name := by
  rw [Json.option?, hnode.valueAt? hunique, Option.bind_some]
  exact hnode.get?_members_option builtin_names_ne_repr hapart hname

/-- Wherever a closed option stands in the tree, it is false. -/
theorem eq_false_of_option?_tree (hcloses : view.Closes name) (hp : p ≠ .root)
    (hapart : p.segments.length % 2 = 0 → RowIdsApart builtin.names s)
    (hfound : (builtin.tree s doc view).option? p name = some v) : v = .bool false := by
  have hnames : ∀ name ∈ actions, name ∈ builtin.names := by decide
  obtain ⟨above, hleads, hmember⟩ := Option.bind_eq_some_iff.mp hfound
  rcases exists_nodeAt_of_valueAt?_tree (fun _ _ _ => exists_bool_of_get?_builtin) hleads hp with
    ⟨q, node, hlength, hnode, rfl⟩ | ⟨b, rfl⟩
  · have hoption := hnode.get?_members_option builtin_names_ne_repr
      (fun hkind => hapart (hlength ▸ hnode.even_length_iff.mpr hkind))
      (hnames name hcloses.mem_actions)
    rw [← hnode.view_eq] at hcloses
    exact eq_false_of_closes (hoption.symm.trans hmember) hcloses
  · cases hmember

end Tree

/-- If no two fields of a level have one id, and no field of a row has the name of an option, then
in a view that only shows the document, and in a catalog in every mode, all fields, collections and
cells are readonly. Wherever they stand in the tree, all actions are false in the former, and in the
latter those that change what there is. In every view no row can be added to a collection that is
disabled or keeps its rows. -/
theorem locked_tree (s : Schema) (doc : Json) (view : View) (hunique : UniqueIds s)
    (hapart : RowIdsApart builtin.names s) :
    let tree := builtin.tree s doc view
    (view.isProperties = true ∨ view.inCatalog = true → ∀ p node,
      NodeAt builtin s doc view p node → node.kind ≠ .row →
        tree.option? p readonly = some (.bool true)) ∧
    (view.isProperties = true → ∀ name ∈ actions, ∀ p, p ≠ .root →
      ∀ v, tree.option? p name = some v → v = .bool false) ∧
    (view.inCatalog = true → ∀ name ∈ OptionName.changes, ∀ p, p ≠ .root →
      ∀ v, tree.option? p name = some v → v = .bool false) ∧
    (∀ p node, NodeAt builtin s doc view p node → node.kind = .collection →
      (tree.option? p disabled = some (.bool true) ∨ node.field.fixedRows?.isSome = true) →
        tree.option? p canAdd = some (.bool false) ∧
          tree.option? p canAddRow = some (.bool false)) := by
  intro tree
  refine ⟨fun hlocked p node hnode hkind => ?_, fun hprops name hname p hp v hfound => ?_,
    fun hcatalog name hname p hp v hfound => ?_, fun p node hnode hkind hshut => ?_⟩
  · have hview : node.view.isLocked = true := by
      rw [hnode.view_eq]
      exact Bool.or_eq_true_iff.mpr hlocked.symm
    rw [hnode.option? hunique (fun _ => hapart) (by decide)]
    exact get?_readonly hview hkind
  · exact eq_false_of_option?_tree (.inl ⟨hprops, hname⟩) hp (fun _ => hapart) hfound
  · have hlocked : view.isLocked = true := Bool.or_eq_true_iff.mpr (.inl hcatalog)
    exact eq_false_of_option?_tree (.inr ⟨hlocked, hname⟩) hp (fun _ => hapart) hfound
  · have hoption (name : String) (hname : name ∈ builtin.names) :
        tree.option? p name = get? (builtin.evaluate node) name :=
      hnode.option? hunique (fun _ => hapart) hname
    rw [hoption _ (by decide)] at hshut
    rw [hoption _ (by decide), hoption _ (by decide)]
    exact get?_canAdd_of_shut hkind hshut

theorem locked_tree_order :
    let view : View := { View.ofMode .edit with inCatalog := true }
    let tree := builtin.tree orderSchema order view
    let code := (partsPath.index 1).key "code"
    UniqueIds orderSchema ∧ RowIdsApart builtin.names orderSchema ∧
      tree.option? code readonly = some (.bool true) ∧
      tree.option? code editable = some (.bool false) := by
  intro view tree code
  obtain ⟨hunique, hapart⟩ := orderSchema_apart
  obtain ⟨hreadonly, -, hclosed, -⟩ := locked_tree orderSchema order view hunique hapart
  obtain ⟨-, node, hnode, hcell⟩ := exists_nodeAt_order view
  refine ⟨hunique, hapart, hreadonly (.inr rfl) code node hnode (by rw [hcell]; decide), ?_⟩
  have hthere : (get? (builtin.evaluate node) editable).isSome = true := by
    refine isSome_get?_evaluate_iff.mpr ?_
    simp [builtin, builtins, flag, fieldLike, hcell, editable]
  rw [← hnode.option? hunique (fun _ => hapart) (by decide)] at hthere
  obtain ⟨v, hv⟩ := Option.isSome_iff_exists.mp hthere
  rw [hv, hclosed rfl editable (by decide) code (by decide) v hv]

end OptionRegistry

end SchemaForm
