import SchemaForm.Options.Builtin
import SchemaForm.Options.Tree
import SchemaForm.Proofs.Diff.Declared
import SchemaForm.Proofs.Options.Evaluation
import SchemaForm.Proofs.Path.Collection
import SchemaForm.Proofs.Path.Cover

set_option autoImplicit false
set_option relaxedAutoImplicit false

/-!
The nodes of the options tree. The fields of a level, the rows of its collections and the cells of
these rows are the nodes of a document, each with the options of its parent. The tree has an object
at the path of every node, which holds the options of the node and leads to the nodes below it, and
it has nothing else.
-/

namespace SchemaForm

open Dictionary
open Diff (Declared UniqueIds IsData)

/-! ### Names and positions -/

private theorem repr_injective : Function.Injective Nat.repr := fun _ _ hsame =>
  Segment.index_chars_inj (String.ofList_injective hsame)

private theorem ne_repr_of_not_digit {name : String}
    (h : name.toList.any (fun c => !c.isDigit) = true) (n : Nat) : name ≠ Nat.repr n := by
  rintro rfl
  obtain ⟨c, hc, hdigit⟩ := List.any_eq_true.mp h
  have hchars : c ∈ Nat.toDigits 10 n := by simpa [Nat.repr] using hc
  have hisDigit : c.isDigit = true := Nat.isDigit_of_mem_toDigits (by omega) (by omega) hchars
  simp [hisDigit] at hdigit

private theorem get?_numbered {α β : Type} (f : α → β) (items : List α) (n : Nat) :
    get? (items.zipIdx.map fun (a, k) => (Nat.repr k, f a)).reverse (Nat.repr n) =
      items[n]?.map f := by
  have hkeys (start : Nat) (l : List α) :
      keys ((l.zipIdx start).map fun (a, k) => (Nat.repr k, f a)) =
        (List.range' start l.length).map Nat.repr := by
    rw [keys, List.map_map, ← List.zipIdx_map_snd, List.map_map]
    rfl
  have hforward (start : Nat) (l : List α) (m : Nat) :
      get? ((l.zipIdx start).map fun (a, k) => (Nat.repr k, f a)) (Nat.repr (start + m)) =
        l[m]?.map f := by
    induction l generalizing start m with
    | nil => rfl
    | cons a l ih =>
      rw [List.zipIdx_cons, List.map_cons, get?_cons]
      cases m with
      | zero => simp
      | succ m =>
        have hother : Nat.repr start ≠ Nat.repr (start + (m + 1)) := fun hsame => by
          have := repr_injective hsame
          omega
        rw [if_neg hother, List.getElem?_cons_succ, ← ih (start + 1) m]
        congr 2
        omega
  have hnodup : (keys (items.zipIdx.map fun (a, k) => (Nat.repr k, f a))).Nodup := by
    rw [hkeys]
    exact (List.nodup_range' 1).map repr_injective
  rw [← get?_ofPairs, get?_ofPairs_of_nodup hnodup, ← hforward 0 items n, Nat.zero_add]

/-! ### What a node holds -/

/-- The kind of the node of a field, which is the given one unless the field is a collection. -/
def NodeKind.ofField (leaf : NodeKind) : Field → NodeKind
  | .collection _ _ _ _ => .collection
  | _ => leaf

theorem NodeKind.ofField_cases (leaf : NodeKind) (f : Field) :
    ofField leaf f = leaf ∨
      (ofField leaf f = .collection ∧ ∃ child, f.rowSchema? = some child) := by
  cases f with
  | collection t fields schema rows => exact .inr ⟨rfl, ⟨fields, schema⟩, rfl⟩
  | _ => exact .inl rfl

/-- The node of a field, with the schema that declares it. -/
def Diff.Declared.node (leaf : NodeKind) (view : View) (data : Json)
    (parent : Option (Dictionary Json)) (d : Declared) : OptionNode where
  kind := .ofField leaf d.field
  schema := d.schema
  field := d.field
  value := data
  view := view
  parent := parent

def OptionNode.rows (node : OptionNode) : List Json :=
  match node.field.id? with
  | some id => node.value.rows id
  | none => []

/-- The node of a row below the node of a collection, with the schema of the rows. -/
def OptionNode.row (node : OptionNode) (r : OptionRegistry) (child : Schema) (row : Json) :
    OptionNode where
  kind := .row
  schema := child
  field := node.field
  value := row
  view := node.view
  parent := some (r.evaluate node)

namespace OptionRegistry

def rowMembers (r : OptionRegistry) (child : Schema) (node : OptionNode) : Dictionary Json :=
  .overlay (r.evaluate node) (.ofPairs (r.levelNodes node.view .cell child node.value
    (some (r.evaluate node)) child.fields))

/-- The members of a node: its options, and what is below it. -/
def members (r : OptionRegistry) (node : OptionNode) : Dictionary Json :=
  match node.field.rowSchema? with
  | none => r.evaluate node
  | some child =>
    match node.kind with
    | .collection =>
      .overlay (r.evaluate node) (node.rows.zipIdx.map fun (row, n) =>
        (Nat.repr n, .object (r.rowMembers child (node.row r child row))))
    | .row => r.rowMembers child node
    | .field | .cell => r.evaluate node

section Level

variable {r : OptionRegistry} {view : View} {leaf : NodeKind} {data : Json}
  {parent : Option (Dictionary Json)}

/-- What a declared field contributes to the nodes of its level. -/
private def declaredNodes (r : OptionRegistry) (view : View) (leaf : NodeKind) (data : Json)
    (parent : Option (Dictionary Json)) (d : Declared) : List (String × Json) :=
  r.fieldNodes view leaf d.schema data parent d.field

mutual

private theorem fieldNodes_eq_declaredOf {schema : Schema} {around : List FieldTraits} :
    (f : Field) → r.fieldNodes view leaf schema data parent f =
      (Diff.declaredOf schema around f).flatMap (declaredNodes r view leaf data parent)
  | .nested t _ fields child => by
    rw [fieldNodes, Diff.declaredOf]
    exact levelNodes_eq_declared fields
  | .input t kind => by
    rw [Diff.declaredOf, List.flatMap_singleton]
    rfl
  | .group t inline => by
    rw [Diff.declaredOf, List.flatMap_singleton]
    rfl
  | .collection t fields child rows => by
    rw [Diff.declaredOf, List.flatMap_singleton]
    rfl

private theorem levelNodes_eq_declared {schema : Schema} {around : List FieldTraits} :
    (fields : List Field) → r.levelNodes view leaf schema data parent fields =
      (Diff.declared schema around fields).flatMap (declaredNodes r view leaf data parent)
  | [] => rfl
  | f :: rest => by
    rw [levelNodes, Diff.declared, List.flatMap_append, fieldNodes_eq_declaredOf f,
      levelNodes_eq_declared rest]

end

private theorem declaredNodes_unnamed {d : Declared} (hd : IsData d.field)
    (hid : d.field.id? = none) : declaredNodes r view leaf data parent d = [] := by
  obtain ⟨f, schema, around⟩ := d
  cases f with
  | nested t style fields child => exact absurd rfl (hd t style fields child)
  | input t kind =>
    have hid' : t.id = none := hid
    simp only [declaredNodes, fieldNodes, hid']
  | group t inline =>
    have hid' : t.id = none := hid
    simp only [declaredNodes, fieldNodes, hid']
  | collection t fields child rows =>
    have hid' : t.id = none := hid
    simp only [declaredNodes, fieldNodes, hid']

private theorem declaredNodes_named {d : Declared} (hd : IsData d.field) {id : String}
    (hid : d.field.id? = some id) : declaredNodes r view leaf data parent d =
      [(id, .object (r.members (d.node leaf view data parent)))] := by
  obtain ⟨f, schema, around⟩ := d
  cases f with
  | nested t style fields child => exact absurd rfl (hd t style fields child)
  | collection t fields child rows =>
    have hid' : t.id = some id := hid
    simp only [declaredNodes, fieldNodes, hid']
    simp only [members, Declared.node, NodeKind.ofField, Field.rowSchema?, OptionNode.rows, hid]
    rfl
  | input t kind =>
    have hid' : t.id = some id := hid
    simp only [declaredNodes, fieldNodes, hid']
    rfl
  | group t inline =>
    have hid' : t.id = some id := hid
    simp only [declaredNodes, fieldNodes, hid']
    rfl

private theorem get?_level_of_declared {s : Schema}
    (hunique : (s.declared.filterMap fun d => d.field.id?).Nodup) {d : Declared}
    (hd : d ∈ s.declared) {id : String} (hid : d.field.id? = some id) :
    get? (.ofPairs (r.levelNodes view leaf s data parent s.fields)) id =
      some (.object (r.members (d.node leaf view data parent))) := by
  have hlevel : r.levelNodes view leaf s data parent s.fields =
      s.declared.flatMap (declaredNodes r view leaf data parent) := levelNodes_eq_declared s.fields
  have hnode : declaredNodes r view leaf data parent d =
      [(id, .object (r.members (d.node leaf view data parent)))] :=
    declaredNodes_named (Diff.isData_of_mem_declared hd) hid
  rw [hlevel, get?_ofPairs_flatMap (fun e : Declared => e.field.id?) _ hunique ?_ hd hid, hnode,
    get?_cons, if_pos rfl]
  intro e he
  have hdata := Diff.isData_of_mem_declared he
  cases hname : e.field.id? with
  | none => exact .inl (declaredNodes_unnamed hdata hname)
  | some name => exact .inr ⟨name, _, rfl, declaredNodes_named hdata hname⟩

theorem exists_declared_of_get?_level {s : Schema} {name : String} {v : Json}
    (hfound : get? (.ofPairs (r.levelNodes view leaf s data parent s.fields))
      name = some v) :
    ∃ d ∈ s.declared, d.field.id? = some name ∧
      v = .object (r.members (d.node leaf view data parent)) := by
  have hlevel : r.levelNodes view leaf s data parent s.fields =
      s.declared.flatMap (declaredNodes r view leaf data parent) := levelNodes_eq_declared s.fields
  rcases mem_overlay (mem_of_get? hfound) with hnone | hpair
  · cases hnone
  · rw [hlevel] at hpair
    obtain ⟨d, hd, hpair⟩ := List.mem_flatMap.mp hpair
    have hdata := Diff.isData_of_mem_declared hd
    cases hid : d.field.id? with
    | none =>
      rw [declaredNodes_unnamed hdata hid] at hpair
      cases hpair
    | some id =>
      rw [declaredNodes_named hdata hid, List.mem_singleton, Prod.mk.injEq] at hpair
      obtain ⟨rfl, rfl⟩ := hpair
      exact ⟨d, hd, hid, rfl⟩

end Level

/-! ### The nodes of a document -/

/-- The nodes of a document with their paths. -/
inductive NodeAt (r : OptionRegistry) (s : Schema) (doc : Json) (view : View) :
    Path → OptionNode → Prop where
  /-- A field with an id on the level of the document. -/
  | field {d : Declared} {id : String} (hdeclared : d ∈ s.declared)
      (hnamed : d.field.id? = some id) :
      NodeAt r s doc view (Path.root.key id) (d.node .field view doc none)
  /-- A row of a collection. -/
  | row {p : Path} {node : OptionNode} {child : Schema} {n : Nat} {row : Json}
      (habove : NodeAt r s doc view p node) (hkind : node.kind = .collection)
      (hschema : node.field.rowSchema? = some child) (hthere : node.rows[n]? = some row) :
      NodeAt r s doc view (p.index n) (node.row r child row)
  /-- A field with an id on the level of a row. -/
  | cell {p : Path} {node : OptionNode} {child : Schema} {d : Declared} {id : String}
      (habove : NodeAt r s doc view p node) (hkind : node.kind = .row)
      (hschema : node.field.rowSchema? = some child) (hdeclared : d ∈ child.declared)
      (hnamed : d.field.id? = some id) :
      NodeAt r s doc view (p.key id) (d.node .cell node.view node.value (some (r.evaluate node)))

/-- No field of a row has the name of an option. -/
inductive RowIdsApart (names : List String) : Schema → Prop where
  | intro {s : Schema}
      (hcells : ∀ d ∈ s.declared, ∀ child, d.field.rowSchema? = some child →
        ∀ e ∈ child.declared, ∀ id, e.field.id? = some id → id ∉ names)
      (hbelow : ∀ d ∈ s.declared, ∀ child, d.field.rowSchema? = some child →
        RowIdsApart names child) :
      RowIdsApart names s

section Nodes

variable {r : OptionRegistry} {s : Schema} {doc : Json} {view : View} {p : Path} {node : OptionNode}

theorem NodeAt.view_eq (hnode : NodeAt r s doc view p node) : node.view = view := by
  induction hnode with
  | field _ _ => rfl
  | row _ _ _ _ ih => exact ih
  | cell _ _ _ _ _ ih => exact ih

private theorem NodeAt.exists_declared {P : Schema → Prop} (hnode : NodeAt r s doc view p node)
    (hs : P s)
    (hbelow : ∀ t d child, P t → d ∈ t.declared → d.field.rowSchema? = some child → P child) :
    ∃ t d, P t ∧ d ∈ t.declared ∧ d.field = node.field := by
  induction hnode with
  | @field d id hdeclared hnamed => exact ⟨s, d, hs, hdeclared, rfl⟩
  | row habove hkind hschema hthere ih => exact ih
  | @cell p node child d id habove hkind hschema hdeclared hnamed ih =>
    obtain ⟨t, e, ht, he, hfield⟩ := ih
    exact ⟨child, d, hbelow t e child ht he (by rw [hfield, hschema]), hdeclared, rfl⟩

private theorem NodeAt.uniqueIds (hnode : NodeAt r s doc view p node) (hs : UniqueIds s)
    {child : Schema} (hchild : node.field.rowSchema? = some child) : UniqueIds child := by
  obtain ⟨t, d, ht, hd, hfield⟩ := hnode.exists_declared hs fun t d child ht hd => ht.child hd
  exact ht.child hd (by rw [hfield, hchild])

private theorem NodeAt.cells_apart {names : List String} (hnode : NodeAt r s doc view p node)
    (hs : RowIdsApart names s) {child : Schema} (hchild : node.field.rowSchema? = some child)
    {e : Declared} (he : e ∈ child.declared) {id : String} (hid : e.field.id? = some id) :
    id ∉ names := by
  obtain ⟨t, d, ⟨hcells, -⟩, hd, hfield⟩ := hnode.exists_declared hs
    fun t d child ⟨_, hbelow⟩ hd hchild => hbelow d hd child hchild
  exact hcells d hd child (by rw [hfield, hchild]) e he id hid

/-! ### The members of a node -/

private theorem get?_rowMembers (r : OptionRegistry) (child : Schema) (node : OptionNode)
    (name : String) :
    get? (r.rowMembers child node) name =
      (get? (.ofPairs (r.levelNodes node.view .cell child node.value
        (some (r.evaluate node)) child.fields)) name).or (get? (r.evaluate node) name) :=
  get?_overlay_ofPairs _ _ _

theorem get?_evaluate_repr (hnumerals : ∀ name ∈ r.names, ∀ n, name ≠ Nat.repr n) (n : Nat) :
    get? (r.evaluate node) (Nat.repr n) = none := by
  rw [get?_eq_none_iff]
  intro hkey
  obtain ⟨v, hv⟩ := Option.isSome_iff_exists.mp (has_iff_mem_keys.mpr hkey)
  exact hnumerals _ (mem_names_of_get?_evaluate hv) n rfl

private theorem members_row (node : OptionNode) (child : Schema) (row : Json)
    (hchild : node.field.rowSchema? = some child) :
    r.members (node.row r child row) = r.rowMembers child (node.row r child row) := by
  have hchild' : (node.row r child row).field.rowSchema? = some child := hchild
  simp only [members, hchild']
  rfl

private theorem get?_members_collection {child : Schema} (hkind : node.kind = .collection)
    (hchild : node.field.rowSchema? = some child) (name : String) :
    get? (r.members node) name =
      (get? (node.rows.zipIdx.map fun (row, n) =>
        (Nat.repr n, Json.object (r.members (node.row r child row)))).reverse name).or
        (get? (r.evaluate node) name) := by
  have hmembers : r.members node =
      .overlay (r.evaluate node) (node.rows.zipIdx.map fun (row, n) =>
        (Nat.repr n, Json.object (r.members (node.row r child row)))) := by
    simp only [members_row node child _ hchild]
    simp only [members, hchild, hkind]
  rw [hmembers, get?_overlay]

theorem NodeAt.get?_members (hnode : NodeAt r s doc view p node) (name : String) :
    (∃ step below, step.text = name ∧ NodeAt r s doc view (p.child step) below ∧
      get? (r.members node) name = some (.object (r.members below)) ∧
      (step.isIndex = false → node.kind = .row ∧ ∃ child, node.field.rowSchema? = some child ∧
        ∃ d ∈ child.declared, d.field.id? = some name)) ∨
    get? (r.members node) name = get? (r.evaluate node) name := by
  cases hchild : node.field.rowSchema? with
  | none => exact .inr (by simp only [members, hchild])
  | some child =>
    cases hkind : node.kind with
    | field => exact .inr (by simp only [members, hchild, hkind])
    | cell => exact .inr (by simp only [members, hchild, hkind])
    | collection =>
      rw [get?_members_collection hkind hchild]
      cases hrow : get? (node.rows.zipIdx.map fun (line, n) =>
          (Nat.repr n, Json.object (r.members (node.row r child line)))).reverse name with
      | none => exact .inr (Option.none_or)
      | some v =>
        obtain ⟨entry, hentry, hpair⟩ := List.mem_map.mp (List.mem_reverse.mp (mem_of_get? hrow))
        rw [List.mem_zipIdx_iff_getElem?] at hentry
        cases hpair
        exact .inl ⟨.index entry.2, _, rfl, hnode.row hkind hchild hentry, rfl,
          by simp [Segment.isIndex]⟩
    | row =>
      have hmembers : r.members node = r.rowMembers child node := by
        simp only [members, hkind, hchild]
      rw [hmembers, get?_rowMembers]
      cases hcell : get? (.ofPairs (r.levelNodes node.view .cell child node.value
          (some (r.evaluate node)) child.fields)) name with
      | none => exact .inr (Option.none_or)
      | some v =>
        obtain ⟨d, hd, hid, rfl⟩ := exists_declared_of_get?_level hcell
        exact .inl ⟨.key name, _, String.ofList_toList, hnode.cell hkind hchild hd hid, rfl,
          fun _ => ⟨rfl, child, rfl, d, hd, hid⟩⟩

theorem NodeAt.get?_members_option (hnode : NodeAt r s doc view p node)
    (hnumerals : ∀ name ∈ r.names, ∀ n, name ≠ Nat.repr n)
    (hapart : node.kind = .row → RowIdsApart r.names s) {name : String} (hname : name ∈ r.names) :
    get? (r.members node) name = get? (r.evaluate node) name := by
  rcases hnode.get?_members name with ⟨step, below, htext, -, -, hcell⟩ | hoption
  · exfalso
    cases step with
    | index n => exact hnumerals name hname n htext.symm
    | key id =>
      obtain ⟨hkind, child, hchild, d, hd, hid⟩ := hcell rfl
      exact hnode.cells_apart (hapart hkind) hchild hd hid hname
  · exact hoption

/-! ### The paths of the tree -/

/-- Where no two fields of a level have one id, the tree has every node at its path. -/
theorem NodeAt.valueAt? (hnode : NodeAt r s doc view p node) (hunique : UniqueIds s) :
    (r.tree s doc view).valueAt? p = some (.object (r.members node)) := by
  induction hnode with
  | @field d id hdeclared hnamed =>
    have hroot : (r.tree s doc view).valueAt? .root = some (r.tree s doc view) := rfl
    rw [Path.key, Json.valueAt?_child, hroot, Option.bind_some, tree, Json.ofPairs,
      Json.child?_object, Segment.text_key]
    exact get?_level_of_declared hunique.level hdeclared hnamed
  | @row p node child n row habove hkind hschema hthere ih =>
    have hrow : (Segment.index n).text = Nat.repr n := rfl
    have hnode := get?_numbered (fun row => Json.object (r.members (node.row r child row)))
      node.rows n
    rw [Path.index, Json.valueAt?_child, ih, Option.bind_some, Json.child?_object, hrow,
      get?_members_collection hkind hschema, hnode, hthere]
    rfl
  | @cell p node child d id habove hkind hschema hdeclared hnamed ih =>
    have hmembers : r.members node = r.rowMembers child node := by
      simp only [members, hkind, hschema]
    rw [Path.key, Json.valueAt?_child, ih, Option.bind_some, Json.child?_object, Segment.text_key,
      hmembers, get?_rowMembers,
      get?_level_of_declared (habove.uniqueIds hunique hschema).level hdeclared hnamed]
    rfl

/-- Positions and ids take turns: the path of a row has an even number of steps, and every other
path an odd one. -/
theorem NodeAt.even_length_iff (hnode : NodeAt r s doc view p node) :
    p.segments.length % 2 = 0 ↔ node.kind = .row := by
  have hfield (leaf : NodeKind) (hleaf : leaf ≠ .row) (f : Field) :
      NodeKind.ofField leaf f ≠ .row := by
    rcases NodeKind.ofField_cases leaf f with hsame | ⟨hcollection, -⟩
    · rw [hsame]
      exact hleaf
    · rw [hcollection]
      exact NodeKind.noConfusion
  induction hnode with
  | @field d id hdeclared hnamed =>
    have hone : (Path.root.key id).segments.length = 1 := rfl
    rw [hone]
    exact iff_of_false Nat.one_ne_zero (hfield .field (by decide) d.field)
  | @row p node child n row habove hkind hschema hthere ih =>
    rw [hkind] at ih
    have hodd : p.segments.length % 2 ≠ 0 := fun heven => NodeKind.noConfusion (ih.mp heven)
    refine iff_of_true ?_ rfl
    rw [Path.index, Path.length_child]
    omega
  | @cell p node child d id habove hkind hschema hdeclared hnamed ih =>
    have heven := ih.mpr hkind
    refine iff_of_false ?_ (hfield .cell (by decide) d.field)
    rw [Path.key, Path.length_child]
    omega

/-- If the options are truth values, the tree has nothing but nodes and options. -/
theorem exists_nodeAt_of_valueAt?_tree
    (hflags : ∀ node name v, get? (r.evaluate node) name = some v → ∃ b, v = .bool b)
    {v : Json} (hfound : (r.tree s doc view).valueAt? p = some v) (hp : p ≠ .root) :
    (∃ q node, q.segments.length = p.segments.length ∧ NodeAt r s doc view q node ∧
      v = .object (r.members node)) ∨ ∃ b, v = .bool b := by
  obtain ⟨steps⟩ := p
  -- The induction is on the last step, from the root, from a node or from an option, which leads
  -- nowhere.
  induction steps using List.reverseRecOn generalizing v with
  | nil => exact absurd rfl hp
  | append_singleton steps step ih =>
    have hsteps : (r.tree s doc view).valueAt? (Path.child ⟨steps⟩ step) = some v := hfound
    rw [Json.valueAt?_child] at hsteps
    obtain ⟨above, hleads, hsteps⟩ := Option.bind_eq_some_iff.mp hsteps
    by_cases hroot : steps = []
    · subst hroot
      cases hleads
      rw [tree, Json.ofPairs, Json.child?_object] at hsteps
      obtain ⟨d, hd, hid, rfl⟩ := exists_declared_of_get?_level hsteps
      exact .inl ⟨Path.root.key step.text, _, rfl, .field hd hid, rfl⟩
    · rcases ih hleads (by simpa [Path.root] using hroot) with ⟨q, node, hlength, hnode, rfl⟩ |
        ⟨b, rfl⟩
      · rw [Json.child?_object] at hsteps
        rcases hnode.get?_members step.text with ⟨turn, below, -, hbelow, hmember, -⟩ | hoption
        · rw [hsteps] at hmember
          cases hmember
          refine .inl ⟨_, _, ?_, hbelow, rfl⟩
          rw [Path.length_child, hlength]
          exact (Path.length_child ⟨steps⟩ step).symm
        · exact .inr (hflags node _ v (hoption ▸ hsteps))
      · cases hsteps

private theorem NodeAt.rowSchema_of_collection (hnode : NodeAt r s doc view p node)
    (hkind : node.kind = .collection) : ∃ child, node.field.rowSchema? = some child := by
  have hfield (leaf : NodeKind) (hleaf : leaf ≠ .collection) (f : Field)
      (hkind : NodeKind.ofField leaf f = .collection) : ∃ child, f.rowSchema? = some child := by
    rcases NodeKind.ofField_cases leaf f with hsame | ⟨-, hchild⟩
    · exact absurd (hsame.symm.trans hkind) hleaf
    · exact hchild
  cases hnode with
  | field _ _ => exact hfield .field (by simp) _ hkind
  | row _ _ _ _ => cases hkind
  | cell _ _ _ _ _ => exact hfield .cell (by simp) _ hkind

end Nodes

/-- If no two fields of a level have one id, and no option has the name of a position or of a field
of a row, the options tree has for each id of the top level an object and nothing else, and at the
path of each node an object. This has the options of the node as they are evaluated there, and
beside them it has just the nodes below; of a collection these are as many as it has rows. -/
theorem tree_mirrors_document (r : OptionRegistry) (s : Schema) (doc : Json) (view : View)
    (hunique : UniqueIds s) (hnumerals : ∀ name ∈ r.names, ∀ n, name ≠ Nat.repr n)
    (hapart : RowIdsApart r.names s) :
    let tree := r.tree s doc view
    (∃ top, tree = .object top ∧ ∀ name,
      (get? top name).isSome = true ↔ ∃ node, NodeAt r s doc view (Path.root.key name) node) ∧
    ∀ p node, NodeAt r s doc view p node →
      ∃ members, tree.valueAt? p = some (.object members) ∧
        (∀ name ∈ keys (r.evaluate node), get? members name = get? (r.evaluate node) name) ∧
        (∀ name ∉ keys (r.evaluate node), (get? members name).isSome = true ↔
          ∃ step below, step.text = name ∧ NodeAt r s doc view (p.child step) below) ∧
        (node.kind = .collection → ∀ n,
          (tree.valueAt? (p.index n)).isSome = true ↔ n < node.rows.length) := by
  intro tree
  refine ⟨⟨_, rfl, fun name => ⟨fun hfound => ?_, ?_⟩⟩, fun p node hnode => ?_⟩
  · obtain ⟨v, hfound⟩ := Option.isSome_iff_exists.mp hfound
    obtain ⟨d, hd, hid, -⟩ := exists_declared_of_get?_level hfound
    exact ⟨_, .field hd hid⟩
  · rintro ⟨node, hnode⟩
    have hroot : (r.tree s doc view).valueAt? .root = some (r.tree s doc view) := rfl
    have hid : (Segment.key name).text = name := String.ofList_toList
    have hvalue := hnode.valueAt? hunique
    rw [Path.key, Json.valueAt?_child, hroot, Option.bind_some, OptionRegistry.tree, Json.ofPairs,
      Json.child?_object, hid] at hvalue
    rw [hvalue]
    rfl
  · have hvalue : tree.valueAt? p = some (.object (r.members node)) := hnode.valueAt? hunique
    refine ⟨r.members node, hvalue, fun name hname => ?_, fun name hname => ⟨fun hfound => ?_, ?_⟩,
      fun hkind n => ?_⟩
    · obtain ⟨v, hv⟩ := Option.isSome_iff_exists.mp (has_iff_mem_keys.mpr hname)
      exact hnode.get?_members_option hnumerals (fun _ => hapart) (mem_names_of_get?_evaluate hv)
    · rcases hnode.get?_members name with ⟨step, below, htext, hbelow, -, -⟩ | hoption
      · exact ⟨step, below, htext, hbelow⟩
      · rw [hoption, get?_eq_none_iff.mpr hname] at hfound
        cases hfound
    · rintro ⟨step, below, rfl, hbelow⟩
      have hstep := hbelow.valueAt? hunique
      rw [Json.valueAt?_child, hvalue, Option.bind_some, Json.child?_object] at hstep
      rw [hstep]
      rfl
    · obtain ⟨child, hchild⟩ := hnode.rowSchema_of_collection hkind
      have hrow : (Segment.index n).text = Nat.repr n := rfl
      rw [Path.index, Json.valueAt?_child, hvalue, Option.bind_some, Json.child?_object, hrow,
        get?_members_collection hkind hchild,
        get?_numbered (fun row => Json.object (r.members (node.row r child row))),
        get?_evaluate_repr hnumerals, Option.or_none, Option.isSome_map]
      simp

theorem builtin_names_ne_repr : ∀ name ∈ builtin.names, ∀ n, name ≠ Nat.repr n := by
  have hdigits : ∀ name ∈ builtin.names, name.toList.any (fun c => !c.isDigit) = true := by decide
  exact fun name hname => ne_repr_of_not_digit (hdigits name hname)

private def inputField (id : String) : Field :=
  .input { FieldTraits.plain with id := some id } .text

private def rowsField (id : String) (fields : List Field) : Field :=
  .collection { FieldTraits.plain with id := some id } fields .plain ⟨[], none, none⟩

private def partSchema : Schema := ⟨[inputField "code"], .plain⟩

private def lineSchema : Schema :=
  ⟨[inputField "quantity", rowsField "parts" partSchema.fields], .plain⟩

/-- An order has its lines in a fieldset, and every line has parts. -/
def orderSchema : Schema :=
  ⟨[.nested .plain .fieldset [rowsField "lines" lineSchema.fields] .plain], .plain⟩

theorem orderSchema_apart :
    UniqueIds orderSchema ∧ RowIdsApart builtin.names orderSchema := by
  have hpart : UniqueIds partSchema ∧ RowIdsApart builtin.names partSchema := by
    have hrows : ∀ d ∈ partSchema.declared, d.field.rowSchema? = none := by
      intro d hd
      rw [List.mem_singleton.mp hd]
      rfl
    refine ⟨⟨by decide, fun d hd child hchild => ?_⟩, ⟨fun d hd child hchild => ?_,
      fun d hd child hchild => ?_⟩⟩ <;> cases (hrows d hd).symm.trans hchild
  have hline : UniqueIds lineSchema ∧ RowIdsApart builtin.names lineSchema := by
    have hrows : ∀ d ∈ lineSchema.declared, ∀ child, d.field.rowSchema? = some child →
        child = partSchema := by
      intro d hd child hchild
      rcases List.mem_cons.mp hd with rfl | hd
      · cases hchild
      · rw [List.mem_singleton.mp hd] at hchild
        exact (Option.some.inj hchild).symm
    refine ⟨⟨by decide, fun d hd child hchild => ?_⟩, ⟨fun d hd child hchild e he id hid => ?_,
      fun d hd child hchild => ?_⟩⟩
    · exact hrows d hd child hchild ▸ hpart.1
    · obtain rfl := hrows d hd child hchild
      rw [List.mem_singleton.mp he] at hid
      cases hid
      decide
    · exact hrows d hd child hchild ▸ hpart.2
  have hrows : ∀ d ∈ orderSchema.declared, ∀ child, d.field.rowSchema? = some child →
      child = lineSchema := by
    intro d hd child hchild
    rw [List.mem_singleton.mp hd] at hchild
    exact (Option.some.inj hchild).symm
  refine ⟨⟨by decide, fun d hd child hchild => ?_⟩, ⟨fun d hd child hchild e he id hid => ?_,
    fun d hd child hchild => ?_⟩⟩
  · exact hrows d hd child hchild ▸ hline.1
  · obtain rfl := hrows d hd child hchild
    rcases List.mem_cons.mp he with rfl | he
    · cases hid
      decide
    · rw [List.mem_singleton.mp he] at hid
      cases hid
      decide
  · exact hrows d hd child hchild ▸ hline.2

def order : Json :=
  .ofPairs [("lines", .array [.ofPairs [("quantity", .ofNat 2),
    ("parts", .array [.ofPairs [("code", .text "a")], .ofPairs [("code", .text "b")]])]])]

def partsPath : Path := ((Path.root.key "lines").index 0).key "parts"

theorem exists_nodeAt_order (view : View) :
    (∃ node, NodeAt builtin orderSchema order view partsPath node ∧ node.kind = .collection ∧
      node.rows.length = 2) ∧
    ∃ node, NodeAt builtin orderSchema order view ((partsPath.index 1).key "code") node ∧
      node.kind = .cell := by
  have hlines : NodeAt builtin orderSchema order view (Path.root.key "lines") _ :=
    .field (.head _) rfl
  have hline := hlines.row (n := 0) rfl rfl rfl
  have hparts : NodeAt builtin orderSchema order view partsPath _ :=
    hline.cell rfl rfl (.tail _ (.head _)) rfl
  have hpart := hparts.row (n := 1) rfl rfl rfl
  have hcode : NodeAt builtin orderSchema order view ((partsPath.index 1).key "code") _ :=
    hpart.cell rfl rfl (.head _) rfl
  exact ⟨⟨_, hparts, rfl, rfl⟩, ⟨_, hcode, rfl⟩⟩

/-- In the second part of a line there is the node of its code, and there is no third part. -/
theorem tree_mirrors_document_order :
    UniqueIds orderSchema ∧ (∀ name ∈ builtin.names, ∀ n, name ≠ Nat.repr n) ∧
      RowIdsApart builtin.names orderSchema ∧
      (∃ node members,
        NodeAt builtin orderSchema order (.ofMode .edit) ((partsPath.index 1).key "code") node ∧
        node.kind = .cell ∧ OptionName.editable ∈ keys (builtin.evaluate node) ∧
        (builtin.tree orderSchema order (.ofMode .edit)).valueAt? ((partsPath.index 1).key "code") =
          some (.object members) ∧
        get? members OptionName.editable = get? (builtin.evaluate node) OptionName.editable) ∧
      (builtin.tree orderSchema order (.ofMode .edit)).valueAt? (partsPath.index 2) = none := by
  obtain ⟨hunique, hapart⟩ := orderSchema_apart
  obtain ⟨⟨parts, hparts, hcollection, htwo⟩, code, hcode, hcell⟩ :=
    exists_nodeAt_order (.ofMode .edit)
  obtain ⟨-, hnodes⟩ := tree_mirrors_document builtin orderSchema order (.ofMode .edit) hunique
    builtin_names_ne_repr hapart
  obtain ⟨members, hvalue, hoptions, -, -⟩ := hnodes _ code hcode
  obtain ⟨-, -, -, -, hrows⟩ := hnodes _ parts hparts
  have heditable : OptionName.editable ∈ keys (builtin.evaluate code) := by
    refine has_iff_mem_keys.mp (isSome_get?_evaluate_iff.mpr ?_)
    simp [builtin, OptionRule.builtins, OptionRule.flag, OptionRule.fieldLike, hcell,
      OptionName.editable]
  refine ⟨hunique, builtin_names_ne_repr, hapart,
    ⟨code, members, hcode, hcell, heditable, hvalue, hoptions _ heditable⟩, ?_⟩
  have hthird := (hrows hcollection 2).not.mpr (by rw [htwo]; decide)
  exact Option.not_isSome_iff_eq_none.mp hthird

/-- An evaluator is handed the schema of its node: a line has two fields, and a part has one. -/
example :
    let counting : OptionRegistry :=
      ⟨[⟨"fields", some fun ctx => .ofNat ctx.schema.fields.length, .null, [.row]⟩]⟩
    let tree := counting.tree orderSchema order (.ofMode .edit)
    tree.valueAt? (((Path.root.key "lines").index 0).key "fields") = some (.ofNat 2) ∧
      tree.valueAt? ((partsPath.index 1).key "fields") = some (.ofNat 1) := by
  decide

end OptionRegistry

end SchemaForm
