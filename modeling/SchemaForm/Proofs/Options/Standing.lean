import SchemaForm.Proofs.Grid.Finding
import SchemaForm.Proofs.Options.Locked
import SchemaForm.Proofs.Path.Writing

set_option autoImplicit false
set_option relaxedAutoImplicit false

/-!
Where the nodes of the options tree stand in the document. The path of a node names a place: a key
is a member there and an index an item, while reading a path in a document takes more. The
collection that a path finds has a node just when the document has an array at that place.
-/

namespace SchemaForm

open Dictionary
open Diff (Declared UniqueIds)

/-- Keys and indices take turns, beginning with a key. -/
def Path.TakesTurns (p : Path) : Prop :=
  ∀ n s, p.segments[n]? = some s → (s.isIndex = true ↔ n % 2 = 1)

private theorem Path.TakesTurns.of_child {p : Path} {s : Segment} (h : (p.child s).TakesTurns) :
    p.TakesTurns ∧ (s.isIndex = true ↔ p.segments.length % 2 = 1) := by
  constructor
  · intro n t ht
    refine h n t ?_
    obtain ⟨hn, -⟩ := List.getElem?_eq_some_iff.mp ht
    rw [Path.child, List.getElem?_append_left hn, ht]
  · exact h p.segments.length s (by simp [Path.child])

theorem CollectionField.takesTurns_of_find? {fields : List Field} {l : List Segment}
    {c : CollectionField} (hfind : find? fields l = some c) : Path.TakesTurns ⟨l⟩ := by
  induction fields, l using find?.induct with
  | case1 fields id =>
    intro n s hs
    cases n with
    | zero =>
      cases hs
      simp [Segment.isIndex]
    | succ n => cases hs
  | case2 fields id m rest ih =>
    obtain ⟨above, -, hrest⟩ := Option.bind_eq_some_iff.mp hfind
    intro n s hs
    rcases n with _ | _ | n
    · cases hs
      simp [Segment.isIndex]
    · cases hs
      simp [Segment.isIndex]
    · have hlater := ih above hrest n s (by simpa using hs)
      rw [hlater]
      omega
  | case3 l fields hkey hrow =>
    rw [find?.eq_3 fields l hkey hrow] at hfind
    cases hfind

namespace OptionRegistry

variable {r : OptionRegistry} {s : Schema} {doc : Json} {view : View} {p : Path} {node : OptionNode}

private theorem ofField_ne_row {leaf : NodeKind} (hleaf : leaf ≠ .row) (f : Field) :
    NodeKind.ofField leaf f ≠ .row := by
  rcases NodeKind.ofField_cases leaf f with hsame | ⟨hcollection, -⟩
  · rw [hsame]
    exact hleaf
  · rw [hcollection]
    exact NodeKind.noConfusion

/-! ### From the tree to the document -/

theorem NodeAt.stands (hnode : NodeAt r s doc view p node) :
    (node.kind = .row → doc.at? p.steps = some node.value) ∧
    (node.kind ≠ .row → ∃ (q : Path) (id : String), p = q.key id ∧ node.field.id? = some id ∧
      doc.at? q.steps = some node.value) := by
  induction hnode with
  | @field d id hdeclared hnamed =>
    have hleaf : NodeKind.ofField .field d.field ≠ .row := ofField_ne_row (by decide) d.field
    exact ⟨fun hrow => absurd hrow hleaf, fun _ => ⟨.root, id, rfl, hnamed, rfl⟩⟩
  | @row p node child n row habove hkind hschema hthere ih =>
    refine ⟨fun _ => ?_, fun hother => absurd rfl hother⟩
    obtain ⟨q, id, rfl, hid, hlevel⟩ := ih.2 (by rw [hkind]; exact NodeKind.noConfusion)
    have hrows : node.rows = node.value.rows id := by rw [OptionNode.rows, hid]
    rw [hrows] at hthere
    have harray := Json.get?_of_rows_ne_nil (List.ne_nil_of_mem (List.mem_of_getElem? hthere))
    rw [Path.index, Path.steps_child, Path.key, Path.steps_child, List.append_assoc,
      Json.at?_append_of_some hlevel, List.singleton_append, Json.at?_cons, Segment.step,
      Json.below?_member, harray]
    show (Json.array (node.value.rows id)).at? [.item n] = some row
    rw [Json.at?_cons, Json.below?, hthere]
    rfl
  | @cell p node child d id habove hkind hschema hdeclared hnamed ih =>
    have hleaf : NodeKind.ofField .cell d.field ≠ .row := ofField_ne_row (by decide) d.field
    exact ⟨fun hrow => absurd hrow hleaf, fun _ => ⟨p, id, rfl, hnamed, ih.1 hkind⟩⟩

theorem NodeAt.isIndex_iff {step : Segment} (hnode : NodeAt r s doc view (p.child step) node) :
    step.isIndex = true ↔ node.kind = .row := by
  have hlast {q : Path} {step' : Segment} (hsame : p.child step = q.child step') :
      step = step' := by
    have hsegments : p.segments ++ [step] = q.segments ++ [step'] := congrArg Path.segments hsame
    simpa using (List.append_inj' hsegments rfl).2
  generalize hpath : p.child step = q at hnode
  cases hnode with
  | field hdeclared hnamed =>
    rw [hlast hpath]
    exact iff_of_false (by simp [Segment.isIndex]) (ofField_ne_row (by decide) _)
  | row habove hkind hschema hthere =>
    rw [hlast hpath]
    exact iff_of_true rfl rfl
  | cell habove hkind hschema hdeclared hnamed =>
    rw [hlast hpath]
    exact iff_of_false (by simp [Segment.isIndex]) (ofField_ne_row (by decide) _)

/-- All options are truth values. -/
def TruthValued (r : OptionRegistry) : Prop :=
  ∀ node name v, get? (r.evaluate node) name = some v → ∃ b, v = .bool b

theorem truthValued_builtin : builtin.TruthValued := fun _ _ _ => exists_bool_of_get?_builtin

/-- Where keys and indices take turns, the tree has nothing but nodes at their own paths, and
options. -/
theorem exists_nodeAt_of_takesTurns (hflags : r.TruthValued) (hturns : p.TakesTurns)
    (hp : p ≠ .root) {v : Json} (hfound : (r.tree s doc view).valueAt? p = some v) :
    (∃ node, NodeAt r s doc view p node ∧ v = .object (r.members node)) ∨ ∃ b, v = .bool b := by
  obtain ⟨segments⟩ := p
  induction segments using List.reverseRecOn generalizing v with
  | nil => exact absurd rfl hp
  | append_singleton segments step ih =>
    have hchild : (r.tree s doc view).valueAt? (Path.child ⟨segments⟩ step) = some v := hfound
    obtain ⟨hturns, hindex⟩ := Path.TakesTurns.of_child (p := ⟨segments⟩) hturns
    rw [Json.valueAt?_child] at hchild
    obtain ⟨above, hleads, hchild⟩ := Option.bind_eq_some_iff.mp hchild
    by_cases hroot : segments = []
    · subst hroot
      cases hleads
      rw [tree, Json.ofPairs, Json.child?_object] at hchild
      obtain ⟨d, hd, hid, rfl⟩ := exists_declared_of_get?_level hchild
      have hstep : step = .key step.text := Segment.eq_of_text_eq String.ofList_toList.symm (by
        simpa [Segment.isIndex] using hindex)
      have hpath : (⟨[] ++ [step]⟩ : Path) = Path.root.key step.text :=
        congrArg (Path.child ⟨[]⟩) hstep
      refine .inl ⟨_, ?_, rfl⟩
      rw [hpath]
      exact .field hd hid
    · rcases ih hturns (by simpa [Path.root] using hroot) hleads with ⟨node, hnode, rfl⟩ | ⟨b, rfl⟩
      · rw [Json.child?_object] at hchild
        rcases hnode.get?_members step.text with ⟨turn, below, htext, hbelow, hmember, -⟩ | hoption
        · have hkind : turn.isIndex = step.isIndex := by
            rw [Bool.eq_iff_iff, hbelow.isIndex_iff, ← hbelow.even_length_iff, Path.length_child,
              hindex]
            omega
          rw [Segment.eq_of_text_eq htext hkind] at hbelow
          rw [hchild] at hmember
          exact .inl ⟨below, hbelow, Option.some.inj hmember⟩
        · exact .inr (hflags node _ v (hoption ▸ hchild))
      · cases hchild

theorem exists_level_of_flag (hflags : r.TruthValued) (hturns : p.TakesTurns)
    (hodd : p.segments.length % 2 = 1) {name : String}
    (hflag : ((r.tree s doc view).valueAtOrNull p).flag name = true) :
    ∃ (q : Path) (id : String) (level : Json), p = q.key id ∧ doc.at? q.steps = some level := by
  cases hvalue : (r.tree s doc view).valueAt? p with
  | none =>
    rw [Json.valueAtOrNull, hvalue] at hflag
    cases hflag
  | some v =>
    rw [Json.valueAtOrNull, hvalue, Option.getD_some] at hflag
    rcases exists_nodeAt_of_takesTurns hflags hturns (Path.ne_root_of_odd hodd) hvalue with
      ⟨node, hnode, -⟩ | ⟨b, rfl⟩
    · have hother : node.kind ≠ .row := by
        rw [Ne, ← hnode.even_length_iff]
        omega
      obtain ⟨q, id, hp, -, hlevel⟩ := hnode.stands.2 hother
      exact ⟨q, id, node.value, hp, hlevel⟩
    · cases hflag

/-! ### From the document to the tree -/

/-- The fields that a schema declares have nodes one step below a path, with the data of one
level. -/
def LevelAt (r : OptionRegistry) (s : Schema) (doc : Json) (view : View) (p : Path) (t : Schema)
    (data : Json) : Prop :=
  ∀ d ∈ t.declared, ∀ id, d.field.id? = some id →
    ∃ leaf parent, NodeAt r s doc view (p.key id) (d.node leaf view data parent)

theorem levelAt_root (r : OptionRegistry) (s : Schema) (doc : Json) (view : View) :
    LevelAt r s doc view .root s doc :=
  fun _ hd _ hid => ⟨.field, none, .field hd hid⟩

private theorem NodeAt.levelAt (hnode : NodeAt r s doc view p node) (hkind : node.kind = .row)
    {child : Schema} (hchild : node.field.rowSchema? = some child) :
    LevelAt r s doc view p child node.value := by
  intro d hd id hid
  have hcell := hnode.cell hkind hchild hd hid
  rw [hnode.view_eq] at hcell
  exact ⟨_, _, hcell⟩

private theorem LevelAt.exists_nodeAt_key {t : Schema} {data : Json} {id : String}
    {c : CollectionField} (hlevel : LevelAt r s doc view p t data)
    (hfirst : (CollectionField.fieldAmong? id t.fields).bind CollectionField.ofField? = some c) :
    ∃ node, NodeAt r s doc view (p.key id) node ∧ node.kind = .collection ∧
      node.field = c.field ∧ node.value = data ∧ node.rows = data.rows id := by
  obtain ⟨d, hd, hfield, hid⟩ := CollectionField.exists_declared_of_fieldAmong? hfirst
  obtain ⟨leaf, parent, hnode⟩ := hlevel d hd id hid
  refine ⟨_, hnode, ?_, hfield, rfl, ?_⟩
  · rw [Declared.node, hfield]
    rfl
  · rw [OptionNode.rows, Declared.node, hid]

theorem LevelAt.exists_nodeAt_of_level {fields : List Field} {traits : SchemaTraits}
    {data value : Json} {l : List Segment} {c : CollectionField}
    (hlevel : LevelAt r s doc view p ⟨fields, traits⟩ data)
    (hfind : CollectionField.find? fields l = some c)
    (hat : data.at? (l.dropLast.map Segment.step) = some value) :
    ∃ node, NodeAt r s doc view ⟨p.segments ++ l⟩ node ∧ node.kind = .collection ∧
      node.field = c.field ∧ node.value = value := by
  induction fields, l using CollectionField.find?.induct generalizing traits data p with
  | case1 fields id =>
    obtain ⟨node, hnode, hkind, hfield, hvalue, -⟩ := hlevel.exists_nodeAt_key hfind
    cases hat
    exact ⟨node, hnode, hkind, hfield, hvalue⟩
  | case2 fields id n rest ih =>
    obtain ⟨outer, houter, hfind⟩ := Option.bind_eq_some_iff.mp hfind
    obtain ⟨node, hnode, hkind, hfield, -, hrows⟩ := hlevel.exists_nodeAt_key houter
    have hrest : rest ≠ [] := by
      rintro rfl
      cases hfind
    rw [List.dropLast_cons_of_ne_nil (by simp), List.dropLast_cons_of_ne_nil hrest] at hat
    obtain ⟨held, harray, hat⟩ := Option.bind_eq_some_iff.mp hat
    obtain ⟨row, hrow, hat⟩ := Option.bind_eq_some_iff.mp hat
    rw [Segment.step, Json.below?_member] at harray
    have hthere : node.rows[n]? = some row := by
      rw [hrows, Json.rows, harray]
      cases held with
      | array items => exact hrow
      | _ => cases hrow
    have hchild : node.field.rowSchema? = some ⟨outer.fields, outer.schema⟩ := by
      rw [hfield]
      rfl
    obtain ⟨inner, hinner, hsame⟩ := ih outer
      ((hnode.row hkind hchild hthere).levelAt rfl hchild) hfind hat
    have hpath : ((p.key id).index n).segments ++ rest =
        p.segments ++ .key id :: .index n :: rest := by
      simp [Path.key, Path.index, Path.child]
    exact ⟨inner, hpath ▸ hinner, hsame⟩
  | case3 l fields hkey hrow =>
    rw [CollectionField.find?.eq_3 fields l hkey hrow] at hfind
    cases hfind

theorem LevelAt.exists_nodeAt {fields : List Field} {traits : SchemaTraits} {data : Json}
    {l : List Segment} {c : CollectionField} {rows : List Json}
    (hlevel : LevelAt r s doc view p ⟨fields, traits⟩ data)
    (hfind : CollectionField.find? fields l = some c)
    (hat : data.at? (l.map Segment.step) = some (.array rows)) :
    ∃ node, NodeAt r s doc view ⟨p.segments ++ l⟩ node ∧ node.kind = .collection ∧
      node.field = c.field ∧ node.rows = rows := by
  obtain ⟨id, hlast, hid⟩ := CollectionField.getLast?_of_find? hfind
  have hends : l.dropLast ++ [.key id] = l := List.dropLast_append_getLast? _ hlast
  rw [← hends, List.map_append, Json.at?_append] at hat
  obtain ⟨value, hat, hinside⟩ := Option.bind_eq_some_iff.mp hat
  obtain ⟨held, harray, hsame⟩ := Option.bind_eq_some_iff.mp hinside
  cases hsame
  rw [Segment.step, Json.below?_member] at harray
  obtain ⟨node, hnode, hkind, hfield, hvalue⟩ := hlevel.exists_nodeAt_of_level hfind hat
  have hname : node.field.id? = some id := by
    rw [hfield]
    exact hid
  have hrows : node.rows = node.value.rows id := by rw [OptionNode.rows, hname]
  refine ⟨node, hnode, hkind, hfield, ?_⟩
  rw [hrows, hvalue, Json.rows, harray]
  rfl

end OptionRegistry

end SchemaForm
