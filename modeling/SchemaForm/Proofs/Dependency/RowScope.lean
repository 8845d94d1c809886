import SchemaForm.Proofs.Dependency.Frame
import SchemaForm.Proofs.Form.RowIdentity

set_option autoImplicit false
set_option relaxedAutoImplicit false

/-!
Recomputations that stay in their row. If all that is recomputed lies in the rows of one collection,
and depends on fields of its own data level, then every listener has its source and its destination
in one row. Covering keeps rows apart at every depth. So a value that is set in a row sets off
recomputations in that row only, and what they write lies in it.
-/

namespace SchemaForm

/-! ### Schemas -/

def Dependency.isSibling : Dependency → Bool
  | .sibling _ => true
  | .absolute _ => false

/-- Whether what is recomputed for the field itself depends on its own data level only. -/
def FieldTraits.isLocal (t : FieldTraits) : Bool :=
  t.isStatic || t.dependencies.all Dependency.isSibling

namespace Field

mutual

/-- Whether what is recomputed for a field, or for one below it, depends on the data level of that
field only. -/
def isLocal : Field → Bool
  | .nested _ _ fields _ => areLocal fields
  | .collection t fields _ _ => t.isLocal && areLocal fields
  | .input t _ | .group t _ => t.isLocal

def areLocal : List Field → Bool
  | [] => true
  | f :: rest => isLocal f && areLocal rest

end

mutual

/-- Whether all that is recomputed for a field or below it is in the rows of the collection with an
id, and local there. -/
def keepsToRows (id : String) : Field → Bool
  | .nested _ _ fields _ => keepToRows id fields
  | .collection t fields _ _ =>
    t.isStatic && if t.id = some id then areLocal fields else areStatic fields
  | .input t _ | .group t _ => t.isStatic

def keepToRows (id : String) : List Field → Bool
  | [] => true
  | f :: rest => keepsToRows id f && keepToRows id rest

end

end Field

/-! ### Listeners -/

namespace Path

variable {p q : Path} {name : String}

private theorem join_join (p q r : Path) : (p.join q).join r = p.join (q.join r) := by
  simp only [join, List.append_assoc]

private theorem join_root (p : Path) : p.join .root = p := by
  simp only [join, root, List.append_nil]

private theorem level_key (p : Path) (name : String) : (p.key name).level = p := by
  simp only [level, key, child, List.dropLast_concat]

private theorem prefix_segments_key_join : p.segments <+: ((p.join q).key name).segments :=
  (List.prefix_append _ _).trans (List.prefix_append _ _)

end Path

/-- The listener lies with its source and its destination at one data level, which is at the path or
below it. -/
def Listener.Within (p : Path) (l : Listener) : Prop :=
  ∃ (inner : Path) (source dest : String),
    l.source = (p.join inner).key source ∧ l.dest = (p.join inner).key dest

namespace Listener.Within

variable {p q : Path} {l : Listener}

private theorem of_join (h : l.Within (p.join q)) : l.Within p := by
  obtain ⟨inner, source, dest, hsource, hdest⟩ := h
  rw [Path.join_join] at hsource hdest
  exact ⟨q.join inner, source, dest, hsource, hdest⟩

private theorem eq_of_listensTo {m n : Nat} {rest : Path} (h : l.Within (p.index m))
    (hlistens : l.listensTo ((p.index n).join rest) = true) : m = n := by
  obtain ⟨inner, source, dest, hsource, -⟩ := h
  rw [listensTo, hsource] at hlistens
  exact Path.eq_of_covers_of_rows Path.prefix_segments_key_join (List.prefix_append _ _) hlistens

end Listener.Within

namespace Wiring

private theorem within_of_mem_ownListeners {t : FieldTraits} (hlocal : t.isLocal = true)
    {access : Path} {id : String} {l : Listener} (hl : l ∈ ownListeners t access (access.key id)) :
    l.Within access := by
  have hdynamic : t.isStatic = false := by
    by_contra hstatic
    rw [ownListeners_of_isStatic (by simpa using hstatic)] at hl
    cases hl
  have hsiblings : t.dependencies.all Dependency.isSibling = true := by
    simpa [FieldTraits.isLocal, hdynamic] using hlocal
  have hsources : ∀ source ∈ access.key id :: t.dependencies.map fun d => d.resolve access,
      ∃ name, source = access.key name := by
    intro source hsource
    rcases List.mem_cons.mp hsource with rfl | hdependency
    · exact ⟨id, rfl⟩
    · obtain ⟨d, hd, rfl⟩ := List.mem_map.mp hdependency
      cases d with
      | sibling other => exact ⟨other, rfl⟩
      | absolute path => cases List.all_eq_true.mp hsiblings _ hd
  unfold ownListeners at hl
  split at hl
  · obtain ⟨source, hsource, rfl⟩ := List.mem_map.mp hl
    obtain ⟨name, rfl⟩ := hsources source hsource
    refine ⟨.root, name, id, ?_, ?_⟩ <;> rw [Path.join_root]
  · cases hl

mutual

private theorem within_of_mem_fieldListeners {data : Json} {access : Path} {l : Listener} :
    (f : Field) →
    f.isLocal = true → l ∈ fieldListeners data access f → l.Within access
  | .nested _ _ fields _, hlocal, hl => by
    rw [Field.isLocal] at hlocal
    rw [fieldListeners] at hl
    exact within_of_mem_listeners fields hlocal hl
  | .collection t fields _ _, hlocal, hl => by
    rw [Field.isLocal] at hlocal
    obtain ⟨hown, hbelow⟩ := Bool.and_eq_true_iff.mp hlocal
    rw [fieldListeners] at hl
    split at hl
    · cases hl
    · rename_i id _
      rcases List.mem_append.mp hl with hl | hl
      · exact within_of_mem_ownListeners hown hl
      · obtain ⟨⟨row, n⟩, -, hl : l ∈ listeners row ((access.key id).index n) fields⟩ :=
          List.mem_flatMap.mp hl
        have hrow : (access.key id).index n = access.join ⟨[.key id, .index n]⟩ := by
          simp [Path.key, Path.index, Path.child, Path.join]
        exact (hrow ▸ within_of_mem_listeners fields hbelow hl).of_join
  | .input t _, hlocal, hl => by
    rw [Field.isLocal] at hlocal
    rw [fieldListeners] at hl
    split at hl
    · cases hl
    · exact within_of_mem_ownListeners hlocal hl
  | .group t _, hlocal, hl => by
    rw [Field.isLocal] at hlocal
    rw [fieldListeners] at hl
    split at hl
    · cases hl
    · exact within_of_mem_ownListeners hlocal hl

private theorem within_of_mem_listeners {data : Json} {access : Path} {l : Listener} :
    (fields : List Field) → Field.areLocal fields = true → l ∈ listeners data access fields →
    l.Within access
  | [], _, hl => by cases hl
  | f :: rest, hlocal, hl => by
    obtain ⟨hfirst, hlater⟩ := Bool.and_eq_true_iff.mp hlocal
    rw [listeners] at hl
    rcases List.mem_append.mp hl with hl | hl
    · exact within_of_mem_fieldListeners f hfirst hl
    · exact within_of_mem_listeners rest hlater hl

end

mutual

private theorem exists_row_of_mem_fieldListeners {id : String} {data : Json} {access : Path}
    {l : Listener} : (f : Field) → f.keepsToRows id = true → l ∈ fieldListeners data access f →
    ∃ n, l.Within ((access.key id).index n)
  | .nested _ _ fields _, hkeeps, hl => by
    rw [Field.keepsToRows] at hkeeps
    rw [fieldListeners] at hl
    exact exists_row_of_mem_listeners fields hkeeps hl
  | .collection t fields _ _, hkeeps, hl => by
    rw [Field.keepsToRows] at hkeeps
    obtain ⟨hown, hbelow⟩ := Bool.and_eq_true_iff.mp hkeeps
    rw [fieldListeners] at hl
    split at hl
    · cases hl
    · rename_i other hid
      rw [ownListeners_of_isStatic hown, List.nil_append] at hl
      obtain ⟨⟨row, n⟩, -, hl : l ∈ listeners row ((access.key other).index n) fields⟩ :=
        List.mem_flatMap.mp hl
      by_cases hsame : t.id = some id
      · rw [if_pos hsame] at hbelow
        rw [hid, Option.some.injEq] at hsame
        exact ⟨n, hsame ▸ within_of_mem_listeners fields hbelow hl⟩
      · rw [if_neg hsame] at hbelow
        rw [listeners_of_areStatic fields hbelow] at hl
        cases hl
  | .input t kind, hkeeps, hl => by
    rw [fieldListeners_of_isStatic (.input t kind) hkeeps] at hl
    cases hl
  | .group t inline, hkeeps, hl => by
    rw [fieldListeners_of_isStatic (.group t inline) hkeeps] at hl
    cases hl

private theorem exists_row_of_mem_listeners {id : String} {data : Json} {access : Path}
    {l : Listener} :
    (fields : List Field) → Field.keepToRows id fields = true → l ∈ listeners data access fields →
    ∃ n, l.Within ((access.key id).index n)
  | [], _, hl => by cases hl
  | f :: rest, hkeeps, hl => by
    obtain ⟨hfirst, hlater⟩ := Bool.and_eq_true_iff.mp hkeeps
    rw [listeners] at hl
    rcases List.mem_append.mp hl with hl | hl
    · exact exists_row_of_mem_fieldListeners f hfirst hl
    · exact exists_row_of_mem_listeners rest hlater hl

end

end Wiring

/-! ### Documents -/

/-- At most the value at a place is another one. -/
def Json.DifferAt (l : Place) (doc doc' : Json) : Prop := ∃ new, doc' = replaceAt new doc l

namespace Json

variable {l : Place} {doc doc' doc'' old : Json}

private theorem differAt_self (hat : doc.at? l = some old) : doc.DifferAt l doc :=
  ⟨old, (replaceAt_self hat).symm⟩

private theorem DifferAt.at? (h : doc.DifferAt l doc') (hat : doc.at? l = some old) :
    ∃ new, doc'.at? l = some new := by
  obtain ⟨new, rfl⟩ := h
  have hthere := at?_replaceAt_above hat new []
  rw [List.append_nil] at hthere
  exact ⟨_, hthere⟩

private theorem DifferAt.trans (h : doc.DifferAt l doc') (h' : doc'.DifferAt l doc'')
    (hat : doc.at? l = some old) : doc.DifferAt l doc'' := by
  obtain ⟨new, rfl⟩ := h
  obtain ⟨newer, rfl⟩ := h'
  exact ⟨newer, replaceAt_replaceAt hat new newer⟩

end Json

private theorem Listener.Within.differAt_apply {p : Path} {l : Listener} (h : l.Within p)
    {doc old : Json} (hat : doc.at? p.steps = some old) (f : Recompute) (ctx : ActionContext) :
    doc.DifferAt p.steps (l.apply f ctx doc) := by
  obtain ⟨inner, source, dest, -, hdest⟩ := h
  unfold Listener.apply
  split
  · rw [Listener.patch_eq_layOverAt, Listener.level, hdest, Path.level_key]
    exact Json.exists_modifyAtSegments?_eq hat _ inner.segments
  · exact Json.differAt_self hat

private theorem DependencyGraph.differAt_settle {g : DependencyGraph} {changed p : Path}
    (hwithin : ∀ l ∈ g.concerned changed, l.Within p) (ctx : ActionContext) {doc old : Json}
    (hat : doc.at? p.steps = some old) : doc.DifferAt p.steps (g.settle changed ctx doc) := by
  unfold settle
  generalize g.concerned changed = called at hwithin
  induction called generalizing doc old with
  | nil => exact Json.differAt_self hat
  | cons l called ih =>
    have ih {doc old : Json} (hat : doc.at? p.steps = some old) :=
      ih hat fun l hl => hwithin l (List.mem_cons_of_mem _ hl)
    rw [List.foldl_cons]
    cases l.recompute with
    | none => exact ih hat
    | some f =>
      have hfirst := (hwithin l List.mem_cons_self).differAt_apply hat f ctx
      obtain ⟨new, hat'⟩ := hfirst.at? hat
      exact hfirst.trans (ih hat') hat

private theorem Listener.listener_of_defer? {l : Listener} {doc : Json} {ctx : ActionContext}
    {p : Pending} (hp : l.defer? doc ctx = some p) : p.listener = l := by
  obtain ⟨f, -, hstarted⟩ := Option.bind_eq_some_iff.mp hp
  obtain ⟨deferral, -, rfl⟩ := Option.map_eq_some_iff.mp hstarted
  rfl

section Row

variable {doc : Json} {id : String} {rows : List Json} (hheld : doc.get? id = some (.array rows))
  {n : Nat} (hn : n < rows.length)

include hheld hn

private theorem Json.at?_row : doc.at? ((Path.root.key id).index n).steps = some rows[n] := by
  have hsteps : ((Path.root.key id).index n).steps = [.member id, .item n] := rfl
  rw [hsteps, at?_cons, below?_member, hheld, Option.bind_some, at?_cons]
  exact congrArg (Option.bind · some) (List.getElem?_eq_getElem hn)

private theorem Json.DifferAt.get? {doc' : Json}
    (h : doc.DifferAt ((Path.root.key id).index n).steps doc') :
    (∀ key, key ≠ id → doc'.get? key = doc.get? key) ∧
      ∃ value, doc'.get? id = some (.array (rows.set n value)) := by
  obtain ⟨value, rfl⟩ := h
  have hsteps : ((Path.root.key id).index n).steps = [.member id, .item n] := rfl
  have hrows : doc.below? (.member id) = some (.array rows) := by rw [below?_member, hheld]
  have hrow : (array rows).below? (.item n) = some rows[n] := List.getElem?_eq_getElem hn
  have hread (key : String) : (replaceAt value doc [.member id, .item n]).get? key =
      if Step.member id = .member key then some (.array (rows.set n value)) else doc.get? key := by
    rw [replaceAt_cons hrows, replaceAt_cons hrow, ← below?_member, ← below?_member,
      below?_putBelow hrows]
    rfl
  rw [hsteps]
  refine ⟨fun key hkey => ?_, value, ?_⟩
  · rw [hread, if_neg (by simpa using Ne.symm hkey)]
  · rw [hread, if_pos rfl]

end Row

/-- Rows do not recompute each other. If all that is recomputed lies in the rows of one collection
and depends on the fields of its own data level, then a value that is set at the path of a row or
below it leaves alone all other rows and all outside the collection, and the deferred recomputations
that are queued for it have their destinations below this row. The listeners may be those of any
document, and the rows need not be objects. -/
theorem Schema.setValue_stays_in_row {s : Schema} {id : String}
    (hkeep : Field.keepToRows id s.fields = true) (wired : Json) (ids : RowIds)
    {session : Session} {rows : List Json} (hheld : session.doc.get? id = some (.array rows))
    {n : Nat} (hn : n < rows.length) (rest : Path) (value : Json) :
    let row := (Path.root.key id).index n
    let r := reduce (s.graph wired) ids session (.setValue (row.join rest) value)
    (∀ key, key ≠ id → r.session.doc.get? key = session.doc.get? key) ∧
    (∃ value', r.session.doc.get? id = some (.array (rows.set n value'))) ∧
    ∃ added, r.queue = .push added ∧ ∀ p ∈ added,
      ∃ (inner : Path) (name : String), p.listener.dest = (row.join inner).key name := by
  intro row r
  -- Each listener lies in some row, and one that hears of the change lies in the row of the change.
  have hwithin : ∀ l ∈ (s.graph wired).concerned (row.join rest), l.Within row := by
    intro l hl
    obtain ⟨hregistered, hlistens⟩ := List.mem_filter.mp hl
    obtain ⟨m, hrow⟩ := Wiring.exists_row_of_mem_listeners s.fields hkeep hregistered
    rwa [hrow.eq_of_listensTo hlistens] at hrow
  have hat : session.doc.at? row.steps = some rows[n] := Json.at?_row hheld hn
  have hset : session.doc.DifferAt row.steps (session.doc.setAt (row.join rest) value) :=
    Json.exists_setAtSegments_eq hat value rest.segments
  obtain ⟨written, hat'⟩ := hset.at? hat
  obtain ⟨hfields, hrows⟩ :=
    (hset.trans (DependencyGraph.differAt_settle hwithin _ hat') hat).get? hheld hn
  refine ⟨hfields, hrows, _, rfl, fun p hp => ?_⟩
  obtain ⟨l, hl, hstarted⟩ := List.mem_filterMap.mp hp
  obtain ⟨inner, -, name, -, hdest⟩ := hwithin l hl
  rw [Listener.listener_of_defer? hstarted]
  exact ⟨inner, name, hdest⟩

theorem Schema.setValue_stays_in_row_lines :
    let double : Recompute := fun line _ _ _ => (line.get? "count").map fun c => [("total", c)]
    let later : Defer := fun _ _ _ _ => some ⟨0, double⟩
    let count : Field := .input { FieldTraits.plain with id := some "count" } (.int none none)
    let total : Field := .input { FieldTraits.plain with
      id := some "total"
      dependencies := [.sibling "count"]
      recompute := some double
      defer := some later } (.int none none)
    let rowsOf (id : String) (fields : List Field) : Field :=
      .collection { FieldTraits.plain with id := some id } fields .plain ⟨[], none, none⟩
    let s : Schema := ⟨[.input { FieldTraits.plain with id := some "title" } .text,
      rowsOf "lines" [count, total, rowsOf "parts" [count, total]]], .plain⟩
    let line (c t : Nat) : Json := .ofPairs [("count", .ofNat c), ("total", .ofNat t)]
    let rows := [line 1 1, line 2 5]
    let doc := Json.ofPairs [("title", .text "t"), ("lines", .array rows)]
    let row := (Path.root.key "lines").index 0
    let r := reduce (s.graph doc) ⟨0⟩ ⟨doc, 0⟩ (.setValue (row.key "count") (.ofNat 3))
    (Field.keepToRows "lines" s.fields = true ∧ doc.get? "lines" = some (.array rows) ∧
        0 < rows.length) ∧
      r.session.doc.get? "title" = some (.text "t") ∧
      r.session.doc.get? "lines" = some (.array [line 3 3, line 2 5]) ∧
      (∃ value, r.session.doc.get? "lines" = some (.array (rows.set 0 value))) ∧
      ∃ added, r.queue = .push added ∧ added.length = 1 ∧ ∀ p ∈ added,
        ∃ (inner : Path) (name : String), p.listener.dest = (row.join inner).key name := by
  intro double later count total rowsOf s line rows doc row r
  have hkeep : Field.keepToRows "lines" s.fields = true := by decide +kernel
  have hheld : doc.get? "lines" = some (.array rows) := by decide +kernel
  have hn : 0 < rows.length := by decide
  obtain ⟨hfields, hrows, added, hqueue, hdests⟩ := @setValue_stays_in_row s "lines" hkeep doc ⟨0⟩
    ⟨doc, 0⟩ rows hheld 0 hn (Path.root.key "count") (.ofNat 3)
  have hone : added.length = 1 := by
    have hlength : (match r.queue with | .push added => added.length | _ => 0) = 1 := by
      decide +kernel
    rwa [show r.queue = .push added from hqueue] at hlength
  refine ⟨⟨hkeep, hheld, hn⟩, (hfields "title" (by decide)).trans ?_, ?_, hrows, added, hqueue,
    hone, hdests⟩
  · decide +kernel
  · decide +kernel

end SchemaForm
