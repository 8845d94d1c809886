import Mathlib.Data.List.Chain
import SchemaForm.Proofs.Path.Reading
import SchemaForm.Store

set_option autoImplicit false
set_option relaxedAutoImplicit false

/-!
What the subscribers of a store hear. Whatever is done with a store, a subscriber hears of the
changes made between its subscription and the end of it, of each once and in order: of all of
them, or of those that make a difference at its path. Paths are looked up by their flat forms, so
a subscriber may be served through the path of an earlier one.
-/

namespace SchemaForm

/-- What can be done with a store. An update writes what its function makes of the document. -/
inductive StoreOp where
  | subscribe
  | subscribeAt (p : Path)
  | unsubscribe (id : Nat)
  | drop (id : Nat)
  | set (next : Json)
  | update (f : Json → Json)

namespace StoreOp

def ends (id : Nat) : StoreOp → Bool
  | .unsubscribe other | .drop other => other == id
  | _ => false

def subscribes : StoreOp → Bool
  | .subscribe | .subscribeAt _ => true
  | _ => false

/-- The document that the operation writes. -/
def next? (state : Json) : StoreOp → Option Json
  | .set next => some next
  | .update f => some (f state)
  | _ => none

/-- The document after the operation: a write of an equal document keeps the old one. -/
def after (state : Json) (op : StoreOp) : Json :=
  match op.next? state with
  | none => state
  | some next => if state.same next then state else next

/-- The new and the old document of every write that makes a difference. -/
def changes (state : Json) : List StoreOp → List (Json × Json)
  | [] => []
  | op :: ops =>
    match op.next? state with
    | none => changes state ops
    | some next => if state.same next then changes state ops else (next, state) :: changes next ops

/-- The new and the old value at a path, if a change makes a difference there. -/
def changeAt? (p : Path) (change : Json × Json) : Option (Json × Json) :=
  let new := change.1.valueAtOrNull p
  let old := change.2.valueAtOrNull p
  if old.same new then none else some (new, old)

/-- The subscriptions that are made and not ended later, numbered from one on. -/
def lasting (made : Nat) : List StoreOp → List Nat
  | [] => []
  | op :: ops =>
    if op.subscribes then
      (if ops.any (ends (made + 1)) then [] else [made + 1]) ++ lasting (made + 1) ops
    else
      lasting made ops

end StoreOp

namespace Store

open StoreOp

def perform (s : Store) : StoreOp → Store
  | .subscribe => s.subscribe.2
  | .subscribeAt p => (s.subscribeAt p).2
  | .unsubscribe id | .drop id => s.unsubscribe id
  | .set next => s.set next
  | .update f => s.set (f s.state)

def run (s : Store) (ops : List StoreOp) : Store := ops.foldl perform s

/-- What a subscriber is told during an operation. -/
def told (s : Store) (id : Nat) (op : StoreOp) : List (Json × Json) :=
  ((((op.next? s.state).map s.notices).getD []).filter fun n => n.subscriber == id).map fun n =>
    (n.new, n.old)

/-- The calls that a subscriber receives during a run, each with the new and the old value. -/
def heard (s : Store) (id : Nat) : List StoreOp → List (Json × Json)
  | [] => []
  | op :: ops => s.told id op ++ (s.perform op).heard id ops

/-- What the attempts to end a subscription answer: whether it was in force. -/
def answers (s : Store) (id : Nat) : List StoreOp → List Bool
  | [] => []
  | op :: ops => (if op.ends id then [s.isActive id] else []) ++ (s.perform op).answers id ops

private theorem run_append (s : Store) (ops ops' : List StoreOp) :
    s.run (ops ++ ops') = (s.run ops).run ops' := List.foldl_append

private theorem heard_append (s : Store) (id : Nat) (ops ops' : List StoreOp) :
    s.heard id (ops ++ ops') = s.heard id ops ++ (s.run ops).heard id ops' := by
  induction ops generalizing s with
  | nil => rfl
  | cons op ops ih => rw [List.cons_append, heard, heard, ih, List.append_assoc]; rfl

/-! ### The places where a subscriber listens -/

/-- The paths at which a subscriber listens, the root for the whole document. -/
def places (s : Store) (id : Nat) : List Path :=
  (s.whole.filter fun other => other == id).map (fun _ => .root) ++
    (s.atPaths.filter fun entry => entry.1 == id).filterMap fun entry => s.interner.path? entry.2

private theorem changeAt?_root {next state : Json} (h : state.same next = false) :
    changeAt? .root (next, state) = some (next, state) := by
  have hroot (v : Json) : v.valueAtOrNull .root = v := rfl
  simp [changeAt?, hroot, h]

private theorem told_whole {next state : Json} (h : state.same next = false) (id : Nat)
    (whole : List Nat) :
    ((whole.map fun other => Notice.mk other next state).filter fun n => n.subscriber == id).map
      (fun n => (n.new, n.old)) =
    ((whole.filter fun other => other == id).map fun _ => Path.root).filterMap fun p =>
      changeAt? p (next, state) := by
  rw [List.filter_map, List.map_map, List.filterMap_map, ← List.filterMap_eq_map]
  refine List.filterMap_congr fun other _ => ?_
  exact (changeAt?_root h).symm

private theorem told_atPaths (s : Store) (next : Json) (id : Nat) (entries : List (Nat × Nat)) :
    ((entries.filterMap (s.pathNotice? next)).filter fun n => n.subscriber == id).map
      (fun n => (n.new, n.old)) =
    ((entries.filter fun entry => entry.1 == id).filterMap fun entry =>
      s.interner.path? entry.2).filterMap fun p => changeAt? p (next, s.state) := by
  rw [List.filter_filterMap, List.map_filterMap, List.filterMap_filterMap, List.filterMap_filter]
  refine List.filterMap_congr fun entry _ => ?_
  unfold pathNotice? changeAt?
  cases s.interner.path? entry.2 with
  | none => simp
  | some p =>
    by_cases hvalue : (s.state.valueAtOrNull p).same (next.valueAtOrNull p) = true
    · by_cases hid : entry.1 = id <;> simp [hvalue, hid]
    · by_cases hid : entry.1 = id <;> simp [hvalue, hid]

private theorem told_eq (s : Store) (id : Nat) (op : StoreOp) : s.told id op =
    (changes s.state [op]).flatMap fun change =>
      (s.places id).filterMap fun p => changeAt? p change := by
  unfold told changes
  cases op.next? s.state with
  | none => rfl
  | some next =>
    simp only [Option.map_some, Option.getD_some, notices, accepts]
    by_cases hsame : s.state.same next = true
    · simp [hsame, changes]
    · have hdiffer : s.state.same next = false := by simpa using hsame
      simp only [hdiffer, Bool.not_false, if_true, Bool.false_eq_true, if_false, List.filter_append,
        List.map_append, changes, List.flatMap_singleton, places, List.filterMap_append]
      rw [told_whole hdiffer, told_atPaths]

/-! ### What an operation does to the places -/

private theorem set_eq (s : Store) (next : Json) :
    s.set next = { s with state := if s.state.same next then s.state else next } := by
  by_cases hsame : s.state.same next = true <;> simp [Store.set, accepts, hsame]

private theorem perform_cases (s : Store) (op : StoreOp) :
    op = .subscribe ∨ (∃ p, op = .subscribeAt p) ∨
    (∃ other, (∀ id, op.ends id = (other == id)) ∧ op.subscribes = false ∧
      op.next? s.state = none ∧ s.perform op = s.unsubscribe other) ∨
    ((∀ id, op.ends id = false) ∧ op.subscribes = false ∧
      s.perform op = { s with state := op.after s.state }) := by
  cases op with
  | subscribe => exact .inl rfl
  | subscribeAt p => exact .inr (.inl ⟨p, rfl⟩)
  | unsubscribe other => exact .inr (.inr (.inl ⟨other, fun _ => rfl, rfl, rfl, rfl⟩))
  | drop other => exact .inr (.inr (.inl ⟨other, fun _ => rfl, rfl, rfl, rfl⟩))
  | set next => exact .inr (.inr (.inr ⟨fun _ => rfl, rfl, set_eq s next⟩))
  | update f => exact .inr (.inr (.inr ⟨fun _ => rfl, rfl, set_eq s (f s.state)⟩))

private theorem state_perform (s : Store) (op : StoreOp) :
    (s.perform op).state = op.after s.state := by
  obtain rfl | ⟨p, rfl⟩ | ⟨other, -, -, hnext, hended⟩ | ⟨-, -, hwritten⟩ := s.perform_cases op
  · rfl
  · rfl
  · rw [hended, after, hnext]
    rfl
  · rw [hwritten]

/-- Numbers above the last one were never given, and every token has a path. -/
structure Orderly (s : Store) : Prop where
  given : ∀ id, s.isActive id = true → id ≤ s.lastSubscriber
  tokens : ∀ entry ∈ s.atPaths, entry.2 < s.interner.size

private theorem orderly_ofState (state : Json) : (ofState state).Orderly :=
  ⟨by simp [ofState, isActive], by simp [ofState]⟩

end Store

private theorem Interner.intern_spec (i : Interner) (p : Path) :
    (∃ q, (i.intern p).2.path? (i.intern p).1 = some q ∧ q.flat = p.flat) ∧
    (i.intern p).1 < (i.intern p).2.size ∧ i.size ≤ (i.intern p).2.size ∧
    (∀ token < i.size, (i.intern p).2.path? token = i.path? token) ∧
    ∀ q ∈ (i.intern p).2.paths, q = p ∨ q ∈ i.paths := by
  unfold intern
  cases hfound : i.find? p.flat with
  | some token =>
    obtain ⟨hbound, hflat, -⟩ := List.findIdx?_eq_some_iff_getElem.mp hfound
    have hpath : i.path? token = some i.paths[token] := List.getElem?_eq_getElem hbound
    exact ⟨⟨i.paths[token], hpath, by simpa using hflat⟩, hbound, Nat.le_refl _, fun _ _ => rfl,
      fun q hq => .inr hq⟩
  | none =>
    refine ⟨⟨p, by simp [path?, size], rfl⟩, by simp [size], by simp [size], ?_, ?_⟩
    · intro token htoken
      exact List.getElem?_append_left htoken
    · intro q hq
      rcases List.mem_append.mp hq with hold | hnew
      · exact .inr hold
      · exact .inl (List.mem_singleton.mp hnew)

namespace Store

open StoreOp

variable {s : Store}

private theorem isActive_iff (s : Store) (id : Nat) :
    s.isActive id = true ↔ id ∈ s.whole ∨ id ∈ s.atPaths.map Prod.fst := by
  simp [isActive]

private theorem lastSubscriber_perform (s : Store) (op : StoreOp) :
    (s.perform op).lastSubscriber = s.lastSubscriber + if op.subscribes then 1 else 0 := by
  obtain rfl | ⟨p, rfl⟩ | ⟨other, -, hold, -, hended⟩ | ⟨-, hold, hwritten⟩ := s.perform_cases op
  · rfl
  · rfl
  · rw [hended, hold]
    rfl
  · rw [hwritten, hold]
    rfl

private theorem lastSubscriber_le_run (s : Store) (ops : List StoreOp) :
    s.lastSubscriber ≤ (s.run ops).lastSubscriber := by
  induction ops generalizing s with
  | nil => exact Nat.le_refl _
  | cons op ops ih =>
    have hstep := lastSubscriber_perform s op
    have hlater : (s.perform op).lastSubscriber ≤ (s.run (op :: ops)).lastSubscriber :=
      ih (s.perform op)
    omega

private theorem filter_ended {α : Type} (number : α → Nat) (l : List α) (other id : Nat) :
    ((l.filter fun a => number a != other).filter fun a => number a == id) =
      if other = id then [] else l.filter fun a => number a == id := by
  rw [List.filter_filter]
  split
  · rename_i hsame
    exact List.filter_eq_nil_iff.mpr fun a _ => by simp [hsame]
  · rename_i hother
    refine List.filter_congr fun a _ => ?_
    by_cases hid : number a = id
    · simp [hid, Ne.symm hother]
    · simp [hid]

private theorem isActive_perform {id : Nat} (hid : id ≤ s.lastSubscriber) (op : StoreOp) :
    (s.perform op).isActive id = (!op.ends id && s.isActive id) := by
  have hnew : id ≠ s.lastSubscriber + 1 := by omega
  obtain rfl | ⟨p, rfl⟩ | ⟨other, hends, -, -, hended⟩ | ⟨hends, -, hwritten⟩ := s.perform_cases op
  · simp [perform, subscribe, ends, isActive, hnew]
  · have hother : (s.lastSubscriber + 1 == id) = false := beq_eq_false_iff_ne.mpr hnew.symm
    simp [perform, subscribeAt, ends, isActive, hother]
  · rw [hended, hends, Bool.eq_iff_iff, isActive_iff, Bool.and_eq_true, isActive_iff]
    by_cases hsame : other = id
    · simp [unsubscribe, hsame]
    · simp [unsubscribe, hsame, Ne.symm hsame]
  · rw [hwritten, hends]
    rfl

private theorem Orderly.perform (hs : s.Orderly) (op : StoreOp) : (s.perform op).Orderly := by
  obtain rfl | ⟨p, rfl⟩ | ⟨other, -, -, -, hended⟩ | ⟨-, -, hwritten⟩ := s.perform_cases op
  · refine ⟨fun id hactive => ?_, hs.tokens⟩
    rw [isActive_iff] at hactive
    have hgiven := hs.given id
    rw [isActive_iff] at hgiven
    simp only [Store.perform, subscribe, List.mem_append, List.mem_singleton] at hactive ⊢
    rcases hactive with (hwhole | hnew) | hpath
    · have := hgiven (.inl hwhole); omega
    · omega
    · have := hgiven (.inr hpath); omega
  · obtain ⟨-, hnew, hgrows, -⟩ := s.interner.intern_spec p
    refine ⟨fun id hactive => ?_, fun entry hentry => ?_⟩
    · have hgiven := hs.given id
      rw [isActive_iff] at hgiven hactive
      simp only [Store.perform, subscribeAt, List.map_append, List.mem_append, List.map_cons,
        List.map_nil, List.mem_singleton] at hactive ⊢
      rcases hactive with hwhole | hpath | hlast
      · have := hgiven (.inl hwhole); omega
      · have := hgiven (.inr hpath); omega
      · omega
    · rcases List.mem_append.mp hentry with hold | hlast
      · exact Nat.lt_of_lt_of_le (hs.tokens entry hold) hgrows
      · rw [List.mem_singleton.mp hlast]
        exact hnew
  · rw [hended]
    refine ⟨fun id hactive => hs.given id ?_, fun entry hentry => hs.tokens entry ?_⟩
    · rw [isActive_iff] at hactive ⊢
      rcases hactive with hwhole | hpath
      · exact .inl (List.mem_of_mem_filter hwhole)
      · obtain ⟨entry, hentry, rfl⟩ := List.mem_map.mp hpath
        exact .inr (List.mem_map_of_mem (List.mem_of_mem_filter hentry))
    · exact List.mem_of_mem_filter hentry
  · rw [hwritten]
    exact ⟨hs.given, hs.tokens⟩

private theorem places_perform (hs : s.Orderly) {id : Nat} (hid : id ≤ s.lastSubscriber)
    (op : StoreOp) :
    (s.perform op).places id = if op.ends id then [] else s.places id := by
  have hnew : s.lastSubscriber + 1 ≠ id := by omega
  obtain rfl | ⟨p, rfl⟩ | ⟨other, hends, -, -, hended⟩ | ⟨hends, -, hwritten⟩ := s.perform_cases op
  · simp [perform, subscribe, places, ends, List.filter_append, hnew]
  · obtain ⟨-, -, -, hkept, -⟩ := s.interner.intern_spec p
    have hsame : ((s.atPaths.filter fun entry => entry.1 == id).filterMap fun entry =>
        (s.interner.intern p).2.path? entry.2) =
        (s.atPaths.filter fun entry => entry.1 == id).filterMap fun entry =>
          s.interner.path? entry.2 :=
      List.filterMap_congr fun entry hentry =>
        hkept entry.2 (hs.tokens entry (List.mem_of_mem_filter hentry))
    simp [perform, subscribeAt, places, ends, List.filter_append, hnew, hsame]
  · have hwhole := filter_ended (fun number : Nat => number) s.whole other id
    have hpaths := filter_ended (Prod.fst : Nat × Nat → Nat) s.atPaths other id
    rw [hended, hends]
    simp only [places, unsubscribe, hwhole, hpaths]
    by_cases hsame : other = id <;> simp [hsame]
  · rw [hwritten, hends]
    rfl

private theorem Orderly.unlisted (hs : s.Orderly) {id : Nat} (hid : s.lastSubscriber < id) :
    (s.whole.filter fun other => other == id) = [] ∧
      (s.atPaths.filter fun entry => entry.1 == id) = [] := by
  have hnever : ∀ other, other ∈ s.whole ∨ other ∈ s.atPaths.map Prod.fst → ¬ other == id := by
    intro other hother hsame
    have hgiven := hs.given other ((isActive_iff s other).mpr hother)
    have heq := beq_iff_eq.mp hsame
    omega
  exact ⟨List.filter_eq_nil_iff.mpr fun other hother => hnever other (.inl hother),
    List.filter_eq_nil_iff.mpr fun entry hentry =>
      hnever entry.1 (.inr (List.mem_map_of_mem hentry))⟩

private theorem Orderly.places_fresh (hs : s.Orderly) {id : Nat} (hid : s.lastSubscriber < id) :
    s.places id = [] := by
  obtain ⟨hwhole, hpaths⟩ := hs.unlisted hid
  rw [places, hwhole, hpaths]
  rfl

private theorem Orderly.places_subscribe (hs : s.Orderly) :
    s.subscribe.2.places s.subscribe.1 = [.root] := by
  obtain ⟨hwhole, hpaths⟩ := hs.unlisted (Nat.lt_succ_self s.lastSubscriber)
  simp only [places, subscribe, List.filter_append, hwhole, hpaths]
  simp

private theorem Orderly.places_subscribeAt (hs : s.Orderly) (p : Path) :
    ∃ q, q.flat = p.flat ∧ q ∈ (s.subscribeAt p).2.interner.paths ∧
      (s.subscribeAt p).2.places (s.subscribeAt p).1 = [q] := by
  obtain ⟨hwhole, hpaths⟩ := hs.unlisted (Nat.lt_succ_self s.lastSubscriber)
  obtain ⟨⟨q, hq, hflat⟩, -⟩ := s.interner.intern_spec p
  refine ⟨q, hflat, List.mem_of_getElem? hq, ?_⟩
  simp only [places, subscribeAt, List.filter_append, hwhole, hpaths]
  simp [hq]

/-! ### What a whole run is heard as -/

private theorem changes_cons (state : Json) (op : StoreOp) (ops : List StoreOp) :
    changes state (op :: ops) = changes state [op] ++ changes (op.after state) ops := by
  cases hnext : op.next? state with
  | none => simp [changes, after, hnext]
  | some next => by_cases hsame : state.same next = true <;> simp [changes, after, hnext, hsame]

private theorem Orderly.run (hs : s.Orderly) (ops : List StoreOp) : (s.run ops).Orderly := by
  induction ops generalizing s with
  | nil => exact hs
  | cons op ops ih => exact ih (hs.perform op)

private theorem heard_of_no_places (hs : s.Orderly) {id : Nat} (hid : id ≤ s.lastSubscriber)
    (hplaces : s.places id = []) (ops : List StoreOp) : s.heard id ops = [] := by
  induction ops generalizing s with
  | nil => rfl
  | cons op ops ih =>
    have hlast := lastSubscriber_perform s op
    have hlater := ih (hs.perform op) (by omega) (by rw [places_perform hs hid, hplaces, ite_self])
    rw [heard, hlater, told_eq, hplaces]
    simp

/-- A subscriber hears the changes up to the end of its subscription, as they look at its places. -/
private theorem heard_eq (hs : s.Orderly) {id : Nat} (hid : id ≤ s.lastSubscriber)
    (ops : List StoreOp) :
    s.heard id ops = (changes s.state (ops.takeWhile fun op => !op.ends id)).flatMap fun change =>
      (s.places id).filterMap fun p => changeAt? p change := by
  induction ops generalizing s with
  | nil => rfl
  | cons op ops ih =>
    have hlast := lastSubscriber_perform s op
    have hplaces := places_perform hs hid op
    by_cases hend : op.ends id = true
    · rw [if_pos hend] at hplaces
      have hsilent := heard_of_no_places (hs.perform op) (by omega) hplaces ops
      have hnext : op.next? s.state = none := by
        cases op <;> first | rfl | cases hend
      simp [heard, hsilent, told, hnext, hend, changes]
    · rw [if_neg hend] at hplaces
      have hlater := ih (hs.perform op) (by omega)
      rw [hplaces, state_perform] at hlater
      rw [heard, hlater, told_eq, List.takeWhile_cons_of_pos (by simpa using hend),
        changes_cons s.state op (List.takeWhile _ ops), List.flatMap_append]

private theorem heard_of_not_given (hs : s.Orderly) {id : Nat} {ops : List StoreOp}
    (hid : (s.run ops).lastSubscriber < id) : s.heard id ops = [] := by
  induction ops generalizing s with
  | nil => rfl
  | cons op ops ih =>
    have hgrows := lastSubscriber_le_run s (op :: ops)
    have hlater := ih (hs.perform op) hid
    rw [heard, hlater, told_eq, hs.places_fresh (by omega)]
    simp

private theorem answers_eq {id : Nat} (hid : id ≤ s.lastSubscriber) (ops : List StoreOp) :
    s.answers id ops =
      (List.range (ops.countP (ends id))).map fun n => s.isActive id && n == 0 := by
  induction ops generalizing s with
  | nil => rfl
  | cons op ops ih =>
    have hlast := lastSubscriber_perform s op
    have hlater := ih (s := s.perform op) (by omega)
    rw [answers, hlater, isActive_perform hid]
    cases hend : op.ends id with
    | false => simp [hend]
    | true => simp [hend, List.range_succ_eq_map, Function.comp_def]

/-! ### The subscriptions in force -/

def active (s : Store) : List Nat := s.whole ++ s.atPaths.map Prod.fst

private theorem mem_active {id : Nat} : id ∈ s.active ↔ s.isActive id = true := by
  rw [isActive_iff, active, List.mem_append]

private theorem length_active (s : Store) : s.active.length = s.subscriberCount := by
  simp [active, subscriberCount]

private theorem active_perform (s : Store) (op : StoreOp) : (s.perform op).active.Perm
    ((s.active.filter fun id => !op.ends id) ++
      if op.subscribes then [s.lastSubscriber + 1] else []) := by
  have hall (l : List Nat) : (l.filter fun _ => !false) = l := by simp
  obtain rfl | ⟨p, rfl⟩ | ⟨other, hends, hold, -, hended⟩ | ⟨hends, hold, hwritten⟩ :=
    s.perform_cases op
  · simp only [ends, subscribes, hall, if_true, perform, subscribe, active, List.append_assoc]
    exact List.Perm.append_left s.whole List.perm_append_comm
  · simp [ends, subscribes, perform, subscribeAt, active]
  · have hbne : ∀ id : Nat, (id != other) = !(other == id) := fun id => by
      rw [bne, Bool.beq_comm]
    simp [hended, hends, hold, active, unsubscribe, List.filter_map, Function.comp_def, hbne]
  · simp [hwritten, hends, hold, active]

private theorem active_run (s : Store) (ops : List StoreOp) : (s.run ops).active.Perm
    ((s.active.filter fun id => !ops.any (ends id)) ++ lasting s.lastSubscriber ops) := by
  induction ops generalizing s with
  | nil => simp [run, lasting]
  | cons op ops ih =>
    have hlater : (s.run (op :: ops)).active.Perm
        (((s.perform op).active.filter fun id => !ops.any (ends id)) ++
          lasting (s.perform op).lastSubscriber ops) := ih (s.perform op)
    have hstep := (active_perform s op).filter fun id => !ops.any (ends id)
    refine hlater.trans ((hstep.append_right _).trans (List.Perm.of_eq ?_))
    have hmerge : ((s.active.filter fun id => !op.ends id).filter fun id => !ops.any (ends id)) =
        s.active.filter fun id => !(op :: ops).any (ends id) := by
      rw [List.filter_filter]
      refine List.filter_congr fun id _ => ?_
      rw [List.any_cons, Bool.not_or, Bool.and_comm]
    rw [List.filter_append, hmerge, List.append_assoc, lastSubscriber_perform, lasting]
    cases op.subscribes with
    | false => simp
    | true => cases hend : ops.any (ends (s.lastSubscriber + 1)) <;> simp [hend]

/-! ### Listening at one path -/

private theorem interner_perform {q : Path} (op : StoreOp)
    (hq : q ∈ (s.perform op).interner.paths) : q ∈ s.interner.paths ∨ op = .subscribeAt q := by
  obtain rfl | ⟨p, rfl⟩ | ⟨other, -, -, -, hended⟩ | ⟨-, -, hwritten⟩ := s.perform_cases op
  · exact .inl hq
  · obtain ⟨-, -, -, -, hpaths⟩ := s.interner.intern_spec p
    rcases hpaths q hq with rfl | hold
    · exact .inr rfl
    · exact .inl hold
  · rw [hended] at hq
    exact .inl hq
  · rw [hwritten] at hq
    exact .inl hq

private theorem interner_run {q : Path} {ops : List StoreOp} (hq : q ∈ (s.run ops).interner.paths) :
    q ∈ s.interner.paths ∨ .subscribeAt q ∈ ops := by
  induction ops generalizing s with
  | nil => exact .inl hq
  | cons op ops ih =>
    rcases ih (s := s.perform op) hq with hold | hlater
    · rcases interner_perform op hold with hold' | rfl
      · exact .inl hold'
      · exact .inr List.mem_cons_self
    · exact .inr (List.mem_cons_of_mem op hlater)

private theorem changeAt?_eq_of_flat_eq {p q : Path} (hp : p.IsPlain) (hq : q.IsPlain)
    (hflat : p.flat = q.flat) : changeAt? p = changeAt? q := by
  funext change
  have hvalue (doc : Json) : doc.valueAtOrNull p = doc.valueAtOrNull q := by
    rw [Json.valueAtOrNull, Json.valueAtOrNull, Json.valueAt?_eq_of_flat_eq hp hq hflat]
  rw [changeAt?, changeAt?, hvalue, hvalue]

private theorem filterMap_changeAt?_root (state : Json) (ops : List StoreOp) :
    (changes state ops).filterMap (changeAt? .root) = changes state ops := by
  induction ops generalizing state with
  | nil => rfl
  | cons op ops ih =>
    unfold changes
    cases op.next? state with
    | none => exact ih state
    | some next =>
      by_cases hsame : state.same next = true
      · simpa [hsame] using ih state
      · have hdiffer : state.same next = false := by simpa using hsame
        simp [hdiffer, changeAt?_root hdiffer, ih next]

private theorem isChain_changeAt? (p : Path) {state : Json} (ops : List StoreOp)
    {last : Json × Json} (hlast : (state.valueAtOrNull p).same last.1 = true) :
    (last :: (changes state ops).filterMap (changeAt? p)).IsChain fun earlier later =>
      later.2.same earlier.1 = true := by
  induction ops generalizing state last with
  | nil => exact .singleton last
  | cons op ops ih =>
    unfold changes
    cases op.next? state with
    | none => exact ih hlast
    | some next =>
      by_cases hsame : state.same next = true
      · simpa [hsame] using ih hlast
      · simp only [hsame, Bool.false_eq_true, if_false]
        by_cases hvalue : (state.valueAtOrNull p).same (next.valueAtOrNull p) = true
        · have hquiet : changeAt? p (next, state) = none := if_pos hvalue
          rw [List.filterMap_cons_none hquiet]
          exact ih (Json.same_trans (Json.same_symm hvalue) hlast)
        · have hcall : changeAt? p (next, state) =
            some (next.valueAtOrNull p, state.valueAtOrNull p) := if_neg hvalue
          rw [List.filterMap_cons_some hcall]
          exact .cons_cons hlast (ih (Json.same_refl _))

private theorem isChain_heard (p : Path) (state : Json) (ops : List StoreOp) :
    ((changes state ops).filterMap (changeAt? p)).IsChain fun earlier later =>
      later.2.same earlier.1 = true := by
  have hstart : (state.valueAtOrNull p).same (state.valueAtOrNull p, Json.null).1 = true :=
    Json.same_refl _
  exact (isChain_changeAt? p ops hstart).tail

/-- From now on, the subscriber hears exactly the changes at a path that are made until its
subscription is ended, each linked to the one before; afterwards it hears nothing, and only the
first attempt to end the subscription succeeds. -/
structure Serves (s : Store) (id : Nat) (p : Path) (ops : List StoreOp) : Prop where
  calls : s.heard id ops =
    (changes s.state (ops.takeWhile fun op => !op.ends id)).filterMap (changeAt? p)
  linked : (s.heard id ops).IsChain fun earlier later => later.2.same earlier.1 = true
  silent : ∀ during ending later, ops = during ++ ending :: later → ending.ends id = true →
    (s.run (during ++ [ending])).heard id later = []
  answered : s.answers id ops = (List.range (ops.countP (ends id))).map (· == 0)

private theorem Orderly.serves (hs : s.Orderly) {id : Nat} {p : Path} (hid : id ≤ s.lastSubscriber)
    (hactive : s.isActive id = true) (hplaces : s.places id = [p]) (ops : List StoreOp) :
    s.Serves id p ops := by
  have hcalls : s.heard id ops =
      (changes s.state (ops.takeWhile fun op => !op.ends id)).filterMap (changeAt? p) := by
    have hsingle (change : Json × Json) :
        [p].filterMap (fun q => changeAt? q change) = (changeAt? p change).toList := by
      cases h : changeAt? p change <;> simp [h]
    rw [heard_eq hs hid, hplaces, funext hsingle, List.filterMap_eq_flatMap_toList]
  refine ⟨hcalls, ?_, ?_, ?_⟩
  · rw [hcalls]
    exact isChain_heard p s.state _
  · intro during ending later _ hend
    have hgrows := lastSubscriber_le_run s during
    have hlast := lastSubscriber_perform (s.run during) ending
    have hgiven : id ≤ (s.run during).lastSubscriber := by omega
    have hplaces' := places_perform (hs.run during) hgiven ending
    rw [if_pos hend] at hplaces'
    rw [run_append]
    exact heard_of_no_places ((hs.run during).perform ending) (by omega) hplaces' later
  · simp only [answers_eq hid, hactive, Bool.true_and]

private theorem heard_since (hs : s.Orderly) {before after : List StoreOp} {op : StoreOp}
    (hquiet : op.next? (s.run before).state = none) :
    s.heard ((s.run before).lastSubscriber + 1) (before ++ op :: after) =
      ((s.run before).perform op).heard ((s.run before).lastSubscriber + 1) after := by
  have hbefore := heard_of_not_given hs (Nat.lt_succ_self (s.run before).lastSubscriber)
  have htold : (s.run before).told ((s.run before).lastSubscriber + 1) op = [] := by
    simp [told, hquiet]
  rw [heard_append, hbefore, heard, htold]
  rfl

/-- What is heard of a store. Whatever is done with it, the subscriptions in force are those that
were made and not ended, a subscriber to the whole document hears exactly the writes that change
it, and a subscriber to a path exactly those that change the value there. -/
theorem subscribers_hear_exactly_the_changes (initial : Json) (ops : List StoreOp)
    (hplain : ∀ p, .subscribeAt p ∈ ops → p.IsPlain) :
    ((ofState initial).run ops).active.Perm (lasting 0 ops) ∧
      ((ofState initial).run ops).subscriberCount = (lasting 0 ops).length ∧
      (∀ before after, ops = before ++ .subscribe :: after →
        let s := (ofState initial).run before
        let id := s.subscribe.1
        (ofState initial).heard id ops =
            changes s.state (after.takeWhile fun op => !op.ends id) ∧
          (ofState initial).heard id ops = s.subscribe.2.heard id after ∧
          s.subscribe.2.Serves id .root after) ∧
      ∀ before p after, ops = before ++ .subscribeAt p :: after →
        let s := (ofState initial).run before
        let id := (s.subscribeAt p).1
        (ofState initial).heard id ops =
            (changes s.state (after.takeWhile fun op => !op.ends id)).filterMap (changeAt? p) ∧
          (ofState initial).heard id ops = (s.subscribeAt p).2.heard id after ∧
          (s.subscribeAt p).2.Serves id p after := by
  have hactive : ((ofState initial).run ops).active.Perm (lasting 0 ops) :=
    active_run (ofState initial) ops
  refine ⟨hactive, ?_, ?_, ?_⟩
  · rw [← length_active, hactive.length_eq]
  · intro before after hops s id
    have hs : s.Orderly := (orderly_ofState initial).run before
    have hs' : s.subscribe.2.Orderly := hs.perform .subscribe
    have hserves : s.subscribe.2.Serves id .root after :=
      hs'.serves (Nat.le_refl _) (mem_active.mp (by simp [active, subscribe])) hs.places_subscribe
        after
    have hsince : (ofState initial).heard id ops = s.subscribe.2.heard id after := by
      rw [hops]
      exact heard_since (orderly_ofState initial) rfl
    refine ⟨?_, hsince, hserves⟩
    rw [hsince, hserves.calls, filterMap_changeAt?_root]
    rfl
  · intro before p after hops s id
    have hs : s.Orderly := (orderly_ofState initial).run before
    have hs' : (s.subscribeAt p).2.Orderly := hs.perform (.subscribeAt p)
    obtain ⟨q, hflat, hq, hplaces⟩ := hs.places_subscribeAt p
    have hserves : (s.subscribeAt p).2.Serves id q after :=
      hs'.serves (Nat.le_refl _) (mem_active.mp (by simp [active, subscribeAt])) hplaces after
    -- The path of an earlier subscriber reads the same values as the path of this one.
    have hmember : .subscribeAt q ∈ before ++ [.subscribeAt p] := by
      refine (interner_run (s := ofState initial) ?_).resolve_left (List.not_mem_nil)
      rw [run_append]
      exact hq
    have hp : p.IsPlain := hplain p (by simp [hops])
    have hqplain : q.IsPlain := by
      refine hplain q ?_
      rw [hops, List.append_cons]
      exact List.mem_append_left after hmember
    have hreads : changeAt? q = changeAt? p := changeAt?_eq_of_flat_eq hqplain hp hflat
    have hserves' : (s.subscribeAt p).2.Serves id p after :=
      { hserves with calls := by rw [hserves.calls, hreads] }
    have hsince : (ofState initial).heard id ops = (s.subscribeAt p).2.heard id after := by
      rw [hops]
      exact heard_since (orderly_ofState initial) rfl
    refine ⟨?_, hsince, hserves'⟩
    rw [hsince, hserves'.calls]
    rfl

private def names (first : String) : Json := .object [("names", .array [.text first])]

/-- Two subscribers that spell one path differently, of which the first leaves. -/
private def twoSpellings : List StoreOp :=
  [.subscribe, .subscribeAt ⟨[.key "names", .index 0]⟩, .subscribeAt ⟨[.key "names", .key "0"]⟩,
    .set (names "b"), .unsubscribe 2, .update fun _ => names "b", .set (names "c"), .drop 2]

theorem subscribers_hear_exactly_the_changes_of_a_name :
    (∀ p, .subscribeAt p ∈ twoSpellings → p.IsPlain) ∧
      ((ofState (names "a")).run twoSpellings).subscriberCount = 2 ∧
      (ofState (names "a")).heard 2 twoSpellings = [(.text "b", .text "a")] ∧
      (ofState (names "a")).heard 3 twoSpellings =
        [(.text "b", .text "a"), (.text "c", .text "b")] := by
  have hplain : ∀ p, .subscribeAt p ∈ twoSpellings → p.IsPlain := by
    intro p hp
    simp only [twoSpellings, List.mem_cons, StoreOp.subscribeAt.injEq, reduceCtorEq, false_or,
      List.not_mem_nil, or_false] at hp
    rcases hp with rfl | rfl <;> decide
  obtain ⟨-, hcount, -, hpaths⟩ :=
    subscribers_hear_exactly_the_changes (names "a") twoSpellings hplain
  refine ⟨hplain, hcount, ?_, ?_⟩
  · exact (hpaths [.subscribe] _ _ rfl).1
  · exact (hpaths [.subscribe, .subscribeAt ⟨[.key "names", .index 0]⟩] _ _ rfl).1

end Store

end SchemaForm
