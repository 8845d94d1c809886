import Mathlib.Data.List.Pairwise
import SchemaForm.Proofs.Dependency.Frame
import SchemaForm.Proofs.Form.Draining

set_option autoImplicit false
set_option relaxedAutoImplicit false

/-!
Deferred recomputations that keep out of each other's way. Each of them lays its answer over the
object at one level, and does nothing where there is none. If the members that two of them write lie
apart, and none of these leads to the level of the other, it does not matter which is done first:
neither makes, moves or removes an object for the other. So a queue of such recomputations comes to
one document in whatever order they are done.
-/

namespace SchemaForm

namespace Json

section Segments

variable {fields fields' : Dictionary Json} {v c : Json} {s t : Segment} {l l' : List Segment}

private theorem layOverAt_cons (hs : s.IsCanonical) (hchild : v.child? s = some c) :
    v.layOverAt fields (s :: l) = v.putBelow (v.stepOf s) (c.layOverAt fields l) := by
  have hbelow : v.below? (v.stepOf s) = some c := by rw [← child?_eq_below? hs, hchild]
  rw [layOverAt, layOverAt, modifyAtSegments?, modifyChild?_eq, hchild, readStep_eq_stepOf hs,
    Option.bind_some]
  cases modifyAtSegments? (layOver fields) c l with
  | none => exact (putBelow_self hbelow).symm
  | some c' => rfl

private theorem layOverAt_cons_of_none (hchild : v.child? s = none) :
    v.layOverAt fields (s :: l) = v := by
  rw [layOverAt, modifyAtSegments?, modifyChild?_eq, hchild]
  rfl

private theorem child?_layOverAt_cons_of_ne (hs : s.IsCanonical) (ht : t.IsCanonical)
    (hne : s ≠ t) :
    (v.layOverAt fields (s :: l)).child? t = v.child? t := by
  cases hchild : v.child? s with
  | none => rw [layOverAt_cons_of_none hchild]
  | some c => rw [layOverAt_cons hs hchild, child?_putBelow_stepOf hs ht hchild, if_neg hne]

private theorem layOverAt_nil (doc : Json) (l : List Segment) : doc.layOverAt [] l = doc := by
  refine modifyAt?_getD_of_same (p := ⟨l⟩) fun v _ => ?_
  cases v <;> rfl

private theorem layOver_layOverAt_cons (hs : s.IsCanonical)
    (hfresh : s.text ∉ Dictionary.keys fields) :
    layOver fields (v.layOverAt fields' (s :: l)) =
      (layOver fields v).layOverAt fields' (s :: l) := by
  have hkept : (layOver fields v).child? s = v.child? s := by
    cases v with
    | object members =>
      rw [layOver, child?_object, child?_object, Dictionary.get?_overlay_of_not_mem members hfresh]
    | _ => rfl
  cases hchild : v.child? s with
  | none => rw [layOverAt_cons_of_none hchild, layOverAt_cons_of_none (hkept.trans hchild)]
  | some c =>
    rw [layOverAt_cons hs hchild, layOverAt_cons hs (hkept.trans hchild)]
    cases v with
    | object members =>
      exact congrArg object (Dictionary.overlay_insert_left members fields hfresh _)
    | array items => cases s <;> rfl
    | _ => rfl

private theorem layOverAt_cons_layOverAt_cons (hs : s.IsCanonical) (hchild : v.child? s = some c) :
    (v.layOverAt fields (s :: l)).layOverAt fields' (s :: l') =
      v.putBelow (v.stepOf s) ((c.layOverAt fields l).layOverAt fields' l') := by
  have hthere (d : Json) : (v.putBelow (v.stepOf s) d).child? s = some d := by
    rw [child?_putBelow_stepOf hs hs hchild, if_pos rfl]
  rw [layOverAt_cons hs hchild, layOverAt_cons hs (hthere _), stepOf_putBelow, putBelow_putBelow]

private theorem layOverAt_cons_comm_of_ne (hs : s.IsCanonical) (ht : t.IsCanonical) (hne : s ≠ t) :
    (v.layOverAt fields (s :: l)).layOverAt fields' (t :: l') =
      (v.layOverAt fields' (t :: l')).layOverAt fields (s :: l) := by
  have hkept : (v.layOverAt fields (s :: l)).child? t = v.child? t :=
    child?_layOverAt_cons_of_ne hs ht hne
  have hkept' : (v.layOverAt fields' (t :: l')).child? s = v.child? s :=
    child?_layOverAt_cons_of_ne ht hs (Ne.symm hne)
  cases hchild : v.child? s with
  | none => rw [layOverAt_cons_of_none hchild, layOverAt_cons_of_none (hkept'.trans hchild)]
  | some c =>
    cases hchild' : v.child? t with
    | none => rw [layOverAt_cons_of_none (hkept.trans hchild'), layOverAt_cons_of_none hchild']
    | some d =>
      rw [layOverAt_cons ht (hkept.trans hchild'), layOverAt_cons hs (hkept'.trans hchild),
        layOverAt_cons hs hchild, layOverAt_cons ht hchild', stepOf_putBelow, stepOf_putBelow,
        putBelow_comm v (stepOf_ne hs ht hne v)]

/-- Laying over commutes at two places, if neither writes a member that leads to the other place,
and at one place they write different members. The induction is on the way that both go. -/
private theorem layOverAt_comm (hl : ∀ s ∈ l, s.IsCanonical) (hl' : ∀ s ∈ l', s.IsCanonical)
    (hother : ∀ key ∈ Dictionary.keys fields,
      ¬ l.map Segment.text ++ [key] <+: l'.map Segment.text)
    (hother' : ∀ key ∈ Dictionary.keys fields',
      ¬ l'.map Segment.text ++ [key] <+: l.map Segment.text)
    (hdisjoint : l = l' → ∀ key ∈ Dictionary.keys fields, key ∉ Dictionary.keys fields') :
    (v.layOverAt fields l).layOverAt fields' l' = (v.layOverAt fields' l').layOverAt fields l := by
  induction l generalizing v l' with
  | nil =>
    cases l' with
    | nil =>
      cases v with
      | object members =>
        exact congrArg object (Dictionary.overlay_comm members (hdisjoint rfl))
      | _ => rfl
    | cons t l' =>
      have hfresh : t.text ∉ Dictionary.keys fields := fun hkey => hother _ hkey (by simp)
      exact (layOver_layOverAt_cons (hl' t List.mem_cons_self) hfresh).symm
  | cons s l ih =>
    have hs : s.IsCanonical := hl s List.mem_cons_self
    cases l' with
    | nil =>
      have hfresh : s.text ∉ Dictionary.keys fields' := fun hkey => hother' _ hkey (by simp)
      exact layOver_layOverAt_cons hs hfresh
    | cons t l' =>
      by_cases hst : s = t
      · subst hst
        cases hchild : v.child? s with
        | none => simp only [layOverAt_cons_of_none hchild]
        | some c =>
          rw [layOverAt_cons_layOverAt_cons hs hchild, layOverAt_cons_layOverAt_cons hs hchild]
          congr 1
          refine ih (fun s hs => hl s (List.mem_cons_of_mem _ hs))
            (fun s hs => hl' s (List.mem_cons_of_mem _ hs)) (fun key hkey h => ?_)
            (fun key hkey h => ?_) fun hsame => hdisjoint (hsame ▸ rfl)
          · exact hother key hkey (by simpa using h)
          · exact hother' key hkey (by simpa using h)
      · exact layOverAt_cons_comm_of_ne hs (hl' t List.mem_cons_self) hst

end Segments

end Json

/-! ### Pending recomputations -/

namespace Pending

/-- The recomputation gives one answer, whatever it is done with. -/
def Answers (p : Pending) (answer : Option (Dictionary Json)) : Prop :=
  ∀ level source doc ctx, p.deferral.recompute level source doc ctx = answer

/-- The paths of the members that an answer has for the level of the destination. -/
def written (p : Pending) (answer : Option (Dictionary Json)) : List Path :=
  (Dictionary.keys (answer.getD [])).map p.listener.level.key

/-- With their answers, two recomputations write members that do not lead to each other, nor to the
level of the other. Texts are compared, since an index and its numeral are one member of an
object. -/
def Independent (answer : Pending → Option (Dictionary Json)) (p q : Pending) : Prop :=
  (∀ r ∈ p.written (answer p), ∀ r' ∈ q.written (answer q), r.Apart r') ∧
  (∀ r ∈ p.written (answer p), ¬ r.texts <+: q.listener.level.texts) ∧
  ∀ r ∈ q.written (answer q), ¬ r.texts <+: p.listener.level.texts

instance (answer : Pending → Option (Dictionary Json)) (p q : Pending) :
    Decidable (Independent answer p q) :=
  inferInstanceAs (Decidable (_ ∧ _ ∧ _))

variable {answer : Pending → Option (Dictionary Json)} {p q : Pending}

instance : Std.Symm (Independent answer) where
  symm _ _ h := ⟨fun r hr r' hr' => (h.1 r' hr' r hr).symm, h.2.2, h.2.1⟩

def done (p : Pending) (doc : Json) : Json :=
  p.listener.apply p.deferral.recompute { p.context with before := doc } doc

private theorem done_eq (hanswers : p.Answers (answer p)) (doc : Json) :
    p.done doc = doc.layOverAt ((answer p).getD []) p.listener.level.segments := by
  rw [done, Listener.apply, hanswers]
  cases answer p with
  | none => exact (Json.layOverAt_nil doc _).symm
  | some fields => exact p.listener.patch_eq_layOverAt doc fields

private theorem Independent.done_comm (h : Independent answer p q)
    (hp : p.listener.dest.IsCanonical) (hq : q.listener.dest.IsCanonical)
    (hanswers : p.Answers (answer p)) (hanswers' : q.Answers (answer q)) (doc : Json) :
    q.done (p.done doc) = p.done (q.done doc) := by
  obtain ⟨hapart, hother, hother'⟩ := h
  have hwritten {p : Pending} {key : String} (hkey : key ∈ Dictionary.keys ((answer p).getD [])) :
      p.listener.level.key key ∈ p.written (answer p) := List.mem_map_of_mem hkey
  rw [done_eq hanswers, done_eq hanswers', done_eq hanswers', done_eq hanswers]
  refine Json.layOverAt_comm hp.level hq.level (fun key hkey => ?_) (fun key hkey => ?_) ?_
  · have hlevel := hother _ (hwritten hkey)
    rwa [Path.texts_key] at hlevel
  · have hlevel := hother' _ (hwritten hkey)
    rwa [Path.texts_key] at hlevel
  · intro hsame key hkey hkey'
    have htexts : (p.listener.level.key key).texts = (q.listener.level.key key).texts := by
      rw [Path.texts_key, Path.texts_key, Path.texts, Path.texts, hsame]
    exact (hapart _ (hwritten hkey) _ (hwritten hkey')).1 (htexts ▸ List.prefix_rfl)

end Pending

namespace Form

private theorem settledDoc_eq_of_perm {answer : Pending → Option (Dictionary Json)}
    {results results' : List Pending} (hperm : results.Perm results')
    (hdests : ∀ p ∈ results, p.listener.dest.IsCanonical)
    (hanswers : ∀ p ∈ results, p.Answers (answer p))
    (hindependent : results.Pairwise (Pending.Independent answer)) (doc : Json) :
    settledDoc doc results = settledDoc doc results' := by
  refine hperm.foldl_eq' (fun p hp q hq doc => ?_) doc
  by_cases hsame : p = q
  · rw [hsame]
  · have hboth : Pending.Independent answer p q := hindependent.forall hp hq hsame
    exact hboth.done_comm (hdests p hp) (hdests q hq) (hanswers p hp) (hanswers q hq) doc

private theorem dispatch_of_waiting {f : Form} (hwaits : f.waiting ≠ none) (action : Action) :
    (f.dispatch action).session = f.session ∧ (f.dispatch action).waiting ≠ none := by
  obtain ⟨queue, hqueue⟩ := Option.ne_none_iff_exists'.mp hwaits
  rw [dispatch, hqueue]
  exact ⟨rfl, Option.some_ne_none _⟩

private theorem applyResults_session_of_waiting {f : Form} (hwaits : f.waiting ≠ none)
    (results : List Pending) : (f.applyResults results).session = f.session := by
  induction results generalizing f with
  | nil => rfl
  | cons p results ih =>
    obtain ⟨hsession, hstill⟩ := dispatch_of_waiting hwaits
      (.deferredDepChange p.listener p.deferral.recompute p.context)
    exact (ih hstill).trans hsession

private theorem settleDeferred_session_of_waiting {f : Form} (hwaits : f.waiting ≠ none)
    (order : CompletionOrder) : (f.settleDeferred order).2.session = f.session := by
  by_cases hempty : f.deferred = []
  · rw [settleDeferred, if_pos (List.isEmpty_iff.mpr hempty)]
  · obtain ⟨hsession, hstill⟩ :=
      dispatch_of_waiting (f := { f with deferred := [] }) hwaits .clearDeferredQueue
    rw [settleDeferred_of_pending hempty]
    exact (applyResults_session_of_waiting hstill _).trans hsession

/-- The queue of deferred recomputations may be done in any order, if each of them gives one answer
and no two of them get in each other's way: the members that one writes lead neither to members that
the other writes nor to the level of the other. It comes to the same session, whatever the document
is and whether or not there is an object at each level. -/
theorem independent_results_commute {f : Form} {answer : Pending → Option (Dictionary Json)}
    (hdests : ∀ p ∈ f.deferred, ∃ flat, p.listener.dest = .parse flat)
    (hanswers : ∀ p ∈ f.deferred, p.Answers (answer p))
    (hindependent : f.deferred.Pairwise (Pending.Independent answer))
    (order order' : CompletionOrder) :
    (f.settleDeferred order).2.session = (f.settleDeferred order').2.session := by
  cases hwaiting : f.waiting with
  | some queue =>
    have hwaits : f.waiting ≠ none := by simp [hwaiting]
    rw [settleDeferred_session_of_waiting hwaits, settleDeferred_session_of_waiting hwaits]
  | none =>
    have hparsed : ∀ p ∈ f.deferred, p.listener.dest.IsCanonical := by
      intro p hp
      obtain ⟨flat, hflat⟩ := hdests p hp
      exact hflat ▸ Path.isCanonical_parse flat
    -- Every order comes to what the order of the queue comes to.
    have hsession (order : CompletionOrder) : (f.settleDeferred order).2.session =
        ⟨settledDoc f.session.doc f.deferred,
          f.session.changeId + if f.deferred = [] then 0 else f.deferred.length + 1⟩ := by
      obtain ⟨-, -, hdoc, hcount⟩ := settleDeferred_spec hwaiting order
      have hperm := (order.arrange_perm f.deferred).symm
      rw [settledDoc_eq_of_perm hperm hparsed hanswers hindependent, ← hdoc, ← hcount]
    rw [hsession order, hsession order']

theorem independent_results_commute_order :
    let later (dest : String) (fields : Dictionary Json) : Pending :=
      ⟨⟨.root, .parse dest, none, none⟩, ⟨.setValue, .root, none, .empty⟩,
        ⟨0, fun _ _ _ _ => some fields⟩⟩
    let blank := start ⟨[], .plain⟩ (.ofMode .create) .empty .empty ⟨0⟩
    let f : Form := { blank with
      waiting := none
      session := ⟨.ofPairs [("order", .ofPairs [("lines", .array [.empty])])], 0⟩
      deferred := [later "order.lines.0.sum" [("sum", .ofNat 2)],
        later "order.note" [("note", .text "a")], later "client.name" [("name", .text "b")]] }
    let inQueue : CompletionOrder := ⟨id, fun queue => .refl queue⟩
    let backwards : CompletionOrder := ⟨List.reverse, List.reverse_perm⟩
    (f.settleDeferred inQueue).2.session = (f.settleDeferred backwards).2.session ∧
      (f.settleDeferred backwards).2.session.doc = .ofPairs [("order", .ofPairs
        [("lines", .array [.ofPairs [("sum", .ofNat 2)]]), ("note", .text "a")])] := by
  intro later blank f inQueue backwards
  let answer (p : Pending) : Option (Dictionary Json) :=
    p.deferral.recompute .null .root .null p.context
  have hdests : ∀ p ∈ f.deferred, ∃ flat, p.listener.dest = .parse flat := by
    simp only [f, List.forall_mem_cons]
    exact ⟨⟨"order.lines.0.sum", rfl⟩, ⟨"order.note", rfl⟩, ⟨"client.name", rfl⟩,
      List.forall_mem_nil _⟩
  have hanswers : ∀ p ∈ f.deferred, p.Answers (answer p) := by
    simp only [f, List.forall_mem_cons]
    exact ⟨fun _ _ _ _ => rfl, fun _ _ _ _ => rfl, fun _ _ _ _ => rfl, List.forall_mem_nil _⟩
  have hindependent : f.deferred.Pairwise (Pending.Independent answer) := by
    decide +kernel
  exact ⟨independent_results_commute hdests hanswers hindependent inQueue backwards,
    by decide +kernel⟩

end Form

end SchemaForm
