import SchemaForm.Dependency
import SchemaForm.RowId

set_option autoImplicit false
set_option relaxedAutoImplicit false

/-!
Actions and what they make of a document. A reduction takes one action: it changes the document,
lets the listeners recompute what depends on the change, and says what becomes of the queue of
deferred recomputations.
-/

namespace SchemaForm

/-- An action on a form. -/
inductive Action where
  | init (payload : Json)
  | setValue (path : Path) (value : Json)
  | addRow (path : Path) (row : Json) (onTop : Bool)
  | deleteRow (path : Path) (position : Nat)
  | moveRow (path : Path) (source target : Nat)
  /-- Sets a column to false in every row. -/
  | bulkUpdate (path : Path) (column : String)
  | clearDeferredQueue
  /-- Applies a deferred recomputation that is ready. -/
  | deferredDepChange (listener : Listener) (recompute : Recompute) (context : ActionContext)

/-- The live document and how many reductions made it. -/
structure Session where
  doc : Json
  changeId : Nat

/-- What becomes of the queue of deferred recomputations. -/
inductive QueueUpdate where
  | keep
  | push (added : List Pending)
  | clear

/-- The result of a reduction. -/
structure Reduction where
  session : Session
  queue : QueueUpdate
  ids : RowIds

namespace Action

def kind : Action → ActionKind
  | .init _ => .init
  | .setValue _ _ => .setValue
  | .addRow _ _ _ => .addRow
  | .deleteRow _ _ => .deleteRow
  | .moveRow _ _ _ => .moveRow
  | .bulkUpdate _ _ => .bulkUpdate
  | .clearDeferredQueue => .clearDeferredQueue
  | .deferredDepChange _ _ _ => .deferredDepChange

def path? : Action → Option Path
  | .setValue p _ | .addRow p _ _ | .deleteRow p _ | .moveRow p _ _ | .bulkUpdate p _ => some p
  | .deferredDepChange _ _ ctx => some ctx.path
  | .init _ | .clearDeferredQueue => none

end Action

namespace Rows

/-- The rows with one more, in front or at the end. -/
def add (rows : List Json) (row : Json) (onTop : Bool) : List Json :=
  if onTop then row :: rows else rows ++ [row]

/-- The rows with one moved to another position, if both positions exist. -/
def move? (rows : List Json) (source target : Nat) : Option (List Json) :=
  if source < rows.length ∧ target < rows.length then
    rows[source]?.map fun row => (rows.eraseIdx source).insertIdx target row
  else
    none

/-- A row with a column set to false. Other values are left alone. -/
def clearColumn (column : String) : Json → Json
  | .object members => .object (Dictionary.insert members column (.bool false))
  | v => v

/-- An array with a column of every row set to false. Other values are left alone. -/
def clearColumns (column : String) : Json → Json
  | .array rows => .array (rows.map (clearColumn column))
  | v => v

/-- A row with new identities for itself and the rows below it. -/
def stamped (ids : RowIds) (row : Json) : Json × RowIds :=
  match RowId.stampItems true ids [row] with
  | (row :: _, ids) => (row, ids)
  | ([], ids) => (.null, ids)

end Rows

/-- What an action makes of a session. -/
def reduce (g : DependencyGraph) (ids : RowIds) (s : Session) (action : Action) : Reduction :=
  let context (p : Path) (value : Json) : ActionContext := ⟨action.kind, p, some value, s.doc⟩
  let done (doc : Json) (queue : QueueUpdate) (ids : RowIds) : Reduction :=
    ⟨⟨doc, s.changeId + 1⟩, queue, ids⟩
  match action with
  | .init payload => done payload .keep ids
  | .setValue p value =>
    let doc := g.settle p (context p value) (s.doc.setAt p value)
    done doc (.push (g.deferred p (context p value) doc)) ids
  | .addRow p row onTop =>
    let (row, ids) := Rows.stamped ids row
    let doc := s.doc.setAt p (.array (Rows.add (s.doc.rowsAt p) row onTop))
    done (g.settle p (context p row) doc) .keep ids
  | .deleteRow p position =>
    let doc := s.doc.setAt p (.array ((s.doc.rowsAt p).eraseIdx position))
    done (g.settle p (context p (.ofNat position)) doc) .keep ids
  | .moveRow p source target =>
    match Rows.move? (s.doc.rowsAt p) source target with
    | some rows => done (s.doc.setAt p (.array rows)) .keep ids
    | none => done s.doc .keep ids
  | .bulkUpdate p column =>
    done ((s.doc.modifyAt? p (Rows.clearColumns column)).getD s.doc) .keep ids
  | .clearDeferredQueue => done s.doc .clear ids
  | .deferredDepChange listener f ctx =>
    done (listener.apply f { ctx with before := s.doc } s.doc) .keep ids

@[simp] theorem reduce_changeId (g : DependencyGraph) (ids : RowIds) (s : Session)
    (action : Action) : (reduce g ids s action).session.changeId = s.changeId + 1 := by
  cases action with
  | moveRow p source target =>
    simp only [reduce]
    split <;> rfl
  | _ => rfl

/-- Only writing a value can queue deferred recomputations. -/
theorem reduce_queue (g : DependencyGraph) (ids : RowIds) (s : Session) (action : Action)
    (h : action.kind ≠ .setValue) : (reduce g ids s action).queue =
      if action.kind = .clearDeferredQueue then .clear else .keep := by
  cases action with
  | setValue p value => exact absurd rfl h
  | moveRow p source target =>
    simp only [reduce]
    split <;> rfl
  | _ => rfl

end SchemaForm
