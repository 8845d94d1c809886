import SchemaForm.Grid.Basic
import SchemaForm.Proofs.Form.Operation

set_option autoImplicit false
set_option relaxedAutoImplicit false

/-!
Calls of a grid, and what each leaves of the form: one that is refused leaves it as it is, and one
that succeeds has dispatched a single action.
-/

namespace SchemaForm

/-- An attempt to change a form, or what is open, through a grid. -/
inductive GridCall where
  | addRow
  | deleteRow (position : Nat)
  | moveRow (source target : Nat)
  | toggleExpanded (position : Nat)
  | changeCell (position : Nat) (column : String) (value : Json)

namespace Grid

open OptionName

/-- The answer to a call. -/
def attempt (g : Grid) (f : Form) : GridCall → Attempt
  | .addRow => g.addRow f
  | .deleteRow position => g.deleteRow f position
  | .moveRow source target => g.moveRow f source target
  | .toggleExpanded position =>
    let (opened, g) := g.toggleExpanded f position
    ⟨opened, g, f⟩
  | .changeCell position column value =>
    let (written, f) := g.changeCell f position column value
    ⟨written, g, f⟩

def answers (g : Grid) (f : Form) : List GridCall → List Bool × Form
  | [] => ([], f)
  | call :: calls =>
    let first := g.attempt f call
    let (later, last) := first.grid.answers first.form calls
    (first.succeeded :: later, last)

theorem refresh_path {f : Form} {g : Grid} : (g.refresh f).path = g.path := rfl

/-- What a call dispatches, and what has to allow it. -/
inductive Dispatches (g : Grid) (f : Form) : GridCall → Action → Prop
  | addRow (hflag : (g.collectionOptions f).flag canAddRow = true) :
      Dispatches g f .addRow (.addRow g.path
        ((⟨g.collection.fields, g.collection.schema⟩ : Schema).newRow .null)
        ((g.collectionOptions f).flag addOnTop))
  | deleteRow {n : Nat} (hn : n < (g.rows f).length)
      (hfixed : (g.refresh f).settings.fixedRows ≤ n) :
      Dispatches g f (.deleteRow n) (.deleteRow g.path n)
  | moveRow {m n : Nat} (hm : m < (g.rows f).length) (hn : n < (g.rows f).length)
      (hfixed : (g.refresh f).settings.fixedRows ≤ m)
      (hfixed' : (g.refresh f).settings.fixedRows ≤ n) :
      Dispatches g f (.moveRow m n) (.moveRow g.path m n)
  | changeCell {n : Nat} {column : String} {value own : Json}
      (hown : (rowOptions (g.collectionOptions f) n).get? column = some own)
      (hthere : own.isNull = false) :
      Dispatches g f (.changeCell n column value) (g.setCell n column value)

variable (g : Grid) (f : Form)

theorem addRow_of_shut (hflag : (g.collectionOptions f).flag canAddRow = false) :
    g.addRow f = ⟨false, g, f⟩ := by
  simp [addRow, hflag]

theorem addRow_of_open (hflag : (g.collectionOptions f).flag canAddRow = true) :
    (g.addRow f).succeeded = true ∧ (g.addRow f).form = f.dispatch (.addRow g.path
      ((⟨g.collection.fields, g.collection.schema⟩ : Schema).newRow .null)
      ((g.collectionOptions f).flag addOnTop)) := by
  simp only [addRow, hflag, if_true]
  split
  · split <;> exact ⟨rfl, rfl⟩
  · exact ⟨rfl, rfl⟩

/-- A call only opens or closes a row, or it is refused, or it dispatches a single action. -/
theorem attempt_cases (call : GridCall) :
    ((g.attempt f call).form = f ∧
      ((g.attempt f call).succeeded = false ∨ ∃ n, call = .toggleExpanded n)) ∨
    ((g.attempt f call).succeeded = true ∧
      ∃ action, g.Dispatches f call action ∧ (g.attempt f call).form = f.dispatch action) := by
  cases call with
  | addRow =>
    cases hflag : (g.collectionOptions f).flag canAddRow with
    | false =>
      rw [attempt, addRow_of_shut g f hflag]
      exact .inl ⟨rfl, .inl rfl⟩
    | true =>
      obtain ⟨hsucceeded, hform⟩ := addRow_of_open g f hflag
      exact .inr ⟨hsucceeded, _, .addRow hflag, hform⟩
  | deleteRow n =>
    simp only [attempt, deleteRow]
    cases hrow : ((g.refresh f).rows f)[n]? with
    | none => exact .inl ⟨rfl, .inl rfl⟩
    | some row =>
      dsimp only
      split
      · rename_i hallowed
        rw [Bool.and_eq_true, Bool.and_eq_true, decide_eq_true_eq] at hallowed
        obtain ⟨hn, -⟩ := List.getElem?_eq_some_iff.mp hrow
        refine .inr ⟨rfl, _, .deleteRow hn hallowed.1.2, ?_⟩
        cases RowId.of? row <;> rfl
      · exact .inl ⟨rfl, .inl rfl⟩
  | moveRow m n =>
    simp only [attempt, moveRow]
    split
    · rename_i hallowed
      refine .inr ⟨hallowed, ?_⟩
      simp only [Bool.and_eq_true, decide_eq_true_eq] at hallowed
      obtain ⟨⟨⟨⟨-, hm⟩, hn⟩, hfixed⟩, hfixed'⟩ := hallowed
      exact ⟨_, .moveRow hm hn hfixed hfixed', rfl⟩
    · rename_i hrefused
      exact .inl ⟨rfl, .inl (Bool.not_eq_true _ ▸ hrefused)⟩
  | toggleExpanded n => exact .inl ⟨rfl, .inr ⟨n, rfl⟩⟩
  | changeCell n column value =>
    simp only [attempt, changeCell]
    split
    · exact .inl ⟨rfl, .inl rfl⟩
    · rename_i hallowed
      refine .inr ⟨rfl, _, ?_, rfl⟩
      cases hown : (rowOptions (g.collectionOptions f) n).get? column with
      | none => simp [hown, Json.isNull] at hallowed
      | some own =>
        refine .changeCell hown ?_
        cases hnull : own.isNull with
        | false => rfl
        | true => simp [hown, hnull] at hallowed

theorem expand_frame (id : String) : (g.expand id).path = g.path ∧
    (g.expand id).collection = g.collection ∧ (g.expand id).features = g.features := by
  unfold expand
  split <;> exact ⟨rfl, rfl, rfl⟩

theorem attempt_grid (call : GridCall) :
    (g.attempt f call).grid.path = g.path ∧ (g.attempt f call).grid.collection = g.collection ∧
      (g.attempt f call).grid.features = g.features := by
  cases call with
  | addRow =>
    simp only [attempt, addRow]
    split
    · split
      · split
        · exact expand_frame _ _
        · exact ⟨rfl, rfl, rfl⟩
      · exact ⟨rfl, rfl, rfl⟩
    · exact ⟨rfl, rfl, rfl⟩
  | deleteRow n =>
    simp only [attempt, deleteRow]
    split
    · exact ⟨rfl, rfl, rfl⟩
    · split
      · split <;> exact ⟨rfl, rfl, rfl⟩
      · exact ⟨rfl, rfl, rfl⟩
  | moveRow m n => exact ⟨rfl, rfl, rfl⟩
  | toggleExpanded n =>
    simp only [attempt, toggleExpanded]
    split
    · exact ⟨rfl, rfl, rfl⟩
    · split
      · split
        · exact ⟨rfl, rfl, rfl⟩
        · exact expand_frame _ _
      · exact ⟨rfl, rfl, rfl⟩
  | changeCell n column value => exact ⟨rfl, rfl, rfl⟩

end Grid

end SchemaForm
