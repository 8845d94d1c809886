import SchemaForm.Dependency

set_option autoImplicit false
set_option relaxedAutoImplicit false

/-!
The listeners that a schema asks for in a document. Every field with a recomputation listens to its
own location and to those it depends on, in every row of the collections it lies in. The listeners
only have to be made anew when the number of rows of some collection has changed.
-/

namespace SchemaForm

namespace Wiring

mutual

/-- The flat path of a field that is a collection with the number of its rows, and those of the
collections in its rows. -/
def fieldRowCounts (data : Json) (access : Path) : Field → List (String × Nat)
  | .nested _ _ fields _ => rowCounts data access fields
  | .collection t fields _ _ =>
    match t.id with
    | none => []
    | some id =>
      let path := access.key id
      (path.flat, (data.rows id).length) ::
        ((data.rows id).zipIdx.flatMap fun (row, n) => rowCounts row (path.index n) fields)
  | .input _ _ | .group _ _ => []

def rowCounts (data : Json) (access : Path) : List Field → List (String × Nat)
  | [] => []
  | f :: rest => fieldRowCounts data access f ++ rowCounts data access rest

end

/-- The listeners of a field itself. -/
def ownListeners (t : FieldTraits) (access dest : Path) : List Listener :=
  if t.recompute.isSome || t.defer.isSome then
    (dest :: t.dependencies.map fun d => d.resolve access).map fun source =>
      ⟨source, dest, t.recompute, t.defer⟩
  else
    []

mutual

/-- The listeners that a field asks for. -/
def fieldListeners (data : Json) (access : Path) : Field → List Listener
  | .nested _ _ fields _ => listeners data access fields
  | .collection t fields _ _ =>
    match t.id with
    | none => []
    | some id =>
      ownListeners t access (access.key id) ++
        ((data.rows id).zipIdx.flatMap fun (row, n) =>
          listeners row ((access.key id).index n) fields)
  | .input t _ | .group t _ =>
    match t.id with
    | none => []
    | some id => ownListeners t access (access.key id)

def listeners (data : Json) (access : Path) : List Field → List Listener
  | [] => []
  | f :: rest => fieldListeners data access f ++ listeners data access rest

end

end Wiring

namespace Schema

def rowCounts (s : Schema) (doc : Json) : List (String × Nat) := Wiring.rowCounts doc .root s.fields

def graph (s : Schema) (doc : Json) : DependencyGraph := ⟨Wiring.listeners doc .root s.fields⟩

end Schema

end SchemaForm
