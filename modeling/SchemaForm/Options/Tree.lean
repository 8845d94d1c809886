import SchemaForm.Options.Registry

set_option autoImplicit false
set_option relaxedAutoImplicit false

/-!
The options tree of a document. It has the paths of the document: a field leads to its options; a
collection to its options and, under their positions, to its rows; a row to its options and to its
cells. Nested schemas contribute at the level of their parent.
-/

namespace SchemaForm

namespace OptionRegistry

mutual

/-- The nodes that a field contributes to its level. -/
def fieldNodes (r : OptionRegistry) (view : View) (leaf : NodeKind) (schema : Schema) (data : Json)
    (parent : Option (Dictionary Json)) : Field → List (String × Json)
  | .nested _ _ fields child => levelNodes r view leaf ⟨fields, child⟩ data parent fields
  | .collection t fields child rows =>
    match t.id with
    | none => []
    | some id =>
      let options := r.evaluate
        ⟨.collection, schema, .collection t fields child rows, data, view, parent⟩
      let nodes := (data.rows id).zipIdx.map fun (row, n) =>
        let rowOptions := r.evaluate
          ⟨.row, ⟨fields, child⟩, .collection t fields child rows, row, view, some options⟩
        let cells := levelNodes r view .cell ⟨fields, child⟩ row (some rowOptions) fields
        (Nat.repr n, Json.object (Dictionary.overlay rowOptions (Dictionary.ofPairs cells)))
      [(id, .object (Dictionary.overlay options nodes))]
  | .input t kind =>
    match t.id with
    | none => []
    | some id => [(id, .object (r.evaluate ⟨leaf, schema, .input t kind, data, view, parent⟩))]
  | .group t inline =>
    match t.id with
    | none => []
    | some id => [(id, .object (r.evaluate ⟨leaf, schema, .group t inline, data, view, parent⟩))]

def levelNodes (r : OptionRegistry) (view : View) (leaf : NodeKind) (schema : Schema) (data : Json)
    (parent : Option (Dictionary Json)) : List Field → List (String × Json)
  | [] => []
  | f :: rest =>
    fieldNodes r view leaf schema data parent f ++ levelNodes r view leaf schema data parent rest

end

/-- The options tree of a document. Of several fields with one id the last counts. -/
def tree (r : OptionRegistry) (s : Schema) (doc : Json) (view : View) : Json :=
  .ofPairs (levelNodes r view .field s doc none s.fields)

end OptionRegistry

/-- Whether an option of the node at a path counts as true, none when there is no such option. -/
def optionFlag? (tree : Json) (p : Path) (name : String) : Option Bool :=
  ((tree.valueAt? p).bind fun node => node.get? name).map Json.truthy

end SchemaForm
