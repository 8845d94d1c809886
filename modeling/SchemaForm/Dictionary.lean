set_option autoImplicit false
set_option relaxedAutoImplicit false

/-!
Dictionaries with text keys, kept as a list of pairs in increasing key order. Each operation is
stated through `Dictionary.get?`, and holds for any list of pairs, ordered or not.
-/

namespace SchemaForm

/-- Pairs of keys and values in increasing key order. -/
abbrev Dictionary (α : Type) := List (String × α)

namespace Dictionary

variable {α : Type}

def get? : Dictionary α → String → Option α
  | [], _ => none
  | (k, v) :: rest, key => if k = key then some v else get? rest key

def has (d : Dictionary α) (key : String) : Bool := (get? d key).isSome

/-- Puts a new pair in front of the first greater key. -/
def place (key : String) (value : α) : Dictionary α → Dictionary α
  | [] => [(key, value)]
  | (k, v) :: rest =>
    if key < k then (key, value) :: (k, v) :: rest else (k, v) :: place key value rest

/-- Gives the first pair of a key another value. -/
def replace (key : String) (value : α) : Dictionary α → Dictionary α
  | [] => []
  | (k, v) :: rest => if k = key then (k, value) :: rest else (k, v) :: replace key value rest

def insert (d : Dictionary α) (key : String) (value : α) : Dictionary α :=
  if has d key then replace key value d else place key value d

def erase (d : Dictionary α) (key : String) : Dictionary α := d.filter fun pair => pair.1 ≠ key

/-- Sets the values of all keys of a second dictionary. -/
def overlay (d e : Dictionary α) : Dictionary α :=
  e.foldl (fun acc pair => insert acc pair.1 pair.2) d

/-- The dictionary of a list of pairs, a later pair winning over an earlier one of the same key. -/
def ofPairs (pairs : List (String × α)) : Dictionary α := overlay [] pairs

def keys (d : Dictionary α) : List String := d.map Prod.fst

end Dictionary

end SchemaForm
