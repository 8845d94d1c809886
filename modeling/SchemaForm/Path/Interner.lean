import SchemaForm.Path.Basic

set_option autoImplicit false
set_option relaxedAutoImplicit false

/-!
An interner keeps one path for each flat form: the first that was interned. A token is the place of
that path, so two tokens are the same exactly when their flat forms are equal.
-/

namespace SchemaForm

/-- The interned paths in order of arrival. -/
structure Interner where
  paths : List Path
  deriving DecidableEq

namespace Interner

def empty : Interner := ⟨[]⟩

def size (i : Interner) : Nat := i.paths.length

/-- The token of a flat form. -/
def find? (i : Interner) (flat : String) : Option Nat := i.paths.findIdx? fun p => p.flat == flat

/-- The token of a path, which is interned if its flat form is new. -/
def intern (i : Interner) (p : Path) : Nat × Interner :=
  match i.find? p.flat with
  | some token => (token, i)
  | none => (i.size, ⟨i.paths ++ [p]⟩)

def path? (i : Interner) (token : Nat) : Option Path := i.paths[token]?

end Interner

end SchemaForm
