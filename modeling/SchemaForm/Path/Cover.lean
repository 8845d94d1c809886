import SchemaForm.Path.Basic

set_option autoImplicit false
set_option relaxedAutoImplicit false

/-!
When one path covers another. The test works on flat forms and only matches whole segments, so
`shared` does not cover `shared_username`.
-/

namespace SchemaForm

namespace Path

/-- Whether a text ends here or goes on with a dot. -/
def endsOrDot : List Char → Bool
  | [] => true
  | c :: _ => c == '.'

/-- Whether a flat form is another one, or goes on behind it with a dot. The empty one covers
everything. -/
def charsCover (short long : List Char) : Bool :=
  short.isEmpty || (short.isPrefixOf long && endsOrDot (long.drop short.length))

def flatCovers (short long : String) : Bool := charsCover short.toList long.toList

/-- Whether a path is another path or leads to it. -/
def covers (p q : Path) : Bool := charsCover p.flatChars q.flatChars

end Path

end SchemaForm
