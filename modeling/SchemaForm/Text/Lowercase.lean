import SchemaForm.Text.CaseTable

set_option autoImplicit false
set_option relaxedAutoImplicit false

/-!
Lower case of a text: every character by the Unicode table, except that a capital sigma at the end
of a word becomes the final sigma and that a dotted capital I becomes an i with a dot above.
-/

namespace SchemaForm.Text

def inRanges (ranges : List (Nat × Nat)) (n : Nat) : Bool :=
  ranges.any fun r => r.1 ≤ n && n ≤ r.2

def isCased (c : Char) : Bool := inRanges CaseTable.casedRanges c.toNat

/-- Whether a character is skipped when looking for cased characters around it. -/
def isCaseIgnorable (c : Char) : Bool := inRanges CaseTable.ignorableRanges c.toNat

/-- Whether the first character that is not skipped is cased. -/
def meetsCased (cs : List Char) : Bool :=
  match cs.dropWhile isCaseIgnorable with
  | c :: _ => isCased c
  | [] => false

/-- The lower case form of a character on its own. -/
def lowerChar (c : Char) : List Char :=
  if c.toNat < 128 then
    [c.toLower]
  else if c = 'İ' then
    ['i', Char.ofNat 0x307]
  else
    match CaseTable.lowerShifts.find? fun s =>
        s.first ≤ c.toNat && c.toNat ≤ s.last && (c.toNat - s.first) % s.step == 0 with
    | some s => [Char.ofNat ((c.toNat : Int) + s.shift).toNat]
    | none => [c]

/-- Lower case of the rest of a text, with the characters before it in reverse. A sigma ends a word
when something cased comes before it and nothing cased after it. -/
def lowerFrom (before : List Char) : List Char → List Char
  | [] => []
  | c :: rest =>
    let form :=
      if c = 'Σ' then
        [if meetsCased before && !meetsCased rest then 'ς' else 'σ']
      else
        lowerChar c
    form ++ lowerFrom (c :: before) rest

def toLower (s : String) : String := String.ofList (lowerFrom [] s.toList)

/-- Whether `needle` occurs in a text. -/
def occursIn (needle : List Char) : List Char → Bool
  | [] => needle.isEmpty
  | c :: rest => needle.isPrefixOf (c :: rest) || occursIn needle rest

def contains (haystack needle : String) : Bool := occursIn needle.toList haystack.toList

end SchemaForm.Text
