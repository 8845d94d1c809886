import Mathlib.Data.List.Basic
import SchemaForm.File.Csv

set_option autoImplicit false
set_option relaxedAutoImplicit false

/-!
Tables of comma-separated values are read back. Fields are divided by commas and records end with a
line feed, or with a return and a line feed. A field may stand between quotes, with each quote in it
doubled. A written table is read back as it was but for one thing: a text that is written without
quotes at the end of a line loses a return at its own end.
-/

namespace SchemaForm.Csv

/-! ### Reading -/

/-- Where a reader stands: in a field without quotes, between quotes, behind a quote that ends the
field unless another one follows, or behind such a quote and a return. -/
inductive Place where
  | bare
  | quoted
  | closed
  | returned
  deriving DecidableEq

/-- The text of a field without quotes at the end of a line. A return there belongs to the end of
the line. -/
def withoutReturn (text : List Char) : List Char :=
  if text.getLast? = some '\r' then text.dropLast else text

/-- Reads the records of a text, none if it is malformed, given the text of the field so far and the
fields of the record before it. -/
def readFrom (place : Place) (text : List Char) (record : List String) :
    List Char → Option (List (List String))
  | [] =>
    match place with
    | .bare =>
      some (if text = [] ∧ record = [] then [] else [record ++ [String.ofList text]])
    | .closed => some [record ++ [String.ofList text]]
    | .quoted | .returned => none
  | c :: rest =>
    match place with
    | .bare =>
      if c = ',' then
        readFrom .bare [] (record ++ [String.ofList text]) rest
      else if c = '\n' then
        (readFrom .bare [] [] rest).map
          ((record ++ [String.ofList (withoutReturn text)]) :: ·)
      else if c = '"' then
        if text = [] then readFrom .quoted [] record rest else none
      else
        readFrom .bare (text ++ [c]) record rest
    | .quoted =>
      if c = '"' then
        readFrom .closed text record rest
      else
        readFrom .quoted (text ++ [c]) record rest
    | .closed =>
      if c = '"' then
        readFrom .quoted (text ++ ['"']) record rest
      else if c = ',' then
        readFrom .bare [] (record ++ [String.ofList text]) rest
      else if c = '\n' then
        (readFrom .bare [] [] rest).map ((record ++ [String.ofList text]) :: ·)
      else if c = '\r' then
        readFrom .returned text record rest
      else
        none
    | .returned =>
      if c = '\n' then
        (readFrom .bare [] [] rest).map ((record ++ [String.ofList text]) :: ·)
      else
        none

def read? (s : String) : Option (List (List String)) := readFrom .bare [] [] s.toList

/-! ### Written fields -/

/-- A text that is written without quotes and ends with a return. -/
def LosesReturn (s : String) : Prop :=
  s.toList.any isSpecial = false ∧ s.toList.getLast? = some '\r'

instance (s : String) : Decidable (LosesReturn s) := by
  unfold LosesReturn
  infer_instance

/-- What is read of a text that was written at the end of a line. -/
def lastRead (s : String) : String :=
  if LosesReturn s then String.ofList s.toList.dropLast else s

def asRead : List String → List String
  | [] => []
  | [s] => [lastRead s]
  | s :: rest => s :: asRead rest

private theorem asRead_cons_cons (s next : String) (rest : List String) :
    asRead (s :: next :: rest) = s :: asRead (next :: rest) := rfl

/-- Where a reader stands behind a written text. -/
def placeBehind (s : String) : Place := if s.toList.any isSpecial then .closed else .bare

variable {record : List String} {rest : List Char}

private theorem readFrom_bare {s : List Char} (hs : s.any isSpecial = false) (text : List Char) :
    readFrom .bare text record (s ++ rest) = readFrom .bare (text ++ s) record rest := by
  induction s generalizing text with
  | nil => rw [List.nil_append, List.append_nil]
  | cons c s ih =>
    rw [List.any_cons, Bool.or_eq_false_iff] at hs
    obtain ⟨hc, hs⟩ := hs
    simp only [isSpecial, Bool.or_eq_false_iff, beq_eq_false_iff_ne] at hc
    obtain ⟨⟨hcomma, hquote⟩, hfeed⟩ := hc
    rw [List.cons_append, readFrom]
    simp only [if_neg hcomma, if_neg hquote, if_neg hfeed]
    rw [ih hs, List.append_assoc, List.singleton_append]

private theorem readFrom_quoted (s text : List Char) :
    readFrom .quoted text record
        ((s.flatMap fun c => if c = '"' then ['"', '"'] else [c]) ++ rest) =
      readFrom .quoted (text ++ s) record rest := by
  induction s generalizing text with
  | nil => rw [List.flatMap_nil, List.nil_append, List.append_nil]
  | cons c s ih =>
    rw [List.append_cons, ← ih, List.flatMap_cons, List.append_assoc]
    by_cases hc : c = '"'
    · subst hc
      rfl
    · rw [if_neg hc, List.singleton_append]
      simp only [readFrom, if_neg hc]

private theorem readFrom_encode (s : String) :
    readFrom .bare [] record ((encode s).toList ++ rest) =
      readFrom (placeBehind s) s.toList record rest := by
  rw [encode, placeBehind]
  cases hspecial : s.toList.any isSpecial with
  | false =>
    simp only [Bool.false_eq_true, if_false]
    rw [readFrom_bare hspecial, List.nil_append]
  | true =>
    simp only [if_true]
    rw [String.toList_ofList, List.cons_append, List.cons_append, List.append_assoc, readFrom]
    simp only [if_neg (show '"' ≠ ',' by decide), if_neg (show '"' ≠ '\n' by decide), if_true]
    rw [readFrom_quoted, List.nil_append, List.singleton_append, readFrom]
    simp only [if_true]

private theorem readFrom_comma (s : String) :
    readFrom (placeBehind s) s.toList record (',' :: rest) =
      readFrom .bare [] (record ++ [s]) rest := by
  rw [placeBehind]
  cases s.toList.any isSpecial <;> simp [readFrom, String.ofList_toList]

private theorem readFrom_feed (s : String) :
    readFrom (placeBehind s) s.toList record ('\n' :: rest) =
      (readFrom .bare [] [] rest).map ((record ++ [lastRead s]) :: ·) := by
  rw [placeBehind, lastRead]
  cases hspecial : s.toList.any isSpecial with
  | true => simp [readFrom, LosesReturn, hspecial, String.ofList_toList]
  | false =>
    by_cases hreturn : s.toList.getLast? = some '\r' <;>
      simp [readFrom, LosesReturn, hspecial, withoutReturn, hreturn, String.ofList_toList]

/-! ### Written records -/

private theorem readFrom_line {cells : List String} (hcells : cells ≠ []) :
    readFrom .bare [] record ((line cells).toList ++ rest) =
      (readFrom .bare [] [] rest).map ((record ++ asRead cells) :: ·) := by
  induction cells generalizing record with
  | nil => exact absurd rfl hcells
  | cons s cells ih =>
    cases cells with
    | nil =>
      rw [line, List.map_singleton, String.intercalate_singleton, String.toList_append,
        List.append_assoc, readFrom_encode, asRead]
      exact readFrom_feed s
    | cons next cells =>
      have hline : (line (s :: next :: cells)).toList =
          (encode s).toList ++ ',' :: (line (next :: cells)).toList := by
        simp [line, String.intercalate_cons_cons, String.toList_append]
      rw [hline, List.append_assoc, List.cons_append, readFrom_encode, readFrom_comma,
        ih (List.cons_ne_nil next cells), asRead_cons_cons, List.append_assoc,
        List.singleton_append]

private theorem readFrom_lines {records : List (List String)}
    (hrecords : ∀ cells ∈ records, cells ≠ []) :
    readFrom .bare [] [] (records.flatMap fun cells => (line cells).toList) =
      some (records.map asRead) := by
  induction records with
  | nil => rfl
  | cons cells records ih =>
    rw [List.flatMap_cons, readFrom_line (hrecords cells List.mem_cons_self),
      ih fun cells hcells => hrecords cells (List.mem_cons_of_mem _ hcells)]
    rfl

private theorem lastRead_eq_iff (s : String) : lastRead s = s ↔ ¬ LosesReturn s := by
  rw [lastRead]
  split
  case isFalse hkeeps => exact ⟨fun _ => hkeeps, fun _ => rfl⟩
  case isTrue hloses =>
    refine ⟨fun heq => ?_, fun hkeeps => absurd hloses hkeeps⟩
    have hlength := congrArg (fun s => s.toList.length) heq
    simp only [String.toList_ofList, List.length_dropLast] at hlength
    have hne : s.toList ≠ [] := by
      intro hnil
      rw [LosesReturn, hnil] at hloses
      exact absurd hloses.2 (by decide)
    have := List.length_pos_iff.mpr hne
    omega

private theorem asRead_eq_iff (cells : List String) :
    asRead cells = cells ↔ ∀ s, cells.getLast? = some s → ¬ LosesReturn s := by
  induction cells with
  | nil => simp [asRead]
  | cons s cells ih =>
    cases cells with
    | nil => simp [asRead, lastRead_eq_iff]
    | cons next cells =>
      rw [asRead_cons_cons, List.cons_inj_right, ih, List.getLast?_cons_cons]

private theorem toList_table (headers : List String) (rows : List Json) :
    (table headers rows).toList =
    (headers :: rows.map fun row => headers.map fun h => cellText (row.get? h)).flatMap
      fun cells => (line cells).toList := by
  rw [table, String.toList_append, String.toList_join, List.flatMap_cons, List.flatMap_map,
    List.flatMap_map]

/-- A written table is read as one record of headers and one of cells for every row, where a text
that is written without quotes at the end of a line has lost a return at its end. So it is read back
as it was just if there is no such text. -/
theorem read?_table_iff (headers : List String) (hheaders : headers ≠ []) (rows : List Json) :
    let records := headers :: rows.map fun row => headers.map fun h => cellText (row.get? h)
    read? (table headers rows) = some (records.map asRead) ∧
      (read? (table headers rows) = some records ↔
        ∀ record ∈ records, ∀ s, record.getLast? = some s → ¬ LosesReturn s) ∧
      ∀ value, cellText value = match value with
        | none | some .null => ""
        | some (.text s) => s
        | some v => v.compact := by
  intro records
  have hrecords : ∀ record ∈ records, record ≠ [] := by
    intro record hrecord
    rcases List.mem_cons.mp hrecord with rfl | hrecord
    · exact hheaders
    · obtain ⟨row, -, rfl⟩ := List.mem_map.mp hrecord
      exact fun hnil => hheaders (List.map_eq_nil_iff.mp hnil)
  have hread : read? (table headers rows) = some (records.map asRead) := by
    rw [read?, toList_table, readFrom_lines hrecords]
  refine ⟨hread, ?_, fun value => ?_⟩
  · have hself : records.map asRead = records ↔ ∀ record ∈ records, asRead record = record := by
      simpa using List.map_inj_left (l := records) (f := asRead) (g := id)
    rw [hread, Option.some_inj, hself]
    exact forall₂_congr fun record _ => asRead_eq_iff record
  · rcases value with _ | _ | _ | _ | _ | _ | _ <;> rfl

/-- Commas, quotes and line feeds are read back from any column, a return from any but the last, and
there if it stands between quotes. -/
theorem read?_table_iff_parts :
    let headers := ["code, old", "note"]
    let rows := [.ofPairs [("code, old", .text "a\r"), ("note", .text "\"b\"\r\n\r")],
      .ofPairs [("note", .array [.null, .text ","])], .ofPairs [("code, old", .bool true)]]
    read? (table headers rows) = some [headers, ["a\r", "\"b\"\r\n\r"], ["", "[null,\",\"]"],
      ["true", ""]] := by
  intro headers rows
  have hkept : ∀ record ∈ headers :: rows.map fun row => headers.map fun h => cellText (row.get? h),
      ∀ s, record.getLast? = some s → ¬ LosesReturn s := by decide
  exact (read?_table_iff headers (by decide) rows).2.1.mpr hkept

/-- A return at the end of the only column is read as part of the end of the line. -/
theorem table_loses_return :
    let rows := [.ofPairs [("name", .text "a\r")]]
    read? (table ["name"] rows) = some [["name"], ["a"]] ∧
      read? (table ["name"] rows) ≠
        some (["name"] :: rows.map fun row => ["name"].map fun h => cellText (row.get? h)) := by
  decide

end SchemaForm.Csv
