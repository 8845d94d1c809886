import SchemaForm.CommandLine
import SchemaForm.File.Csv
import SchemaForm.File.Schema
import SchemaForm.Form.Session
import SchemaForm.Grid.Basic
import SchemaForm.Script
import SchemaForm.Settings

set_option autoImplicit false
set_option relaxedAutoImplicit false

/-!
One run of the program: a form is made from the schema, the script is played on it, its collections
are shown as grids and exported, its changes are saved, and all is reported.
-/

namespace SchemaForm

/-- Why a run ends without a report. -/
inductive RunError where
  | settings (e : SettingsError)
  | schema (e : SchemaFileError)
  | script (e : ScriptError)
  | form (e : FormError)
  | grid (e : NotACollection)
  | csv (e : WriteError)
  deriving DecidableEq

/-- The end of a run: its report, and the files as they are then. -/
structure Run where
  report : Except RunError Json
  files : FileTree

namespace RunError

def message : RunError → String
  | .settings e => e.message
  | .schema e => e.message
  | .script e => e.message
  | .form e => e.message
  | .grid e => e.message
  | .csv e => e.message

end RunError

namespace CommandLine

/-- The settings of a run: those of the file that is asked for, or of the user's own file. -/
def readSettings (c : CommandLine) (lookup : String → Option String) (t : FileTree) :
    Except RunError Settings :=
  let read (name : String) : Except RunError Settings :=
    match t.readSettings name with
    | .ok s => .ok s
    | .error e => .error (.settings e)
  match c.settings, Settings.fileName lookup with
  | some name, _ => read name
  | none, .ok name => read name
  | none, .error _ => .ok .default

def view (c : CommandLine) (s : Settings) : View :=
  match c.mode with
  | some mode => { s.view with mode := mode }
  | none => s.view

end CommandLine

namespace Run

mutual

/-- The id of a field that is a collection, or those of the collections in a nested schema. -/
def fieldCollectionIds : Field → List String
  | .collection t _ _ _ => t.id.toList
  | .nested _ _ fields _ => collectionIds fields
  | .input _ _ | .group _ _ => []

/-- The ids of the collections on the top level of a document. -/
def collectionIds : List Field → List String
  | [] => []
  | f :: rest => fieldCollectionIds f ++ collectionIds rest

end

/-- A grid as it is reported. -/
def gridReport (g : Grid) (rows : List GridRow) : Json :=
  .ofPairs [("label", .text g.label), ("columns", .array (g.columns.map Column.toJson)),
    ("config", g.settings.toJson), ("rows", .array (rows.map GridRow.toJson))]

/-- Exports the rows of a grid that are shown: whether that went well, and the files. -/
def exportGrid (t : FileTree) (directory id : String) (g : Grid) (rows : List GridRow) :
    Except WriteError Unit × FileTree :=
  let headers := g.columns.filterMap Column.fieldId?
  t.writeExport (FileName.join directory (id ++ ".csv"))
    (Bytes.ofText (Csv.table headers (rows.map GridRow.values)))

/-- Shows collections as grids, exporting each if that is asked for: the reports with their ids, and
the files. -/
def showGrids (c : CommandLine) (f : Form) :
    List String → FileTree → Except RunError (List (String × Json)) × FileTree
  | [], t => (.ok [], t)
  | id :: rest, t =>
    match Grid.ofPath f.schema (.parse id) .builtin with
    | .error e => (.error (.grid e), t)
    | .ok g =>
      let g := (g.withSearch c.search).refresh f
      let rows := g.rendered f
      let exported := match c.exportCsv with
        | some directory => exportGrid t directory id g rows
        | none => (.ok (), t)
      match exported with
      | (.error e, t) => (.error (.csv e), t)
      | (.ok (), t) =>
        let (reports, t) := showGrids c f rest t
        (reports.map fun reports => (id, gridReport g rows) :: reports, t)

/-- Saves the changes of a form, if that is asked for: the form, what was saved, and the files. -/
def save (c : CommandLine) (f : Form) (t : FileTree) : Form × Except RunError Json × FileTree :=
  match c.save with
  | none => (f, .ok .null, t)
  | some name =>
    let (written, t) := t.writePayload name f.isNew (f.changes true)
    let failure := match written with
      | .ok () => none
      | .error e => some e.message
    match f.save failure with
    | (f, .ok payload) => (f, .ok payload, t)
    | (f, .error e) => (f, .error (.form e), t)

/-- The form of a run after its script, given the files it reads. -/
def form (c : CommandLine) (s : Settings) (t : FileTree) (ids : RowIds) : Except RunError Form :=
  match t.readSchema c.schema with
  | .error e => .error (.schema e)
  | .ok schema =>
    match c.script.elim (.ok []) t.readScript with
    | .error e => .error (.script e)
    | .ok actions =>
      let start := Form.start schema (c.view s) .builtin .empty ids
      match (actions.foldl Form.dispatch start).initialise false (c.data.map t.load) with
      | .error e => .error (.form e)
      | .ok f => .ok f.applyDeferred.2

def reportJson (f : Form) (changes saved : Json) (grids : List (String × Json)) : Json :=
  .ofPairs [("mode", .text f.view.mode.text), ("is_new", .bool f.isNew), ("ui", f.ui.toJson),
    ("data", f.session.doc), ("options", f.options.state), ("changes", changes),
    ("grids", .ofPairs grids), ("saved", saved)]

/-- Runs the program. -/
def start (c : CommandLine) (s : Settings) (t : FileTree) (ids : RowIds) : Run :=
  match form c s t ids with
  | .error e => ⟨.error e, t⟩
  | .ok f =>
    match showGrids c f (collectionIds f.schema.fields) t with
    | (.error e, t) => ⟨.error e, t⟩
    | (.ok grids, t) =>
      match save c f t with
      | (_, .error e, t) => ⟨.error e, t⟩
      | (g, .ok saved, t) => ⟨.ok (reportJson g (f.changes false) saved grids), t⟩

end Run

end SchemaForm
