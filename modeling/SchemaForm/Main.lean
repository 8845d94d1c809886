import SchemaForm.Run

set_option autoImplicit false
set_option relaxedAutoImplicit false

/-!
The program. It takes the files it is asked to read into a tree, runs, and writes back what the run
has written.
-/

namespace SchemaForm

/-- Takes a file into a tree, if it can be read. -/
def takeFile (t : FileTree) (name : String) : IO FileTree := do
  match ← (IO.FS.readBinFile name).toBaseIO with
  | .ok bytes => return (t.writeWithParent name bytes.toList).2
  | .error _ => return t

/-- Writes the directories and files of a tree that are not in another one. -/
def writeBack (before after : FileTree) : IO Unit := do
  for (place, node) in after.nodes do
    if before.node? place ≠ some node then
      match node with
      | .directory => IO.FS.createDirAll place
      | .file bytes => IO.FS.writeBinFile place ⟨bytes.toArray⟩

/-- The values of the environment variables that name a place for settings. -/
def environment : IO (String → Option String) := do
  let names := ["PGFORM_CONFIG_DIR", "XDG_CONFIG_HOME", "HOME"]
  let values ← names.mapM fun name => do return (name, ← IO.getEnv name)
  return fun name => (values.lookup name).getD none

end SchemaForm

open SchemaForm in
/-- Runs the program on the arguments of its command line. -/
def main (args : List String) : IO UInt32 := do
  match CommandLine.parse? args with
  | none =>
    IO.eprintln "usage: pgform [OPTIONS] <SCHEMA>"
    return 2
  | some c =>
    let env ← environment
    let settingsName := c.settings.or (Settings.fileName env).toOption
    let names := c.schema :: (c.data.toList ++ c.script.toList ++ settingsName.toList)
    let files ← names.foldlM takeFile FileTree.empty
    match c.readSettings env files with
    | .error e =>
      IO.eprintln e.message
      return 1
    | .ok settings =>
      let run := Run.start c settings files ⟨0⟩
      writeBack files run.files
      match run.report with
      | .ok report =>
        IO.println report.pretty
        return 0
      | .error e =>
        IO.eprintln e.message
        return 1
