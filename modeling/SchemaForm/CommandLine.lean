import SchemaForm.Schema.View

set_option autoImplicit false
set_option relaxedAutoImplicit false

/-!
The command line: the file of the schema, and options with a value each.
-/

namespace SchemaForm

/-- What is asked for on the command line. -/
structure CommandLine where
  schema : String
  data : Option String
  script : Option String
  settings : Option String
  mode : Option Mode
  search : String
  save : Option String
  exportCsv : Option String
  deriving DecidableEq

namespace CommandLine

def optionNames : List String :=
  ["--data", "--script", "--settings", "--mode", "--search", "--save", "--export-csv"]

/-- Arguments told apart: options with their values, and the others. -/
structure Arguments where
  options : List (String × String)
  others : List String

/-- Whether an argument cannot be the value of an option. -/
def isFlag (arg : String) : Bool :=
  match arg.toList with
  | '-' :: _ :: _ => true
  | _ => false

/-- Splits an argument at its first equals sign. -/
def splitValue (arg : String) : String × Option String :=
  let name := arg.toList.takeWhile fun c => c != '='
  match arg.toList.drop name.length with
  | _ :: value => (String.ofList name, some (String.ofList value))
  | [] => (String.ofList name, none)

def Arguments.withOption (a : Arguments) (name value : String) : Arguments :=
  { a with options := (name, value) :: a.options }

/-- Tells arguments apart. Behind two dashes there are no options. -/
def arguments? : List String → Option Arguments
  | [] => some ⟨[], []⟩
  | arg :: rest =>
    if arg = "--" then
      some ⟨[], rest⟩
    else if isFlag arg then
      let (name, value) := splitValue arg
      if optionNames.contains name then
        match value, rest with
        | some value, rest => (arguments? rest).map fun a => a.withOption name value
        | none, value :: rest =>
          if isFlag value then none else (arguments? rest).map fun a => a.withOption name value
        | none, [] => none
      else
        none
    else
      (arguments? rest).map fun a => { a with others := arg :: a.others }

def Arguments.values (a : Arguments) (name : String) : List String :=
  a.options.filterMap fun option => if option.1 = name then some option.2 else none

/-- The value of an option that may be given once. -/
def Arguments.value? (a : Arguments) (name : String) : Option (Option String) :=
  match a.values name with
  | [] => some none
  | [value] => some (some value)
  | _ => none

/-- The value of an option that names a file or directory. It is not empty. -/
def Arguments.file? (a : Arguments) (name : String) : Option (Option String) :=
  (a.value? name).filter fun value => value != some ""

/-- Reads the arguments of the program, none when they are not as they should be. -/
def parse? (args : List String) : Option CommandLine := do
  let a ← arguments? args
  let [schema] := a.others | none
  if schema = "" then
    none
  else
    let mode ← match ← a.value? "--mode" with
      | none => some none
      | some name => (Mode.ofText? name).map some
    return {
      schema := schema
      data := ← a.file? "--data"
      script := ← a.file? "--script"
      settings := ← a.file? "--settings"
      mode := mode
      search := (← a.value? "--search").getD ""
      save := ← a.file? "--save"
      exportCsv := ← a.file? "--export-csv" }

end CommandLine

end SchemaForm
