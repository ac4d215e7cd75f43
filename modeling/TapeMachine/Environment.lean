import TapeMachine.EnvFile
import TapeMachine.Utf8

/-!
The environment: variables with values. Variables of a file are added to it, but never change one that
is already there.
-/
namespace TapeMachine

abbrev Environment := List (String × String)

inductive VariableError where
  | illegalName
  | embeddedNull
  deriving DecidableEq, Repr

def VariableError.message : VariableError → String
  | .illegalName => "illegal environment variable name"
  | .embeddedNull => "embedded null byte"

namespace Environment

def get? (env : Environment) (name : String) : Option String := env.lookup name

/-- Sets a variable of a file. A variable that has a value keeps it. -/
def define (env : Environment) (name value : String) : Except VariableError Environment :=
  if (env.get? name).isSome then .ok env
  else if name.toList.contains '\x00' || value.toList.contains '\x00' then .error .embeddedNull
  else if name.toList.contains '=' then .error .illegalName
  else .ok (env ++ [(name, value)])

/-- The values of the names in a file. A reference looks at the environment first, then at the names
before it in the file. A name without a value counts as unset. -/
def fileValues (env : Environment) (text : String) : List (String × Option String) :=
  (EnvFile.parse text).foldl (fun known (_, s) =>
    match s with
    | .assign name value =>
      let lookup (n : String) : Option String :=
        match env.get? n with
        | some v => some v
        | none => (known.lookup n).map (·.getD "")
      insert name (value.map (EnvFile.expand lookup)) known
    | _ => known) []
where
  /-- A name that is already listed keeps its place. -/
  insert (name : String) (value : Option String) :
      List (String × Option String) → List (String × Option String)
    | [] => [(name, value)]
    | (n, v) :: rest => if n = name then (n, value) :: rest else (n, v) :: insert name value rest

def switchOff : String := "PYTHON_DOTENV_DISABLED"

/-- The characters beyond ASCII that are ASCII letters once case is ignored. -/
def foldings : List (Nat × String) :=
  [(0xDF, "ss"), (0x17F, "s"), (0x1E9E, "ss"), (0x212A, "k"), (0xFB00, "ff"), (0xFB01, "fi"),
    (0xFB02, "fl"), (0xFB03, "ffi"), (0xFB04, "ffl"), (0xFB05, "st"), (0xFB06, "st")]

/-- A character as it is compared with ASCII letters when case is ignored. -/
def foldCase (c : Char) : List Char :=
  match foldings.lookup c.toNat with
  | some letters => letters.toList
  | none => [c.toLower]

def filesOff (env : Environment) : Bool :=
  match env.get? switchOff with
  | some v => ["1", "true", "t", "yes", "y"].contains (String.ofList (v.toList.flatMap foldCase))
  | none => false

/-- Adds the variables that have values, up to the first that cannot be set. -/
def defineAll (env : Environment) :
    List (String × Option String) → Environment × Option VariableError
  | [] => (env, none)
  | (_, none) :: rest => defineAll env rest
  | (name, some value) :: rest =>
    match env.define name value with
    | .ok env => defineAll env rest
    | .error e => (env, some e)

end Environment

/-- The files that may hold variables: that of the program itself, and those of the working directory
and the directories above it, nearest first. -/
structure EnvFiles where
  project : Option (List UInt8) := none
  search : List (Option (List UInt8)) := []

/-- The one file that is read: that of the program if there is one, otherwise the nearest. -/
def EnvFiles.chosen (files : EnvFiles) : Option (List UInt8) :=
  files.project.or (files.search.findSome? id)

/-- The environment after a file was read, the lines of the statements that could not be read, and the
variable that could not be set, if there was one. -/
structure LoadedEnvironment where
  env : Environment
  malformed : List Nat
  error : Option VariableError

namespace Environment

/-- The text that is read: that of the chosen file, unless there is none or files are not read. -/
def textOf (env : Environment) (files : EnvFiles) : Except Utf8.DecodeError (Option String) :=
  match files.chosen with
  | none => .ok none
  | some bytes =>
    if env.filesOff then .ok none
    else
      match Utf8.decode bytes with
      | .ok chars => .ok (some (String.ofList chars))
      | .error e => .error e

def addText (env : Environment) : Option String → LoadedEnvironment
  | none => ⟨env, [], none⟩
  | some text =>
    let (after, error) := env.defineAll (env.fileValues text)
    ⟨after, EnvFile.malformedLines text, error⟩

end Environment

def EnvFile.warning (line : Nat) : String :=
  s!"python-dotenv could not parse statement starting at line {line}\n"

end TapeMachine
