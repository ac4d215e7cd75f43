import TapeMachine.Command.Path
import TapeMachine.Environment
import TapeMachine.Text.Quoted
import TapeMachine.Text.Surrogate

/-!
What a command finds around it: files, the bytes of its input, and variables.
-/
namespace TapeMachine

inductive FileFault where
  | missing
  | notDirectory
  | isDirectory
  | nullCharacter
  | surrogates (e : SurrogateError)
  deriving DecidableEq

def FileFault.message (path : Path) : FileFault → String
  | .missing => "[Errno 2] No such file or directory: " ++ path.toText.quoted
  | .notDirectory => "[Errno 20] Not a directory: " ++ path.toText.quoted
  | .isDirectory => "[Errno 21] Is a directory: " ++ path.toText.quoted
  | .nullCharacter => "embedded null byte"
  | .surrogates e => e.message

inductive Entry where
  | file (bytes : List UInt8)
  | directory
  deriving DecidableEq

structure World where
  entry : Path → Option Entry
  /-- Why no file can be written at a path. -/
  obstacle : Path → Option FileFault
  /-- The bytes of the standard input, in the blocks in which they arrive. -/
  input : List (List UInt8) := []
  env : Environment := []
  envFiles : EnvFiles := {}

namespace World

def read (w : World) (p : Path) : Except FileFault (List UInt8) :=
  match w.entry p with
  | some (.file bytes) => .ok bytes
  | some .directory => .error .isDirectory
  | none => .error .missing

end World

end TapeMachine
