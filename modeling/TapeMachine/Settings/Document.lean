import TapeMachine.Newline
import TapeMachine.Settings.Layers
import TapeMachine.Value.Key
import TapeMachine.Yaml.Document

/-!
Settings from a document, a YAML text whose mapping sets fields. Its keys are looked at before anything
else is loaded.
-/
namespace TapeMachine.Settings

def isField : Value → Bool
  | .text t => fieldNames.any fun name => t = Text.ofString name
  | _ => false

/-- The entries of a document's mapping, all of them fields. An empty document has none. -/
def documentEntries : Value → Except LoadError (List (Value × Value))
  | .null => .ok []
  | .mapping entries =>
    let unknown := (entries.map (·.1)).filter fun k => !isField k
    if unknown.isEmpty then .ok entries
    else
      match Value.sortKeys? unknown with
      | some keys => .error (.unknownKeys keys)
      | none => .error .unsortableKeys
  | _ => .error .notMapping

def readDocument (bytes : List UInt8) : Except LoadError (List (Value × Value)) := do
  let text ← (Utf8.decode bytes).mapError .undecodable
  let v ← (Yaml.parse (unifyNewlines text)).mapError .document
  documentEntries v

/-- Settings from a document and the layers below and above it. If the document cannot be read, the
environment stays as it is. -/
def loadDocument (bytes : List UInt8) (files : EnvFiles) (env : Environment)
    (overrides : List (String × Value)) : Loaded :=
  match readDocument bytes with
  | .ok entries => loadWith entries files env overrides
  | .error e => ⟨.error e, env, []⟩

end TapeMachine.Settings
