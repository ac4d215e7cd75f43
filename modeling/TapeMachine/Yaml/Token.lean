import TapeMachine.Yaml.Error

/-!
The tokens of a YAML text.
-/
namespace TapeMachine.Yaml

inductive Directive where
  | version (major minor : Nat)
  /-- A handle and what it is short for. -/
  | handle (name stem : String)
  | other
  deriving DecidableEq

inductive Token where
  | directive (d : Directive)
  | documentStart
  | documentEnd
  | blockSequenceStart
  | blockMappingStart
  | blockEnd
  | flowSequenceStart
  | flowSequenceEnd
  | flowMappingStart
  | flowMappingEnd
  | blockEntry
  | flowEntry
  | key
  | value
  | alias (name : String)
  | anchor (name : String)
  | tag (handle : Option String) (suffix : String)
  | scalar (text : Text) (plain : Bool)
  | streamEnd
  /-- The text cannot be read any further. -/
  | failure (e : Error)
  deriving DecidableEq

end TapeMachine.Yaml
