import TapeMachine.Environment
import TapeMachine.Settings.Check
import TapeMachine.Yaml.Error

/-!
Settings in layers. From the lowest to the highest: the defaults, the environment with the variables of
a file, a settings document, and overrides. A field is taken from the highest layer that sets it, and
only that value is checked.
-/
namespace TapeMachine.Settings

/-- The names of the fields, each with its environment variable. -/
def fieldVariables : List (String × String) :=
  [("strict_loops", "BFVM_STRICT_LOOPS"), ("cell_bits", "BFVM_CELL_BITS"),
    ("overflow", "BFVM_OVERFLOW"), ("trace", "BFVM_TRACE")]

def fieldNames : List String := fieldVariables.map (·.1)

/-- The entry for a field that the environment sets. A blank variable sets nothing. -/
def environmentEntry? (env : Environment) (field var : String) : Option (Value × Value) :=
  (env.get? var).bind fun raw =>
    let value := stripString raw
    if value.isEmpty then none
    else some (.text (Text.ofString field), .text (Text.ofString value))

def environmentLayer (env : Environment) : List (Value × Value) :=
  fieldVariables.filterMap fun (field, var) => environmentEntry? env field var

/-- The layer of the overrides: a null overrides nothing. -/
def overrideLayer (overrides : List (String × Value)) : List (Value × Value) :=
  overrides.filterMap fun (name, v) =>
    match v with
    | .null => none
    | v => some (.text (Text.ofString name), v)

inductive LoadError where
  | rejected (r : Rejection)
  | unsettable (e : VariableError)
  /-- The file of variables is not UTF-8. -/
  | unreadable (e : Utf8.DecodeError)
  /-- The document is not UTF-8. -/
  | undecodable (e : Utf8.DecodeError)
  | document (e : Yaml.Error)
  /-- The document holds something else than a mapping. -/
  | notMapping
  /-- The document has keys that are no fields. -/
  | unknownKeys (keys : List Value)
  /-- There are such keys, and they cannot be put in order. -/
  | unsortableKeys

def LoadError.message : LoadError → String
  | .rejected r => r.message
  | .unsettable e => e.message
  | .unreadable e => e.message
  | .undecodable e => e.message
  | .document e => e.message
  | .notMapping => "settings file must be a YAML mapping"
  | .unknownKeys keys => "unknown settings: " ++ ", ".intercalate (keys.map Value.plain)
  | .unsortableKeys => "unknown settings that have no order"

/-- What loading settings came to, the environment it left, and the lines of the statements in the
file of variables that could not be read. -/
structure Loaded where
  result : Except LoadError Settings
  env : Environment
  malformed : List Nat

/-- Settings from all layers, where `document` are the entries of a settings document. -/
def loadWith (document : List (Value × Value)) (files : EnvFiles) (env : Environment)
    (overrides : List (String × Value)) : Loaded :=
  match env.textOf files with
  | .error e => ⟨.error (.unreadable e), env, []⟩
  | .ok text =>
    let l := env.addText text
    let result :=
      match l.error with
      | some e => .error (.unsettable e)
      | none =>
        (check (.mapping (environmentLayer l.env ++ document ++ overrideLayer overrides))).mapError
          .rejected
    ⟨result, l.env, l.malformed⟩

def load (files : EnvFiles) (env : Environment) (overrides : List (String × Value)) : Loaded :=
  loadWith [] files env overrides

end TapeMachine.Settings
