import TapeMachine.Complaint
import TapeMachine.Number.Integer
import TapeMachine.Settings.Basic
import TapeMachine.Text.Lower
import TapeMachine.Utf8

/-!
Settings from a document value. A field may be given in any form that clearly means a value of its
type: a number as text, a truth value as a word. All fields are checked, and the complaints about them
come in the order of the fields.
-/
namespace TapeMachine

namespace Value

/-- The text that a value stands for: a text, or bytes that are UTF-8. -/
def textForm? (otherwise : Objection) : Value → Option (Checked String)
  | .text t =>
    match t.toString? with
    | some s => some (.ok s)
    | none => some (Checked.refuse .notUnicode (.text t))
  | .bytes b =>
    match Utf8.decode b with
    | .ok cs => some (.ok (String.ofList cs))
    | .error _ => some (Checked.refuse otherwise (.bytes b))
  | _ => none

def isMachineInt (n : Int) : Bool := -0x8000000000000000 ≤ n && n < 0x8000000000000000

/-- Whether a number with a point is inside the range of 64-bit integers. -/
def floatInt? (x : Binary64) : Option Int :=
  x.toInt?.filter fun n => -0x8000000000000000 < n && n < 0x8000000000000000

def toInt (v : Value) : Checked Int :=
  match v with
  | .int n => .ok n
  | .bool b => .ok (if b then 1 else 0)
  | .float x =>
    match floatInt? x with
    | some n => .ok n
    | none => Checked.refuse (if x.isFinite then .integerFraction else .notFinite) v
  | v =>
    match v.textForm? .integerText with
    | none => Checked.refuse .notInteger v
    | some c => do
      let s ← c
      match Integer.parseLoose (Text.ofString s) with
      | .ok n => return n
      | .error .malformed => Checked.refuse .integerText v
      | .error .tooLong => Checked.refuse .integerTooLong v

/-- The words for the two truth values, in lower case. -/
def truthWord? : String → Option Bool
  | "0" | "off" | "f" | "false" | "n" | "no" => some false
  | "1" | "on" | "t" | "true" | "y" | "yes" => some true
  | _ => none

def truthOfInt (v : Value) (n : Int) : Checked Bool :=
  if n = 0 then .ok false else if n = 1 then .ok true else Checked.refuse .booleanText v

def toBool (v : Value) : Checked Bool :=
  match v with
  | .bool b => .ok b
  | .int n => if isMachineInt n then truthOfInt v n else Checked.refuse .notBoolean v
  | .float x =>
    match floatInt? x with
    | some n => truthOfInt v n
    | none => Checked.refuse .notBoolean v
  | v =>
    match v.textForm? .booleanText with
    | none => Checked.refuse .notBoolean v
    | some c => do
      let s ← c
      match truthWord? (s.map Char.toLower) with
      | some b => return b
      | none => Checked.refuse .booleanText v

/-- A name of an overflow mode in any case, with blanks around it. -/
def toOverflow (v : Value) : Checked OverflowMode :=
  let v : Value :=
    match v with
    | .text t => .text t.strip.lower
    | v => v
  match v.textForm? .notUnicode with
  | some (.ok s) =>
    match OverflowMode.ofName? s with
    | some m => .ok m
    | none => Checked.refuse (.notOneOf "wrap" "trap") v
  | _ => Checked.refuse (.notOneOf "wrap" "trap") v

def toIntFrom (bound : Int) (v : Value) : Checked Int := do
  let n ← v.toInt
  if n < bound then Checked.refuse (.below bound) v else return n

end Value

/-- A width of cells, with its bounds. -/
abbrev CellWidth := { n : Nat // 8 ≤ n ∧ n ≤ 64 }

def CellWidth.widest : CellWidth := ⟨64, Nat.le_of_ble_eq_true rfl, Nat.le_refl 64⟩

def Value.toWidth (v : Value) : Checked CellWidth := do
  let n ← v.toInt
  if h : n < 8 then Checked.refuse (.below 8) v
  else if h' : 64 < n then Checked.refuse (.above 64) v
  else return ⟨n.toNat, by omega⟩

/-- The value of a field, checked, or its default. -/
def Value.field {α : Type} (entries : List (Value × Value)) (name : String) (default : α)
    (check : Value → Checked α) : Checked α :=
  match Value.lookup? name entries with
  | some v => (check v).within name
  | none => .ok default

namespace Settings

def title : String := "InterpreterSettings"

/-- Settings from the entries of a mapping. Entries with other names are passed over. -/
def ofEntries (entries : List (Value × Value)) : Checked Settings := do
  let strict := Value.field entries "strict_loops" false Value.toBool
  let width := Value.field entries "cell_bits" CellWidth.widest Value.toWidth
  let overflow := Value.field entries "overflow" OverflowMode.wrap Value.toOverflow
  let trace := Value.field entries "trace" false Value.toBool
  let ((strict, width), (overflow, trace)) ←
    Checked.both (Checked.both strict width) (Checked.both overflow trace)
  return ⟨strict, width.val, overflow, trace, width.property.1, width.property.2⟩

def ofValue (origin : Origin) : Value → Checked Settings
  | .mapping entries => ofEntries entries
  | v => Checked.refuse (.notModel origin title) v

/-- Settings from a value, or all that is wrong with it. -/
def check (v : Value) : Except Rejection Settings := (ofValue .value v).mapError (⟨title, ·⟩)

/-- Settings cannot be changed. -/
def assign (_ : Settings) (name : String) (v : Value) : Rejection :=
  ⟨title, [⟨[name], .frozen, v⟩]⟩

end Settings

end TapeMachine
