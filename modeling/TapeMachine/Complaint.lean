import TapeMachine.Value

/-!
Complaints about values: what is wrong, where, and with which value.
-/
namespace TapeMachine

/-- Whether a value was given as such or as JSON text; some complaints are worded accordingly. -/
inductive Origin where
  | value | json
  deriving DecidableEq, Repr

inductive Objection where
  | notInteger
  | integerText
  | integerFraction
  | integerTooLong
  | notFinite
  | below (bound : Int)
  | above (bound : Int)
  | notBoolean
  | booleanText
  | notOneOf (first second : String)
  | notText
  | notUnicode
  | notMapping (origin : Origin)
  | notModel (origin : Origin) (name : String)
  | missing
  | frozen
  | notJson
  deriving DecidableEq, Repr

namespace Objection

def code : Objection → String
  | notInteger => "int_type"
  | integerText => "int_parsing"
  | integerFraction => "int_from_float"
  | integerTooLong => "int_parsing_size"
  | notFinite => "finite_number"
  | below _ => "greater_than_equal"
  | above _ => "less_than_equal"
  | notBoolean => "bool_type"
  | booleanText => "bool_parsing"
  | notOneOf .. => "enum"
  | notText => "string_type"
  | notUnicode => "string_unicode"
  | notMapping _ => "dict_type"
  | notModel .. => "model_type"
  | missing => "missing"
  | frozen => "frozen_instance"
  | notJson => "json_invalid"

def message : Objection → String
  | notInteger => "Input should be a valid integer"
  | integerText => "Input should be a valid integer, unable to parse string as an integer"
  | integerFraction => "Input should be a valid integer, got a number with a fractional part"
  | integerTooLong => "Unable to parse input string as an integer, exceeded maximum size"
  | notFinite => "Input should be a finite number"
  | below bound => s!"Input should be greater than or equal to {bound}"
  | above bound => s!"Input should be less than or equal to {bound}"
  | notBoolean => "Input should be a valid boolean"
  | booleanText => "Input should be a valid boolean, unable to interpret input"
  | notOneOf first second => s!"Input should be '{first}' or '{second}'"
  | notText => "Input should be a valid string"
  | notUnicode => "Input should be a valid string, unable to parse raw data as a unicode string"
  | notMapping .value => "Input should be a valid dictionary"
  | notMapping .json | notModel .json _ => "Input should be an object"
  | notModel .value name => s!"Input should be a valid dictionary or instance of {name}"
  | missing => "Field required"
  | frozen => "Instance is frozen"
  | notJson => "Invalid JSON"

end Objection

structure Complaint where
  /-- The path to the value, outermost first. -/
  location : List String
  objection : Objection
  input : Value

/-- The complaints about one value, with the name of what it should have been. -/
structure Rejection where
  title : String
  complaints : List Complaint

abbrev Checked (α : Type) := Except (List Complaint) α

namespace Checked

/-- Puts all complaints one level further in. -/
def within {α : Type} (name : String) (c : Checked α) : Checked α :=
  c.mapError (·.map fun x => { x with location := name :: x.location })

def complaints {α : Type} : Checked α → List Complaint
  | .ok _ => []
  | .error cs => cs

/-- Both results, or the complaints of both checks, the first ones first. -/
def both {α β : Type} (a : Checked α) (b : Checked β) : Checked (α × β) :=
  match a, b with
  | .ok x, .ok y => .ok (x, y)
  | a, b => .error (a.complaints ++ b.complaints)

@[simp] theorem within_ok {α : Type} (name : String) (x : α) :
    within name (.ok x : Checked α) = .ok x := rfl

@[simp] theorem both_ok {α β : Type} (x : α) (y : β) :
    both (.ok x : Checked α) (.ok y : Checked β) = .ok (x, y) := rfl

def refuse {α : Type} (objection : Objection) (input : Value) : Checked α :=
  .error [⟨[], objection, input⟩]

end Checked

namespace Complaint

/-- How many bytes of a value a message shows. -/
def shownBytes : Nat := 50

/-- The characters at the front of a text that take up at most `n` bytes. -/
def frontBytes (n : Nat) : List Char → List Char
  | [] => []
  | c :: rest => if c.utf8Size ≤ n then c :: frontBytes (n - c.utf8Size) rest else []

/-- A long text without its middle: its first 25 bytes and its last 24, at character bounds. -/
def shorten (s : String) : String :=
  if s.utf8ByteSize ≤ shownBytes then s
  else
    let cs := s.toList
    String.ofList (frontBytes 25 cs) ++ "..." ++ String.ofList (frontBytes 24 cs.reverse).reverse

def lines (c : Complaint) : String :=
  ".".intercalate c.location ++ "\n  " ++ c.objection.message ++ " [type=" ++ c.objection.code ++
    ", input_value=" ++ shorten c.input.toMessage ++ ", input_type=" ++ c.input.kind ++ "]"

end Complaint

def Rejection.message (r : Rejection) : String :=
  let n := r.complaints.length
  let noun := if n = 1 then "error" else "errors"
  s!"{n} validation {noun} for {r.title}\n" ++ "\n".intercalate (r.complaints.map Complaint.lines)

end TapeMachine
