import TapeMachine.Calendar
import TapeMachine.Text.Quoted

/-!
What can be wrong with a YAML document. Most faults are of one kind, `malformed`; those of scalars whose
text does not have the form of their type are told apart.
-/
namespace TapeMachine.Yaml

inductive Error where
  | malformed
  /-- An escape for a number that is no code point. -/
  | codePoint
  /-- An escape for a number of more than 31 bits. -/
  | codePointSize
  | integer (base : Nat) (text : Text)
  | integerLength (digits : Nat)
  | float (text : Text)
  /-- A number in base sixty with so many places that the first is beyond all numbers. -/
  | floatPlaces
  | emptyNumber
  | boolean (text : Text)
  | timestamp
  | timestampMapping
  | calendar (e : CalendarError)
  deriving DecidableEq

def Error.message : Error → String
  | .malformed => "malformed document"
  | .codePoint => "chr() arg not in range(0x110000)"
  | .codePointSize => "Python int too large to convert to C int"
  | .integer base text => s!"invalid literal for int() with base {base}: " ++ text.quoted
  | .integerLength digits =>
    "Exceeds the limit (4300 digits) for integer string conversion: value has " ++ toString digits ++
      " digits; use sys.set_int_max_str_digits() to increase the limit"
  | .float text => "could not convert string to float: " ++ text.quoted
  | .floatPlaces => "int too large to convert to float"
  | .emptyNumber => "string index out of range"
  | .boolean text => text.quoted
  | .timestamp => "'NoneType' object has no attribute 'groupdict'"
  | .timestampMapping => "expected string or bytes-like object, got 'list'"
  | .calendar e => e.message

end TapeMachine.Yaml
