import TapeMachine.Calendar
import TapeMachine.Json.Basic
import TapeMachine.Text.Quoted

/-!
Values found in a settings document or given as JSON, and how a message shows them.
-/
namespace TapeMachine

inductive Value where
  | null
  | bool (b : Bool)
  | int (n : Int)
  | float (x : Binary64)
  | text (t : Text)
  | bytes (b : List UInt8)
  | date (d : Date)
  | moment (m : Moment)
  | list (items : List Value)
  | pair (first second : Value)
  | mapping (entries : List (Value × Value))
  | set (items : List Value)
  /-- A list that contains itself, where it is met again. -/
  | sameList
  /-- A mapping that contains itself, where it is met again. -/
  | sameMapping

namespace Value

def kind : Value → String
  | .null => "NoneType"
  | .bool _ => "bool"
  | .int _ => "int"
  | .float _ => "float"
  | .text _ => "str"
  | .bytes _ => "bytes"
  | .date _ => "date"
  | .moment _ => "datetime"
  | .list _ | .sameList => "list"
  | .pair .. => "tuple"
  | .mapping _ | .sameMapping => "dict"
  | .set _ => "set"

def showByte (mark : Char) (b : UInt8) : String :=
  if b.toNat = mark.toNat ∨ b = 92 then String.ofList ['\\', Char.ofNat b.toNat]
  else if b = 9 then "\\t"
  else if b = 10 then "\\n"
  else if b = 13 then "\\r"
  else if 32 ≤ b ∧ b < 127 then String.singleton (Char.ofNat b.toNat)
  else "\\x" ++ hexText 2 b.toNat

def showBytes (bytes : List UInt8) : String :=
  let mark := if bytes.contains 39 && !bytes.contains 34 then '"' else '\''
  "b" ++ String.singleton mark ++ String.join (bytes.map (showByte mark)) ++ String.singleton mark

def showDate (d : Date) : String := s!"datetime.date({d.year}, {d.month}, {d.day})"

/-- A moment without the seconds and fractions that are zero. -/
def showMoment (m : Moment) : String :=
  let tail :=
    if m.micro ≠ 0 then [m.second, m.micro] else if m.second ≠ 0 then [m.second] else []
  let numbers := ([m.date.year, m.date.month, m.date.day, m.hour, m.minute] ++ tail).map toString
  let zone :=
    match m.offset with
    | none => []
    | some 0 => ["tzinfo=datetime.timezone.utc"]
    | some s => ["tzinfo=datetime.timezone(" ++ Calendar.durationParts s ++ ")"]
  "datetime.datetime(" ++ ", ".intercalate (numbers ++ zone) ++ ")"

mutual

/-- A value as a message shows it. -/
def toMessage : Value → String
  | .null => "None"
  | .bool b => if b then "True" else "False"
  | .int n => toString n
  | .float x => x.render
  | .text t => t.quoted
  | .bytes b => showBytes b
  | .date d => showDate d
  | .moment m => showMoment m
  | .list items => "[" ++ ", ".intercalate (listToMessage items) ++ "]"
  | .pair a b => "(" ++ a.toMessage ++ ", " ++ b.toMessage ++ ")"
  | .mapping entries => "\x7b" ++ ", ".intercalate (entriesToMessage entries) ++ "\x7d"
  | .set items =>
    if items.isEmpty then "set()" else "\x7b" ++ ", ".intercalate (listToMessage items) ++ "\x7d"
  | .sameList => "[...]"
  | .sameMapping => "\x7b...\x7d"

def listToMessage : List Value → List String
  | [] => []
  | v :: rest => v.toMessage :: listToMessage rest

def entriesToMessage : List (Value × Value) → List String
  | [] => []
  | (k, v) :: rest => (k.toMessage ++ ": " ++ v.toMessage) :: entriesToMessage rest

end

/-- A value as plain text, in a list of names for instance. -/
def plain : Value → String
  | .text t => t.display
  | .date d => d.iso
  | .moment m => m.iso
  | v => v.toMessage

mutual

/-- A JSON value as a value. All members are kept, also those with one key. -/
def ofJson : Json → Value
  | .null => .null
  | .bool b => .bool b
  | .int n => .int n
  | .float x => .float x
  | .str s => .text (Text.ofString s)
  | .arr items => .list (ofJsonItems items)
  | .obj members => .mapping (ofJsonMembers members)

def ofJsonItems : List Json → List Value
  | [] => []
  | j :: rest => ofJson j :: ofJsonItems rest

def ofJsonMembers : List (String × Json) → List (Value × Value)
  | [] => []
  | (k, j) :: rest => (.text (Text.ofString k), ofJson j) :: ofJsonMembers rest

end

/-- The value of the last entry whose key is the name. -/
def lookup? (name : String) (entries : List (Value × Value)) : Option Value :=
  let isName : Value × Value → Bool := fun (k, _) =>
    match k with
    | .text t => t == Text.ofString name
    | _ => false
  (entries.reverse.find? isName).map (·.2)

end Value

end TapeMachine
