import TapeMachine.Number.Binary64
import TapeMachine.Text.CodePoint

/-!
JSON values and their texts. Integers are exact and kept apart from numbers with a fraction or an
exponent. An object keeps the order of its members.
-/
namespace TapeMachine

inductive Json where
  | null
  | bool (b : Bool)
  | int (n : Int)
  | float (x : Binary64)
  | str (s : String)
  | arr (items : List Json)
  | obj (members : List (String × Json))

namespace Json

def escapeChar (c : Char) : List Char :=
  match c with
  | '"' => ['\\', '"']
  | '\\' => ['\\', '\\']
  | '\x08' => ['\\', 'b']
  | '\x0c' => ['\\', 'f']
  | '\n' => ['\\', 'n']
  | '\r' => ['\\', 'r']
  | '\t' => ['\\', 't']
  | c => if c.toNat < 0x20 then '\\' :: 'u' :: (hexText 4 c.toNat).toList else [c]

def quote (s : String) : String :=
  "\"" ++ String.ofList (s.toList.flatMap escapeChar) ++ "\""

/-- How items are set apart: all on one line, or one on each line with an indentation per level. -/
structure Layout where
  indent : Option Nat := none

namespace Layout

def lineBreak (l : Layout) (level : Nat) : String :=
  match l.indent with
  | none => ""
  | some n => String.ofList ('\n' :: List.replicate (n * level) ' ')

def colon (l : Layout) : String := if l.indent.isSome then ": " else ":"

/-- Items between brackets, one level further in. -/
def block (l : Layout) (level : Nat) (opening closing : String) (items : List String) : String :=
  if items.isEmpty then opening ++ closing
  else
    let gap := l.lineBreak (level + 1)
    opening ++ gap ++ ("," ++ gap).intercalate items ++ l.lineBreak level ++ closing

end Layout

mutual

def renderAt (l : Layout) (level : Nat) : Json → String
  | .null => "null"
  | .bool b => if b then "true" else "false"
  | .int n => toString n
  | .float x => x.render
  | .str s => quote s
  | .arr items => l.block level "[" "]" (renderItems l (level + 1) items)
  | .obj members => l.block level "\x7b" "\x7d" (renderMembers l (level + 1) members)

def renderItems (l : Layout) (level : Nat) : List Json → List String
  | [] => []
  | j :: rest => renderAt l level j :: renderItems l level rest

def renderMembers (l : Layout) (level : Nat) : List (String × Json) → List String
  | [] => []
  | (k, j) :: rest => (quote k ++ l.colon ++ renderAt l level j) :: renderMembers l level rest

end

def render (l : Layout) (j : Json) : String := renderAt l 0 j

/-- The member with a key. Of several with one key the last counts. -/
def member? (key : String) (members : List (String × Json)) : Option Json :=
  (members.reverse.find? (·.1 == key)).map (·.2)

end Json

end TapeMachine
