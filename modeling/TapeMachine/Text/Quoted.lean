import TapeMachine.Text.Printable

/-!
Quoted texts, as they appear inside messages: single quotes unless the text has a single quote and
no double quote, and an escape for the quote, the backslash and every code point that is not
printable.
-/
namespace TapeMachine

def Text.quoteMark (t : Text) : Char :=
  if t.any (·.is '\'') && !t.any (·.is '"') then '"' else '\''

/-- One code point inside a text quoted with `mark`. -/
def CodePoint.quoted (mark : Char) (c : CodePoint) : String :=
  if c.is mark || c.is '\\' then String.ofList ['\\', Char.ofNat c.val]
  else if c.is '\t' then "\\t"
  else if c.is '\n' then "\\n"
  else if c.is '\r' then "\\r"
  else if c.isPrintable then
    match c.toChar? with
    | some ch => String.singleton ch
    | none => "\\u" ++ hexText 4 c.val
  else if c.val < 0x100 then "\\x" ++ hexText 2 c.val
  else if c.val < 0x10000 then "\\u" ++ hexText 4 c.val
  else "\\U" ++ hexText 8 c.val

def Text.quoted (t : Text) : String :=
  let mark := t.quoteMark
  String.singleton mark ++ t.foldl (fun out c => out ++ c.quoted mark) "" ++ String.singleton mark

end TapeMachine
