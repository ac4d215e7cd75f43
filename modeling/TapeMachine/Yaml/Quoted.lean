import TapeMachine.Json.Reader
import TapeMachine.Yaml.Error
import TapeMachine.Yaml.Plain

/-!
Scalars in quotes. In single quotes a doubled quote stands for one; in double quotes a backslash begins
an escape, and at the end of a line it joins the next one to it.
-/
namespace TapeMachine.Yaml

def escape? : Char → Option Char
  | '0' => some '\x00'
  | 'a' => some '\x07'
  | 'b' => some '\x08'
  | 't' => some '\t'
  | '\t' => some '\t'
  | 'n' => some '\n'
  | 'v' => some '\x0b'
  | 'f' => some '\x0c'
  | 'r' => some '\r'
  | 'e' => some '\x1b'
  | ' ' => some ' '
  | '"' => some '"'
  | '\\' => some '\\'
  | '/' => some '/'
  | 'N' => some (Char.ofNat 0x85)
  | '_' => some (Char.ofNat 0xA0)
  | 'L' => some (Char.ofNat 0x2028)
  | 'P' => some (Char.ofNat 0x2029)
  | _ => none

/-- How many hexadecimal digits follow the letter of an escape. -/
def escapeDigits? : Char → Option Nat
  | 'x' => some 2
  | 'u' => some 4
  | 'U' => some 8
  | _ => none

def hexNumber? (cs : List Char) : Option Nat := do
  let ds ← cs.mapM Json.hexDigit?
  return ds.foldl (fun n d => n * 16 + d) 0

/-- The code point with a number, as an escape gives it. -/
def escapedCodePoint (n : Nat) : Except Error CodePoint :=
  match CodePoint.ofNat? n with
  | some c => .ok c
  | none => .error (if n < 0x80000000 then .codePoint else .codePointSize)

/-- The line breaks after the first one inside quotes. A separator of documents is an error there. -/
def quotedBreaks : (fuel : Nat) → Cursor → Except Error (List Char × Cursor)
  | 0, _ => .error .malformed
  | fuel + 1, c =>
    if c.atSeparator then .error .malformed
    else
      let c := (c.span fun ch => ch == ' ' || ch == '\t').2
      if isBreak c.peek then do
        let (br, c) := c.lineBreak
        let (more, c) ← quotedBreaks fuel c
        return (br ++ more, c)
      else .ok ([], c)

def quotedGap (c : Cursor) : Except Error (List Char × Cursor) := do
  let (blanks, c) := c.span fun ch => ch == ' ' || ch == '\t'
  if c.peek == '\x00' then throw .malformed
  else if isBreak c.peek then
    let (first, c) := c.lineBreak
    let (more, c) ← quotedBreaks (c.rest.length + 1) c
    return (foldBreaks first more, c)
  else return (blanks, c)

def charsText (cs : List Char) : Text := cs.map CodePoint.ofChar

def quotedEscape (c : Cursor) : Except Error (Text × Cursor) :=
  let ch := c.peek
  match escape? ch, escapeDigits? ch with
  | some e, _ => .ok (charsText [e], c.forward)
  | none, some n => do
    let c := c.forward
    let digits := c.rest.take n
    if digits.length < n then throw .malformed
    match hexNumber? digits with
    | none => throw .malformed
    | some v => return ([← escapedCodePoint v], c.skip n)
  | none, none =>
    if isBreak ch then do
      let c := c.lineBreak.2
      let (more, c) ← quotedBreaks (c.rest.length + 1) c
      return (charsText more, c)
    else .error .malformed

/-- The rest of a scalar after its opening quote, for at most `fuel` parts. -/
def quotedParts (double : Bool) : (fuel : Nat) → Cursor → Except Error (Text × Cursor)
  | 0, _ => .error .malformed
  | fuel + 1, c => do
    let ch := c.peek
    if !double && ch == '\'' && c.peekAt 1 == '\'' then
      let (more, c) ← quotedParts double fuel (c.skip 2)
      return (charsText ['\''] ++ more, c)
    else if ch == (if double then '"' else '\'') then return ([], c.forward)
    else if double && ch == '\\' then
      let (part, c) ← quotedEscape c.forward
      let (more, c) ← quotedParts double fuel c
      return (part ++ more, c)
    else if isBlankOrEnd ch then
      let (part, c) ← quotedGap c
      let (more, c) ← quotedParts double fuel c
      return (charsText part ++ more, c)
    else
      let (more, c) ← quotedParts double fuel c.forward
      return (charsText [ch] ++ more, c)

def quotedScalar (double : Bool) (c : Cursor) : Except Error (Text × Cursor) :=
  quotedParts double (c.rest.length + 1) c.forward

end TapeMachine.Yaml
