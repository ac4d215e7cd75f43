import TapeMachine.Yaml.Cursor

/-!
Plain scalars: text without quotes. It ends at a comment, at a colon before a blank, in a flow
collection also at its punctuation, and where the indentation ends.
-/
namespace TapeMachine.Yaml

/-- What was read between two parts of a scalar: the characters it contributes, none if the scalar ends
here, and whether a line break was passed. -/
structure Gap where
  chars : List Char
  broken : Bool
  after : Cursor

/-- The line breaks of empty lines, and whether a separator of documents follows one of them. -/
def emptyLines : (fuel : Nat) → Cursor → List Char × Bool × Cursor
  | 0, c => ([], false, c)
  | fuel + 1, c =>
    if c.peek == ' ' then emptyLines fuel c.forward
    else if isBreak c.peek then
      let (br, c) := c.lineBreak
      if c.atSeparator then (br, true, c)
      else
        let (more, stop, c) := emptyLines fuel c
        (br ++ more, stop, c)
    else ([], false, c)

/-- A single line break between parts of a scalar becomes a space; of several the first is dropped. -/
def foldBreaks (first more : List Char) : List Char :=
  if first != ['\n'] then first ++ more else if more.isEmpty then [' '] else more

/-- The gap after a part of a plain scalar. -/
def plainGap (c : Cursor) : Gap :=
  let (spaces, c) := c.span (· == ' ')
  if isBreak c.peek then
    let (first, c) := c.lineBreak
    if c.atSeparator then ⟨[], true, c⟩
    else
      let (more, stop, c) := emptyLines (c.rest.length + 1) c
      ⟨if stop then [] else foldBreaks first more, true, c⟩
  else ⟨spaces, false, c⟩

def plainLength (flow : Bool) : List Char → Nat
  | [] => 0
  | ch :: rest =>
    let next := rest.headD '\x00'
    let ends :=
      isBlankOrEnd ch ||
      (ch == ':' && (isBlankOrEnd next || (flow && ",[]\x7b\x7d".toList.contains next))) ||
      (flow && ",?[]\x7b\x7d".toList.contains ch)
    if ends then 0 else plainLength flow rest + 1

/-- Reads parts of a plain scalar, for at most `fuel` of them. Gives the text, whether a simple key may
follow, and the cursor after it. -/
def plainParts (flow : Bool) (indent : Int) :
    (fuel : Nat) → (gap : List Char) → (mayStartKey : Bool) → Cursor → List Char × Bool × Cursor
  | 0, _, allow, c => ([], allow, c)
  | fuel + 1, gap, allow, c =>
    let n := if c.peek == '#' then 0 else plainLength flow c.rest
    if n = 0 then ([], allow, c)
    else
      let part := gap ++ c.rest.take n
      let g := plainGap (c.skip n)
      if g.chars.isEmpty || g.after.peek == '#' || (!flow && (g.after.column : Int) < indent) then
        (part, g.broken, g.after)
      else
        let (more, allow, c) := plainParts flow indent fuel g.chars g.broken g.after
        (part ++ more, allow, c)

def plainScalar (flow : Bool) (indent : Int) (c : Cursor) : List Char × Bool × Cursor :=
  plainParts flow (indent + 1) (c.rest.length + 1) [] false c

end TapeMachine.Yaml
