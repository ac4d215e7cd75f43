import TapeMachine.Yaml.Error
import TapeMachine.Yaml.Plain

/-!
Block scalars: the lines that are indented further than what surrounds them, kept as they are or folded
into longer lines.
-/
namespace TapeMachine.Yaml

/-- What is done with the line breaks at the end of a block scalar. -/
inductive Chomping where
  | strip | clip | keep
  deriving DecidableEq, Repr

/-- The header of a block scalar: chomping, and the indentation if it is given. -/
structure BlockHeader where
  chomping : Chomping := .clip
  increment : Option Nat := none

def chompingOf? : Char → Option Chomping
  | '+' => some .keep
  | '-' => some .strip
  | _ => none

def incrementOf? (c : Char) : Option Nat :=
  if '0' ≤ c ∧ c ≤ '9' then some (c.toNat - 48) else none

/-- The header after its `|` or `>`, up to the end of the line. Both indicators are optional and may come
in either order; an indentation of zero is none. -/
def blockHeader (c : Cursor) : Except Error (BlockHeader × Cursor) := do
  let (header, c) : BlockHeader × Cursor :=
    match chompingOf? c.peek, incrementOf? c.peek with
    | some chomping, _ =>
      let c := c.forward
      match incrementOf? c.peek with
      | some n => (⟨chomping, some n⟩, c.forward)
      | none => (⟨chomping, none⟩, c)
    | none, some n =>
      let c := c.forward
      match chompingOf? c.peek with
      | some chomping => (⟨chomping, some n⟩, c.forward)
      | none => (⟨.clip, some n⟩, c)
    | none, none => ({}, c)
  if header.increment = some 0 || !isSpaceOrEnd c.peek then throw .malformed
  let c := c.skipSpaces.skipComment
  if !isBreakOrEnd c.peek then throw .malformed
  return (header, c.lineBreak.2)

/-- The line breaks before the first line of text, and the widest indentation seen. -/
def leadingBreaks : (fuel widest : Nat) → Cursor → List Char × Nat × Cursor
  | 0, widest, c => ([], widest, c)
  | fuel + 1, widest, c =>
    if c.peek == ' ' then
      let c := c.forward
      leadingBreaks fuel (max widest c.column) c
    else if isBreak c.peek then
      let (br, c) := c.lineBreak
      let (more, widest, c) := leadingBreaks fuel widest c
      (br ++ more, widest, c)
    else ([], widest, c)

/-- Goes past spaces, but not beyond a column. -/
def skipIndent (indent : Nat) (c : Cursor) : Cursor :=
  c.skip (min (indent - c.column) (c.rest.takeWhile (· == ' ')).length)

/-- The line breaks of lines that hold nothing but indentation. -/
def blockBreaks (indent : Nat) : (fuel : Nat) → Cursor → List Char × Cursor
  | 0, c => ([], c)
  | fuel + 1, c =>
    let c := skipIndent indent c
    if isBreak c.peek then
      let (br, c) := c.lineBreak
      let (more, c) := blockBreaks indent fuel c
      (br ++ more, c)
    else ([], c)

/-- The lines of a block scalar, and at the end its last line break and the breaks after it. `breaks` are
those before the line at the cursor. -/
def blockLines (folded : Bool) (indent : Nat) :
    (fuel : Nat) → (breaks : List Char) → Cursor → List Char × List Char × List Char × Cursor
  | 0, breaks, c => ([], [], breaks, c)
  | fuel + 1, breaks, c =>
    if c.column != indent || c.peek == '\x00' then ([], [], breaks, c)
    else
      let isBlank (ch : Char) : Bool := ch == ' ' || ch == '\t'
      let textFirst := !isBlank c.peek
      let (line, c) := c.span fun ch => !isBreakOrEnd ch
      let (br, c) := c.lineBreak
      let (more, c) := blockBreaks indent (c.rest.length + 1) c
      if c.column == indent && c.peek != '\x00' then
        let joint :=
          if folded && br == ['\n'] && textFirst && !isBlank c.peek then
            if more.isEmpty then [' '] else []
          else br
        let (rest, last, tail, c) := blockLines folded indent fuel more c
        (breaks ++ line ++ joint ++ rest, last, tail, c)
      else (breaks ++ line, br, more, c)

/-- Reads a block scalar from its `|` or `>`, inside collections of the given indentation. -/
def blockScalar (folded : Bool) (indent : Int) (c : Cursor) : Except Error (List Char × Cursor) := do
  let (header, c) ← blockHeader c.forward
  let least := max 1 (indent + 1).toNat
  let (breaks, column, c) :=
    match header.increment with
    | none =>
      let (breaks, widest, c) := leadingBreaks (c.rest.length + 1) 0 c
      (breaks, max least widest, c)
    | some n =>
      let column := least + n - 1
      let (breaks, c) := blockBreaks column (c.rest.length + 1) c
      (breaks, column, c)
  let (text, last, tail, c) := blockLines folded column (c.rest.length + 1) breaks c
  match header.chomping with
  | .strip => return (text, c)
  | .clip => return (text ++ last, c)
  | .keep => return (text ++ last ++ tail, c)

end TapeMachine.Yaml
