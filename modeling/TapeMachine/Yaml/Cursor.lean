/-!
A place in a YAML text. The null character, which no such text contains, stands for its end.
-/
namespace TapeMachine.Yaml

/-- Characters that may occur in a YAML text. -/
def isPrintable (c : Char) : Bool :=
  c == '\t' || c == '\n' || c == '\r' || (0x20 ≤ c.toNat && c.toNat ≤ 0x7E) || c.toNat == 0x85 ||
  (0xA0 ≤ c.toNat && c.toNat ≤ 0xD7FF) || (0xE000 ≤ c.toNat && c.toNat ≤ 0xFFFD) ||
  0x10000 ≤ c.toNat

def isBreak (c : Char) : Bool :=
  c == '\n' || c == '\r' || c.toNat == 0x85 || c.toNat == 0x2028 || c.toNat == 0x2029

def isBreakOrEnd (c : Char) : Bool := isBreak c || c == '\x00'

def isSpaceOrEnd (c : Char) : Bool := c == ' ' || isBreakOrEnd c

def isBlankOrEnd (c : Char) : Bool := c == '\t' || isSpaceOrEnd c

def byteOrderMark : Char := Char.ofNat 0xFEFF

structure Cursor where
  rest : List Char
  index : Nat := 0
  line : Nat := 0
  column : Nat := 0

namespace Cursor

def peek (c : Cursor) : Char := c.rest.headD '\x00'

def peekAt (c : Cursor) (n : Nat) : Char := (c.rest.drop n).headD '\x00'

def forward (c : Cursor) : Cursor :=
  match c.rest with
  | [] => c
  | ch :: rest =>
    if isBreak ch && !(ch == '\r' && rest.head? == some '\n') then
      { rest, index := c.index + 1, line := c.line + 1, column := 0 }
    else
      { rest, index := c.index + 1, line := c.line,
        column := if ch == byteOrderMark then c.column else c.column + 1 }

def skip (c : Cursor) : Nat → Cursor
  | 0 => c
  | n + 1 => c.forward.skip n

/-- The characters of a class at the cursor, and the cursor after them. -/
def span (c : Cursor) (p : Char → Bool) : List Char × Cursor :=
  let taken := c.rest.takeWhile p
  (taken, c.skip taken.length)

def skipSpaces (c : Cursor) : Cursor := (c.span (· == ' ')).2

def skipComment (c : Cursor) : Cursor :=
  if c.peek == '#' then (c.span fun ch => !isBreakOrEnd ch).2 else c

/-- Goes past a line break and says what it stands for: a line feed, or one of the two separators. -/
def lineBreak (c : Cursor) : List Char × Cursor :=
  let ch := c.peek
  if ch == '\r' && c.peekAt 1 == '\n' then (['\n'], c.skip 2)
  else if ch == '\r' || ch == '\n' || ch.toNat == 0x85 then (['\n'], c.forward)
  else if isBreak ch then ([ch], c.forward)
  else ([], c)

/-- Whether three equal marks that separate documents stand at the cursor. -/
def atMarks (c : Cursor) (mark : Char) : Bool :=
  c.peek == mark && c.peekAt 1 == mark && c.peekAt 2 == mark && isBlankOrEnd (c.peekAt 3)

def atSeparator (c : Cursor) : Bool := c.atMarks '-' || c.atMarks '.'

end Cursor

end TapeMachine.Yaml
