import TapeMachine.Yaml.Block
import TapeMachine.Yaml.Property

/-!
The tokens of a YAML text. Indentation opens and closes block collections. That something was a key of
a mapping shows only at the colon after it: the place of everything that may be a key is kept, and the
key's token is put in there later.
-/
namespace TapeMachine.Yaml

/-- Something on the current line that may turn out to be a key. -/
structure PendingKey where
  /-- The place of its first token. -/
  place : Nat
  /-- Nothing but a key can stand here. -/
  required : Bool
  index : Nat
  line : Nat
  column : Nat

structure Lexer where
  cursor : Cursor
  tokens : Array Token := #[]
  /-- The column of the innermost block collection, -1 outside all of them. -/
  indent : Int := -1
  outer : List Int := []
  mayStartKey : Bool := true
  /-- The pending key of each flow collection that is open, innermost first, and of the block around
  them. -/
  keys : List (Option PendingKey) := [none]

namespace Lexer

def inFlow (l : Lexer) : Bool := 1 < l.keys.length

def push (l : Lexer) (t : Token) : Lexer := { l with tokens := l.tokens.push t }

def key? (l : Lexer) : Option PendingKey := l.keys.head?.join

def setKey (l : Lexer) (k : Option PendingKey) : Lexer := { l with keys := k :: l.keys.tail }

/-- Gives up the pending key of this level. -/
def dropKey (l : Lexer) : Except Error Lexer :=
  match l.key? with
  | some k => if k.required then .error .malformed else .ok (l.setKey none)
  | none => .ok l

def expectKey (l : Lexer) : Except Error Lexer :=
  if l.mayStartKey then do
    let l ← l.dropKey
    return l.setKey (some {
      place := l.tokens.size
      required := !l.inFlow && l.indent == l.cursor.column
      index := l.cursor.index
      line := l.cursor.line
      column := l.cursor.column })
  else .ok l

/-- Keys do not go beyond their line nor beyond 1024 characters. -/
def isStale (c : Cursor) (k : PendingKey) : Bool := k.line != c.line || 1024 < c.index - k.index

def dropStaleKeys (l : Lexer) : Except Error Lexer := do
  let keys ← l.keys.mapM fun k? =>
    match k? with
    | some k =>
      if isStale l.cursor k then if k.required then throw Error.malformed else pure none
      else pure (some k)
    | none => pure none
  return { l with keys }

/-- Closes the block collections that are indented further than a column. -/
def closeBeyond (column : Int) : List Int → Int → Array Token → Int × List Int × Array Token
  | [], indent, tokens => (indent, [], tokens)
  | o :: outer, indent, tokens =>
    if column < indent then closeBeyond column outer o (tokens.push .blockEnd)
    else (indent, o :: outer, tokens)

def unindent (l : Lexer) (column : Int) : Lexer :=
  if l.inFlow then l
  else
    let (indent, outer, tokens) := closeBeyond column l.outer l.indent l.tokens
    { l with indent, outer, tokens }

def isDeeper (l : Lexer) (column : Nat) : Bool := l.indent < column

def openAt (l : Lexer) (column : Nat) : Lexer := { l with indent := column, outer := l.indent :: l.outer }

/-- Opens a block collection at the cursor unless it is open already. -/
def openBlock (l : Lexer) (start : Token) : Except Error Lexer :=
  if l.inFlow then .ok l
  else if !l.mayStartKey then .error .malformed
  else if l.isDeeper l.cursor.column then .ok ((l.openAt l.cursor.column).push start)
  else .ok l

/-- Goes past spaces, comments and line breaks. A new line of a block may begin with a key. -/
def skipToToken : (fuel : Nat) → Lexer → Lexer
  | 0, l => l
  | fuel + 1, l =>
    let c := l.cursor.skipSpaces.skipComment
    if isBreak c.peek then
      skipToToken fuel { l with cursor := c.lineBreak.2, mayStartKey := l.mayStartKey || !l.inFlow }
    else { l with cursor := c }

def mark (l : Lexer) (t : Token) : Lexer := { l.push t with cursor := l.cursor.forward }

/-- What separates documents closes everything. -/
def closeAll (l : Lexer) : Except Error Lexer := do
  let l ← (l.unindent (-1)).dropKey
  return { l with mayStartKey := false }

def separator (l : Lexer) (t : Token) : Except Error Lexer := do
  let l ← l.closeAll
  return { l.push t with cursor := l.cursor.skip 3 }

def flowStart (l : Lexer) (t : Token) : Except Error Lexer := do
  let l ← l.expectKey
  return { l.mark t with keys := none :: l.keys, mayStartKey := true }

def flowEnd (l : Lexer) (t : Token) : Except Error Lexer :=
  if l.inFlow then do
    let l ← l.dropKey
    return { l.mark t with keys := l.keys.tail, mayStartKey := false }
  else .error .malformed

def flowEntry (l : Lexer) : Except Error Lexer := do
  let l ← l.dropKey
  return { l.mark .flowEntry with mayStartKey := true }

def blockEntry (l : Lexer) : Except Error Lexer := do
  let l ← (← l.openBlock .blockSequenceStart).dropKey
  return { l.mark .blockEntry with mayStartKey := true }

def explicitKey (l : Lexer) : Except Error Lexer := do
  let l ← (← l.openBlock .blockMappingStart).dropKey
  return { l.mark .key with mayStartKey := !l.inFlow }

def insertAt (l : Lexer) (place : Nat) (ts : Array Token) : Lexer :=
  { l with tokens := l.tokens.extract 0 place ++ ts ++ l.tokens.extract place l.tokens.size }

/-- A colon makes what is pending a key. -/
def valueMark (l : Lexer) : Except Error Lexer :=
  match l.key? with
  | some k =>
    let l := l.setKey none
    let l :=
      if !l.inFlow && l.isDeeper k.column then
        (l.openAt k.column).insertAt k.place #[.blockMappingStart, .key]
      else l.insertAt k.place #[.key]
    .ok { l.mark .value with mayStartKey := false }
  | none => do
    let l ← l.openBlock .blockMappingStart
    return { l.mark .value with mayStartKey := !l.inFlow }

/-- A part of a node that may begin a key. -/
def keyPart (l : Lexer) (part : Cursor → Except Error (Token × Cursor)) : Except Error Lexer := do
  let l ← l.expectKey
  let (t, cursor) ← part l.cursor
  return { l.push t with cursor, mayStartKey := false }

def block (l : Lexer) (folded : Bool) : Except Error Lexer := do
  let l ← l.dropKey
  let (text, cursor) ← blockScalar folded l.indent l.cursor
  return { l.push (.scalar (charsText text) false) with cursor, mayStartKey := true }

def plain (l : Lexer) : Except Error Lexer := do
  let l ← l.expectKey
  let (text, mayStartKey, cursor) := plainScalar l.inFlow l.indent l.cursor
  return { l.push (.scalar (charsText text) true) with cursor, mayStartKey }

/-- Characters that have a meaning of their own at the beginning of a token. -/
def isIndicator (c : Char) : Bool := "-?:,[]\x7b\x7d#&*!|>'\"%@`".toList.contains c

def startsPlain (l : Lexer) : Bool :=
  let c := l.cursor.peek
  !(isBlankOrEnd c || isIndicator c) ||
  (!isBlankOrEnd (l.cursor.peekAt 1) && (c == '-' || (!l.inFlow && (c == '?' || c == ':'))))

def quoted (double : Bool) (c : Cursor) : Except Error (Token × Cursor) := do
  let (text, c) ← quotedScalar double c
  return (.scalar text false, c)

def named (make : String → Token) (c : Cursor) : Except Error (Token × Cursor) := do
  let (name, c) ← anchorName c
  return (make name, c)

def token (l : Lexer) : Except Error Lexer :=
  let c := l.cursor
  let free := isBlankOrEnd (c.peekAt 1)
  match c.peek with
  | '[' => l.flowStart .flowSequenceStart
  | '\x7b' => l.flowStart .flowMappingStart
  | ']' => l.flowEnd .flowSequenceEnd
  | '\x7d' => l.flowEnd .flowMappingEnd
  | ',' => l.flowEntry
  | '*' => l.keyPart (named .alias)
  | '&' => l.keyPart (named .anchor)
  | '!' => l.keyPart tagToken
  | '\'' => l.keyPart (quoted false)
  | '"' => l.keyPart (quoted true)
  | '%' =>
    if c.column == 0 then do
      let l ← l.closeAll
      let (t, cursor) ← directiveToken l.cursor
      return { l.push t with cursor }
    else .error .malformed
  | '-' =>
    if c.column == 0 && c.atMarks '-' then l.separator .documentStart
    else if free then l.blockEntry
    else l.plain
  | '.' => if c.column == 0 && c.atMarks '.' then l.separator .documentEnd else l.plain
  | '?' => if l.inFlow || free then l.explicitKey else l.plain
  | ':' => if l.inFlow || free then l.valueMark else l.plain
  | '|' => if l.inFlow then .error .malformed else l.block false
  | '>' => if l.inFlow then .error .malformed else l.block true
  | _ => if l.startsPlain then l.plain else .error .malformed

/-- All tokens from here on, for at most `fuel` of them. Where the text cannot be read any further the
last token says so. -/
def tokensFrom : (fuel : Nat) → Lexer → Array Token
  | 0, l => l.tokens.push (.failure .malformed)
  | fuel + 1, l =>
    let l := skipToToken (l.cursor.rest.length + 1) l
    let next : Except Error Lexer := do
      let l := (← l.dropStaleKeys).unindent l.cursor.column
      if l.cursor.rest.isEmpty then return (← l.closeAll).push .streamEnd else l.token
    match next with
    | .error e => l.tokens.push (.failure e)
    | .ok l' => if l.cursor.rest.isEmpty then l'.tokens else tokensFrom fuel l'

end Lexer

/-- The tokens of a text. A byte order mark at its beginning is passed over. -/
def tokens (text : List Char) : List Token :=
  if text.all isPrintable then
    let start : Cursor := { rest := text }
    let cursor := if start.peek == byteOrderMark then start.forward else start
    (Lexer.tokensFrom (text.length + 1) { cursor }).toList
  else [.failure .malformed]

end TapeMachine.Yaml
