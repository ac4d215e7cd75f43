import TapeMachine.Number.Integer
import TapeMachine.Utf8
import TapeMachine.Yaml.Quoted
import TapeMachine.Yaml.Token

/-!
Anchors, aliases, tags and directives.
-/
namespace TapeMachine.Yaml

def isNameChar (c : Char) : Bool := c.isAlphanum || c == '-' || c == '_'

/-- The name of an anchor or an alias, after its mark. -/
def anchorName (c : Cursor) : Except Error (String × Cursor) :=
  let (name, c) := c.forward.span isNameChar
  if name.isEmpty || !(isBlankOrEnd c.peek || "?:,]\x7d%@`".toList.contains c.peek) then .error .malformed
  else .ok (String.ofList name, c)

def isUriChar (c : Char) : Bool := c.isAlphanum || "-;/?:@&=+$,_.!~*'()[]%".toList.contains c

/-- The bytes of percent escapes, as many as follow one another. -/
def percentBytes : (fuel : Nat) → Cursor → Except Error (List UInt8 × Cursor)
  | 0, c => .ok ([], c)
  | fuel + 1, c =>
    if c.peek == '%' then
      let c := c.forward
      match c.rest with
      | a :: b :: _ =>
        match hexNumber? [a, b] with
        | some n => do
          let (more, c) ← percentBytes fuel (c.skip 2)
          return (UInt8.ofNat n :: more, c)
        | none => .error .malformed
      | _ => .error .malformed
    else .ok ([], c)

/-- The characters of a tag with its escapes resolved, for at most `fuel` parts. -/
def uriParts : (fuel : Nat) → Cursor → Except Error (List Char × Cursor)
  | 0, c => .ok ([], c)
  | fuel + 1, c =>
    if c.peek == '%' then do
      let (bytes, c) ← percentBytes (c.rest.length + 1) c
      match Utf8.decode bytes with
      | .error _ => throw .malformed
      | .ok chars =>
        let (more, c) ← uriParts fuel c
        return (chars ++ more, c)
    else if isUriChar c.peek then do
      let (more, d) ← uriParts fuel c.forward
      return (c.peek :: more, d)
    else .ok ([], c)

/-- A tag or the beginning of one, which is not empty. -/
def uri (c : Cursor) : Except Error (String × Cursor) :=
  if isUriChar c.peek then do
    let (chars, c) ← uriParts (c.rest.length + 1) c
    return (String.ofList chars, c)
  else .error .malformed

/-- A handle: a name between exclamation marks, or a single mark before a space. -/
def tagHandle (c : Cursor) : Except Error (String × Cursor) :=
  if c.peek != '!' then .error .malformed
  else if c.peekAt 1 == ' ' then .ok ("!", c.forward)
  else
    let (name, d) := c.forward.span isNameChar
    if d.peek != '!' then .error .malformed
    else .ok (String.ofList ('!' :: name ++ ['!']), d.forward)

def tagToken (c : Cursor) : Except Error (Token × Cursor) := do
  let next := c.peekAt 1
  let (token, c) ←
    if next == '<' then do
      let (suffix, c) ← uri (c.skip 2)
      if c.peek != '>' then throw Error.malformed
      pure (Token.tag none suffix, c.forward)
    else if isBlankOrEnd next then pure (Token.tag none "!", c.forward)
    else do
      let word := (c.rest.drop 1).takeWhile fun ch => !isSpaceOrEnd ch
      let (handle, c) ← if word.contains '!' then tagHandle c else pure ("!", c.forward)
      let (suffix, c) ← uri c
      pure (Token.tag (some handle) suffix, c)
  if !isSpaceOrEnd c.peek then throw .malformed
  return (token, c)

def versionNumber (c : Cursor) : Except Error (Nat × Cursor) :=
  let (digits, c) := c.span Char.isDigit
  if digits.isEmpty then .error .malformed
  else if Integer.maxLength < digits.length then .error (.integerLength digits.length)
  else .ok (Integer.ofDigits 10 (digits.map fun d => d.toNat - 48), c)

def versionDirective (c : Cursor) : Except Error (Directive × Cursor) := do
  let (major, c) ← versionNumber c.skipSpaces
  if c.peek != '.' then throw .malformed
  let (minor, c) ← versionNumber c.forward
  if !isSpaceOrEnd c.peek then throw .malformed
  return (.version major minor, c)

def handleDirective (c : Cursor) : Except Error (Directive × Cursor) := do
  let (handle, c) ← tagHandle c.skipSpaces
  if c.peek != ' ' then throw .malformed
  let (stem, c) ← uri c.skipSpaces
  if !isSpaceOrEnd c.peek then throw .malformed
  return (.handle handle stem, c)

def directiveToken (c : Cursor) : Except Error (Token × Cursor) := do
  let (name, c) := c.forward.span isNameChar
  if name.isEmpty || !isSpaceOrEnd c.peek then throw .malformed
  let (directive, c) ←
    match String.ofList name with
    | "YAML" => versionDirective c
    | "TAG" => handleDirective c
    | _ => pure (.other, (c.span fun ch => !isBreakOrEnd ch).2)
  let c := c.skipSpaces.skipComment
  if !isBreakOrEnd c.peek then throw .malformed
  return (.directive directive, c.lineBreak.2)

end TapeMachine.Yaml
