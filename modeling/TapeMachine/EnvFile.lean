import TapeMachine.Newline
import TapeMachine.Text.Blank

/-!
Files of environment variables. A statement gives a name a value; the value may be quoted, and may
refer to other variables. A statement that cannot be read is skipped to the end of its line, and the
line on which it starts is reported.
-/
namespace TapeMachine.EnvFile

inductive Statement where
  | blank
  /-- A name, with a value unless there is only the name. -/
  | assign (name : String) (value : Option String)
  | malformed
  deriving DecidableEq, Repr

/-- Reading gives a result and what follows it, or fails and leaves what it could not read. -/
abbrev Reading (α : Type) := Except (List Char) (α × List Char)

def isInlineBlank (c : Char) : Bool := isBlankChar c && c != '\n' && c != '\r'

def notLineEnd (c : Char) : Bool := c != '\n' && c != '\r'

def skipInline (cs : List Char) : List Char := cs.dropWhile isInlineBlank

/-- Skips the word `export` if blanks follow it. -/
def skipExport (cs : List Char) : List Char :=
  match cs with
  | 'e' :: 'x' :: 'p' :: 'o' :: 'r' :: 't' :: c :: rest =>
    if isInlineBlank c then skipInline rest else cs
  | cs => cs

/-- The characters before a mark that has no backslash in front of it, and those after it. -/
def beforeMark (mark : Char) (afterBackslash : Bool) : List Char → Option (List Char × List Char)
  | [] => none
  | c :: rest =>
    if c == mark && !afterBackslash then some ([], rest)
    else (beforeMark mark (c == '\\') rest).map fun (a, b) => (c :: a, b)

/-- The characters before the last mark, and those after it. -/
def beforeLastMark (mark : Char) : List Char → Option (List Char × List Char)
  | [] => none
  | c :: rest =>
    match beforeLastMark mark rest with
    | some (a, b) => some (c :: a, b)
    | none => if c == mark then some ([], rest) else none

/-- What stands in quotes, after the opening one. If every further quote has a backslash in front of
it, the last one closes. -/
def quotedBody (mark : Char) (cs : List Char) : Option (List Char × List Char) :=
  (beforeMark mark false cs).or (beforeLastMark mark cs)

def singleEscape? : Char → Option Char
  | '\\' => some '\\'
  | '\'' => some '\''
  | _ => none

def doubleEscape? : Char → Option Char
  | '\\' => some '\\'
  | '\'' => some '\''
  | '"' => some '"'
  | 'a' => some '\x07'
  | 'b' => some '\x08'
  | 'f' => some '\x0c'
  | 'n' => some '\n'
  | 'r' => some '\r'
  | 't' => some '\t'
  | 'v' => some '\x0b'
  | _ => none

/-- Replaces escapes. A backslash before any other character stays. -/
def unescape (escape? : Char → Option Char) : List Char → List Char
  | [] => []
  | [c] => [c]
  | c :: d :: rest =>
    if c == '\\' then
      match escape? d with
      | some e => e :: unescape escape? rest
      | none => c :: unescape escape? (d :: rest)
    else c :: unescape escape? (d :: rest)

/-- A line up to a comment, which begins with a blank. -/
def cutComment : List Char → List Char
  | [] => []
  | c :: rest =>
    if isBlankChar c && (rest.dropWhile isBlankChar).head? == some '#' then []
    else c :: cutComment rest

def readName (cs : List Char) : Reading (Option String) :=
  match cs with
  | '#' :: _ => .ok (none, cs)
  | '\'' :: rest =>
    let name := rest.takeWhile (· != '\'')
    match name, rest.dropWhile (· != '\'') with
    | _ :: _, _ :: after => .ok (some (String.ofList name), after)
    | _, _ => .error cs
  | cs =>
    let isNameChar (c : Char) : Bool := c != '=' && c != '#' && !isBlankChar c
    match cs.takeWhile isNameChar with
    | [] => .error cs
    | name => .ok (some (String.ofList name), cs.dropWhile isNameChar)

def readQuoted (mark : Char) (escape? : Char → Option Char) (cs : List Char) : Reading String :=
  match quotedBody mark (cs.drop 1) with
  | some (body, rest) => .ok (String.ofList (unescape escape? body), rest)
  | none => .error cs

/-- A value, after the equals sign and the blanks behind it. -/
def readValue (cs : List Char) : Reading String :=
  match cs with
  | '\'' :: _ => readQuoted '\'' singleEscape? cs
  | '"' :: _ => readQuoted '"' doubleEscape? cs
  | cs =>
    .ok (stripEnd (cutComment (cs.takeWhile notLineEnd)), cs.dropWhile notLineEnd)
where
  stripEnd (line : List Char) : String :=
    String.ofList (line.reverse.dropWhile isBlankChar).reverse

def skipComment (cs : List Char) : List Char :=
  match skipInline cs with
  | '#' :: rest => rest.dropWhile notLineEnd
  | _ => cs

def readLineEnd (cs : List Char) : Reading Unit :=
  match skipInline cs with
  | [] => .ok ((), [])
  | '\r' :: '\n' :: rest => .ok ((), rest)
  | '\n' :: rest => .ok ((), rest)
  | '\r' :: rest => .ok ((), rest)
  | _ => .error cs

/-- A value, if an equals sign comes next. -/
def readAssigned (cs : List Char) : Reading (Option String) :=
  match cs with
  | '=' :: rest => (readValue (skipInline rest)).map fun (v, r) => (some v, r)
  | cs => .ok (none, cs)

def readStatement (cs : List Char) : Reading Statement :=
  match readName (skipExport cs) with
  | .error rest => .error rest
  | .ok (name, cs) =>
    match readAssigned (skipInline cs) with
    | .error rest => .error rest
    | .ok (value, cs) =>
      (readLineEnd (skipComment cs)).map fun (_, rest) =>
        match name with
        | some name => (.assign name value, rest)
        | none => (.blank, rest)

def skipLine (cs : List Char) : List Char :=
  match cs.dropWhile notLineEnd with
  | _ :: rest => rest
  | [] => []

/-- The next statement, with the blanks and empty lines in front of it. -/
def nextStatement (cs : List Char) : Statement × List Char :=
  match cs.dropWhile isBlankChar with
  | [] => (.blank, [])
  | start =>
    match readStatement start with
    | .ok r => r
    | .error rest => (.malformed, skipLine rest)

/-- The statements of a text, each with the number of the line on which it starts, for at most `fuel`
of them. -/
def statements : (fuel line : Nat) → List Char → List (Nat × Statement)
  | 0, _, _ => []
  | _, _, [] => []
  | fuel + 1, line, cs =>
    let (s, rest) := nextStatement cs
    let passed := (cs.take (cs.length - rest.length)).count '\n'
    (line, s) :: statements fuel (line + passed) rest

def parse (text : String) : List (Nat × Statement) :=
  let cs := unifyNewlines text.toList
  statements (cs.length + 1) 1 cs

def malformedLines (text : String) : List Nat :=
  (parse text).filterMap fun (line, s) => if s = .malformed then some line else none

inductive Atom where
  | literal (c : Char)
  | reference (name : String) (default : Option String)
  deriving DecidableEq, Repr

/-- A variable after its opening `${`. -/
def readVariable (cs : List Char) : Option (Atom × List Char) :=
  let isName (c : Char) : Bool := c != '}' && c != ':'
  let name := String.ofList (cs.takeWhile isName)
  match cs.dropWhile isName with
  | '}' :: rest => some (.reference name none, rest)
  | ':' :: '-' :: rest =>
    match rest.dropWhile (· != '}') with
    | '}' :: after => some (.reference name (some (String.ofList (rest.takeWhile (· != '}')))), after)
    | _ => none
  | _ => none

/-- The pieces of a value, for at most `fuel` of them. -/
def atoms : (fuel : Nat) → List Char → List Atom
  | 0, _ => []
  | _, [] => []
  | fuel + 1, c :: rest =>
    match c, rest with
    | '$', '{' :: inner =>
      match readVariable inner with
      | some (a, after) => a :: atoms fuel after
      | none => .literal c :: atoms fuel rest
    | _, _ => .literal c :: atoms fuel rest

/-- The text of a piece, where `lookup` gives the variables that are known. -/
def Atom.resolve (lookup : String → Option String) : Atom → String
  | .literal c => String.singleton c
  | .reference name default => (lookup name).getD (default.getD "")

def expand (lookup : String → Option String) (value : String) : String :=
  let cs := value.toList
  (atoms cs.length cs).foldl (fun out a => out ++ a.resolve lookup) ""

def references (value : String) : List String :=
  let cs := value.toList
  (atoms cs.length cs).filterMap fun a =>
    match a with
    | .reference name _ => some name
    | .literal _ => none

def names (text : String) : List String :=
  (parse text).flatMap fun (_, s) =>
    match s with
    | .assign name value => name :: references (value.getD "")
    | _ => []

end TapeMachine.EnvFile
