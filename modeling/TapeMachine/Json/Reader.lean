import TapeMachine.Json.Basic

/-!
Reading JSON. Beyond the standard, `NaN`, `Infinity` and `-Infinity` are numbers. A surrogate that is
not part of a pair, an integer of more than 4300 characters, and more than 200 containers inside one
another are refused.
-/
namespace TapeMachine.Json

def isSpace (c : Char) : Bool := c == ' ' || c == '\t' || c == '\n' || c == '\r'

def skipSpace (cs : List Char) : List Char := cs.dropWhile isSpace

def hexDigit? (c : Char) : Option Nat :=
  if '0' ≤ c ∧ c ≤ '9' then some (c.toNat - 48)
  else if 'a' ≤ c ∧ c ≤ 'f' then some (c.toNat - 87)
  else if 'A' ≤ c ∧ c ≤ 'F' then some (c.toNat - 55)
  else none

def hex4? : List Char → Option (Nat × List Char)
  | a :: b :: c :: d :: rest => do
    let a ← hexDigit? a
    let b ← hexDigit? b
    let c ← hexDigit? c
    let d ← hexDigit? d
    return (((a * 16 + b) * 16 + c) * 16 + d, rest)
  | _ => none

def shortEscape? : Char → Option Char
  | '"' => some '"'
  | '\\' => some '\\'
  | '/' => some '/'
  | 'b' => some '\x08'
  | 'f' => some '\x0c'
  | 'n' => some '\n'
  | 'r' => some '\r'
  | 't' => some '\t'
  | _ => none

/-- The character of a `\u` escape, whose digits come next; a pair of surrogates makes one. -/
def unicodeEscape? (cs : List Char) : Option (Char × List Char) := do
  let (n, rest) ← hex4? cs
  if 0xD800 ≤ n ∧ n < 0xDC00 then
    match rest with
    | '\\' :: 'u' :: rest =>
      let (m, rest) ← hex4? rest
      if 0xDC00 ≤ m ∧ m < 0xE000 then
        return (Char.ofNat (0x10000 + (n - 0xD800) * 0x400 + (m - 0xDC00)), rest)
      else none
    | _ => none
  else if 0xDC00 ≤ n ∧ n < 0xE000 then none
  else return (Char.ofNat n, rest)

/-- The characters up to the closing quote, for at most `fuel` of them. -/
def stringBody : (fuel : Nat) → List Char → Option (List Char × List Char)
  | 0, _ => none
  | _ + 1, [] => none
  | _ + 1, '"' :: rest => some ([], rest)
  | fuel + 1, '\\' :: 'u' :: rest => do
    let (c, rest) ← unicodeEscape? rest
    let (cs, rest) ← stringBody fuel rest
    return (c :: cs, rest)
  | fuel + 1, '\\' :: e :: rest => do
    let c ← shortEscape? e
    let (cs, rest) ← stringBody fuel rest
    return (c :: cs, rest)
  | fuel + 1, c :: rest =>
    if c.toNat < 0x20 || c == '\\' then none
    else do
      let (cs, rest) ← stringBody fuel rest
      return (c :: cs, rest)

def isDigit (c : Char) : Bool := '0' ≤ c && c ≤ '9'

def digitsValue (ds : List Char) : Nat := ds.foldl (fun n c => n * 10 + (c.toNat - 48)) 0

/-- The longest integer, in characters. -/
def maxIntegerLength : Nat := 4300

/-- The digits after a decimal point, of which there is at least one. -/
def fraction? : List Char → Option (Option (List Char) × List Char)
  | '.' :: rest =>
    let ds := rest.takeWhile isDigit
    if ds.isEmpty then none else some (some ds, rest.dropWhile isDigit)
  | cs => some (none, cs)

def exponent? : List Char → Option (Option Int × List Char)
  | e :: rest =>
    if e == 'e' || e == 'E' then
      let (negative, rest) :=
        match rest with
        | '-' :: r => (true, r)
        | '+' :: r => (false, r)
        | r => (false, r)
      let ds := rest.takeWhile isDigit
      if ds.isEmpty then none
      else
        let n : Int := digitsValue ds
        some (some (if negative then -n else n), rest.dropWhile isDigit)
    else some (none, e :: rest)
  | [] => some (none, [])

def unsigned (negative : Bool) (cs : List Char) : Option (Json × List Char) := do
  let whole := cs.takeWhile isDigit
  let rest := cs.dropWhile isDigit
  if whole.isEmpty || (whole.head? == some '0' && 1 < whole.length) then none
  else if maxIntegerLength < whole.length + negative.toNat then none
  else
    let (frac, rest) ← fraction? rest
    let (exp, rest) ← exponent? rest
    match frac, exp with
    | none, none =>
      let n : Int := digitsValue whole
      return (.int (if negative then -n else n), rest)
    | _, _ =>
      let fracDigits := frac.getD []
      let shift : Int := exp.getD 0 - fracDigits.length
      return (.float (Binary64.ofDecimal negative (digitsValue (whole ++ fracDigits)) shift), rest)

def number (cs : List Char) : Option (Json × List Char) :=
  match cs with
  | '-' :: 'I' :: 'n' :: 'f' :: 'i' :: 'n' :: 'i' :: 't' :: 'y' :: rest =>
    some (.float (.infinite true), rest)
  | '-' :: rest => unsigned true rest
  | cs => unsigned false cs

/-- How many containers may stand inside one another. -/
def maxDepth : Nat := 200

mutual

/-- A value at the beginning of the text, with `depth` containers still allowed inside one another. -/
def value : (fuel depth : Nat) → List Char → Option (Json × List Char)
  | 0, _, _ => none
  | fuel + 1, depth, cs =>
    match cs with
    | 'n' :: 'u' :: 'l' :: 'l' :: rest => some (.null, rest)
    | 't' :: 'r' :: 'u' :: 'e' :: rest => some (.bool true, rest)
    | 'f' :: 'a' :: 'l' :: 's' :: 'e' :: rest => some (.bool false, rest)
    | 'N' :: 'a' :: 'N' :: rest => some (.float .nan, rest)
    | 'I' :: 'n' :: 'f' :: 'i' :: 'n' :: 'i' :: 't' :: 'y' :: rest =>
      some (.float (.infinite false), rest)
    | '"' :: rest => (stringBody (rest.length + 1) rest).map fun (s, r) => (.str (String.ofList s), r)
    | '[' :: rest =>
      if depth = 0 then none
      else
        match skipSpace rest with
        | ']' :: rest => some (.arr [], rest)
        | rest => (items fuel (depth - 1) rest).map fun (js, r) => (.arr js, r)
    | '{' :: rest =>
      if depth = 0 then none
      else
        match skipSpace rest with
        | '}' :: rest => some (.obj [], rest)
        | rest => (members fuel (depth - 1) rest).map fun (ms, r) => (.obj ms, r)
    | cs => number cs

def items : (fuel depth : Nat) → List Char → Option (List Json × List Char)
  | 0, _, _ => none
  | fuel + 1, depth, cs => do
    let (j, rest) ← value fuel depth (skipSpace cs)
    match skipSpace rest with
    | ',' :: rest =>
      let (js, rest) ← items fuel depth rest
      return (j :: js, rest)
    | ']' :: rest => return ([j], rest)
    | _ => none

def members : (fuel depth : Nat) → List Char → Option (List (String × Json) × List Char)
  | 0, _, _ => none
  | fuel + 1, depth, cs => do
    match skipSpace cs with
    | '"' :: rest =>
      let (key, rest) ← stringBody (rest.length + 1) rest
      match skipSpace rest with
      | ':' :: rest =>
        let (j, rest) ← value fuel depth (skipSpace rest)
        match skipSpace rest with
        | ',' :: rest =>
          let (ms, rest) ← members fuel depth rest
          return ((String.ofList key, j) :: ms, rest)
        | '}' :: rest => return ([(String.ofList key, j)], rest)
        | _ => none
      | _ => none
    | _ => none

end

/-- Reads a text that holds one value and nothing else but spaces. -/
def parse? (text : String) : Option Json := do
  let cs := text.toList
  let (j, rest) ← value (2 * cs.length + 1) maxDepth (skipSpace cs)
  if (skipSpace rest).isEmpty then some j else none

end TapeMachine.Json
