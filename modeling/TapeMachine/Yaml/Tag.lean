import TapeMachine.Yaml.Timestamp

/-!
Tags: the types of nodes. A scalar without one gets the type that its text has the form of.
-/
namespace TapeMachine.Yaml

inductive Tag where
  | null | bool | int | float | binary | timestamp | text
  | list | mapping | set | pairs
  | merge
  | value
  /-- Any other type, which has no values here. -/
  | unknown
  deriving DecidableEq, Repr

namespace Tag

/-- What the handle `!!` is short for. -/
def stem : String := "tag:yaml.org,2002:"

def ofUri (uri : String) : Tag :=
  if uri.startsWith stem then
    match (uri.drop stem.length).toString with
    | "null" => .null
    | "bool" => .bool
    | "int" => .int
    | "float" => .float
    | "binary" => .binary
    | "timestamp" => .timestamp
    | "str" => .text
    | "seq" => .list
    | "map" => .mapping
    | "set" => .set
    | "omap" | "pairs" => .pairs
    | "merge" => .merge
    | "value" => .value
    | _ => .unknown
  else .unknown

/-! ### Forms of texts -/

def dropSign : List Char → List Char
  | c :: rest => if c == '-' || c == '+' then rest else c :: rest
  | [] => []

def isDigitOrLine (c : Char) : Bool := Json.isDigit c || c == '_'

/-- Digits and underscores of which the first is a digit. -/
def isDigits : List Char → Bool
  | c :: rest => Json.isDigit c && rest.all isDigitOrLine
  | [] => false

/-- A place of a number in base 60. -/
def isSixtieth : List Char → Bool
  | [d] => Json.isDigit d
  | [t, d] => '0' ≤ t && t ≤ '5' && Json.isDigit d
  | _ => false

def splitOn (sep : Char) : List Char → List (List Char)
  | [] => [[]]
  | c :: rest =>
    let parts := splitOn sep rest
    if c == sep then [] :: parts else (c :: parts.headD []) :: parts.tail

/-- An exponent, which needs a sign, or nothing. -/
def isExponent : List Char → Bool
  | [] => true
  | e :: s :: ds =>
    (e == 'e' || e == 'E') && (s == '-' || s == '+') && !ds.isEmpty && ds.all Json.isDigit
  | _ => false

def isBoolText (cs : List Char) : Bool :=
  ["yes", "Yes", "YES", "no", "No", "NO", "true", "True", "TRUE", "false", "False", "FALSE", "on", "On",
    "ON", "off", "Off", "OFF"].contains (String.ofList cs)

def isFraction (cs : List Char) : Bool := isExponent (cs.dropWhile isDigitOrLine)

/-- A number with a point, in base ten or sixty, an infinity or what is not a number. -/
def isFloatText (cs : List Char) : Bool :=
  let body := dropSign cs
  let whole := body.takeWhile (· != '.')
  let pointed := body.drop whole.length
  match splitOn ':' whole, pointed with
  | [ds], '.' :: fraction =>
    if ds.isEmpty then
      [".inf", ".Inf", ".INF"].contains (String.ofList body) ||
        (body.length == cs.length &&
          ([".nan", ".NaN", ".NAN"].contains (String.ofList body) ||
            ((fraction.head?.any Json.isDigit) && isFraction fraction)))
    else isDigits ds && isFraction fraction
  | ds :: groups, '.' :: fraction =>
    isDigits ds && groups.all isSixtieth && fraction.all isDigitOrLine
  | _, _ => false

def isIntText (cs : List Char) : Bool :=
  match dropSign cs with
  | ['0'] => true
  | '0' :: 'b' :: ds => !ds.isEmpty && ds.all fun c => c == '0' || c == '1' || c == '_'
  | '0' :: 'x' :: ds => !ds.isEmpty && ds.all fun c => (Json.hexDigit? c).isSome || c == '_'
  | '0' :: ds => ds.all fun c => ('0' ≤ c && c ≤ '7') || c == '_'
  | body =>
    match splitOn ':' body with
    | ds :: groups => isDigits ds && groups.all isSixtieth
    | [] => false

/-- Without a time of day, month and day need two digits. -/
def isTimestampText (cs : List Char) : Bool :=
  (TimestampText.parse? cs).any fun t => t.clock.isSome || t.wide

/-- Drops a line feed from the end, if it is not all there is. -/
def dropLineFeed (cs : List Char) : List Char :=
  if cs.length > 1 && cs.getLast? == some '\n' then cs.dropLast else cs

/-- The type of a scalar by the form of its text. -/
def ofForm (t : Text) : Tag :=
  match t.toString? with
  | none => .text
  | some s =>
    let cs := dropLineFeed s.toList
    if ["", "~", "null", "Null", "NULL"].contains (String.ofList cs) then .null
    else if isBoolText cs then .bool
    else if isFloatText cs then .float
    else if isIntText cs then .int
    else if isTimestampText cs then .timestamp
    else if cs == ['<', '<'] then .merge
    else if cs == ['='] then .value
    else if cs == ['!'] || cs == ['&'] || cs == ['*'] then .unknown
    else .text

end Tag

end TapeMachine.Yaml
