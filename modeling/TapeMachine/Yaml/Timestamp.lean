import TapeMachine.Json.Reader
import TapeMachine.Yaml.Error

/-!
Dates and moments as YAML writes them.
-/
namespace TapeMachine.Yaml

/-- The time of day in a timestamp: digits of the fraction, and the offset with its sign if it is not
universal time. -/
structure ClockText where
  hour : Nat
  minute : Nat
  second : Nat
  fraction : List Char
  offset : Option Int

/-- The parts of a timestamp. `wide` says that month and day have two digits. -/
structure TimestampText where
  year : Nat
  month : Nat
  day : Nat
  wide : Bool
  clock : Option ClockText

namespace TimestampText

/-- One or two digits at the front: their number, and what they say. -/
def oneOrTwo? : List Char → Option (Nat × Nat × List Char)
  | a :: b :: rest =>
    if !Json.isDigit a then none
    else if Json.isDigit b then some (2, Json.digitsValue [a, b], rest)
    else some (1, Json.digitsValue [a], b :: rest)
  | [a] => if Json.isDigit a then some (1, Json.digitsValue [a], []) else none
  | [] => none

def two? (cs : List Char) : Option (Nat × List Char) := do
  let (n, v, rest) ← oneOrTwo? cs
  if n = 2 then some (v, rest) else none

def drop? (c : Char) : List Char → Option (List Char)
  | d :: rest => if d == c then some rest else none
  | [] => none

def isSpace (c : Char) : Bool := c == ' ' || c == '\t'

/-- An offset in seconds, at the end of a timestamp; nothing leaves it open. -/
def offset? (cs : List Char) : Option (Option Int) :=
  if cs.isEmpty then some none
  else
    match cs.dropWhile isSpace with
    | ['Z'] => some (some 0)
    | s :: rest =>
      if s == '+' || s == '-' then do
        let (_, hours, rest) ← oneOrTwo? rest
        let minutes ←
          match rest with
          | [] => some 0
          | ':' :: rest => do
            let (m, rest) ← two? rest
            if rest.isEmpty then some m else none
          | _ => none
        let seconds : Int := hours * 3600 + minutes * 60
        return some (if s == '-' then -seconds else seconds)
      else none
    | [] => none

def clock? (cs : List Char) : Option ClockText := do
  let cs ←
    match cs with
    | 'T' :: rest | 't' :: rest => some rest
    | c :: rest => if isSpace c then some (rest.dropWhile isSpace) else none
    | [] => none
  let (_, hour, cs) ← oneOrTwo? cs
  let (minute, cs) ← two? (← drop? ':' cs)
  let (second, cs) ← two? (← drop? ':' cs)
  let (fraction, cs) :=
    match cs with
    | '.' :: rest => (rest.takeWhile Json.isDigit, rest.dropWhile Json.isDigit)
    | cs => ([], cs)
  let offset ← offset? cs
  return { hour, minute, second, fraction, offset }

def parse? (cs : List Char) : Option TimestampText := do
  let digits := cs.take 4
  if digits.length < 4 || !digits.all Json.isDigit then none
  let (m, month, cs) ← oneOrTwo? (← drop? '-' (cs.drop 4))
  let (d, day, cs) ← oneOrTwo? (← drop? '-' cs)
  let clock ← if cs.isEmpty then some none else (clock? cs).map some
  return { year := Json.digitsValue digits, month, day, wide := m = 2 ∧ d = 2, clock }

/-- The first six digits of a fraction, as millionths. -/
def micro (fraction : List Char) : Nat :=
  let ds := fraction.take 6
  Json.digitsValue (ds ++ List.replicate (6 - ds.length) '0')

def toDate (t : TimestampText) : Except CalendarError (Date ⊕ Moment) :=
  match t.clock with
  | none => (Date.make t.year t.month t.day).map .inl
  | some c =>
    (Moment.make t.year t.month t.day c.hour c.minute c.second (micro c.fraction) c.offset).map .inr

end TimestampText

end TapeMachine.Yaml
