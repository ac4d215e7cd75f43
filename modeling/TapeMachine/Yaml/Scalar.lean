import TapeMachine.Number.Decimal
import TapeMachine.Text.Lower
import TapeMachine.Value
import TapeMachine.Yaml.Tag

/-!
The values of scalars by their types.
-/
namespace TapeMachine.Yaml.Scalar

def integer (base : Nat) (t : Text) : Except Error Int :=
  match Integer.signedDigits? base t with
  | none => .error (.integer base t)
  | some (negative, ds) =>
    if base = 10 && Integer.maxLength < ds.length then .error (.integerLength ds.length)
    else .ok (Integer.signed negative (Integer.ofDigits base ds))

def decimal (t : Text) : Except Error Binary64 :=
  match Decimal.parse t with
  | some x => .ok x
  | none => .error (.float t)

/-- The parts of a text between colons. -/
def colonParts : Text → List Text
  | [] => [[]]
  | c :: rest =>
    let parts := colonParts rest
    if c.is ':' then [] :: parts else (c :: parts.headD []) :: parts.tail

def dropUnderscores (t : Text) : Text := t.filter fun c => !c.is '_'

def startsWith (s : String) (t : Text) : Bool := (Text.ofString s).isPrefixOf t

/-- An integer: binary, hexadecimal, octal with a leading zero, in base sixty, or decimal. -/
def int (t : Text) : Except Error Int := do
  let t := dropUnderscores t
  if t.isEmpty then throw .emptyNumber
  let (negative, body) := Integer.takeSign t
  let n ←
    if startsWith "0b" body then integer 2 (body.drop 2)
    else if startsWith "0x" body then integer 16 (body.drop 2)
    else
      match body with
      | [] => throw Error.emptyNumber
      | c :: _ =>
        if c.is '0' then integer 8 body
        else if body.any (·.is ':') then do
          let places ← (colonParts body).mapM (integer 10)
          pure (places.foldl (fun n d => n * 60 + d) 0)
        else integer 10 body
  return if negative then -n else n

/-- The sum of places in base sixty, the last first. A place that is worth too much is refused. -/
def sixtieths : (unit : Int) → (sum : Binary64) → List Binary64 → Except Error Binary64
  | _, sum, [] => .ok sum
  | unit, sum, d :: rest =>
    match Binary64.ofInt unit with
    | .infinite _ => .error .floatPlaces
    | worth => sixtieths (unit * 60) (sum.add (d.mul worth)) rest

/-- A number with a point, also in base sixty, or one of the words for numbers that are not finite. -/
def float (t : Text) : Except Error Binary64 := do
  let t := (dropUnderscores t).lower
  if t.isEmpty then throw .emptyNumber
  let (negative, body) := Integer.takeSign t
  if body = Text.ofString ".nan" then return .nan
  let x ←
    if body = Text.ofString ".inf" then pure (.infinite false)
    else if body.any (·.is ':') then do
      let places ← (colonParts body).mapM decimal
      sixtieths 1 (.zero false) places.reverse
    else decimal body
  return if negative then x.neg else x

def bool (t : Text) : Except Error Bool :=
  let word := t.lower
  if ["yes", "true", "on"].any fun w => word = Text.ofString w then .ok true
  else if ["no", "false", "off"].any fun w => word = Text.ofString w then .ok false
  else .error (.boolean word)

def timestamp (t : Text) : Except Error Value :=
  match (t.toString?.map fun s => Tag.dropLineFeed s.toList).bind TimestampText.parse? with
  | none => .error .timestamp
  | some parts =>
    match parts.toDate with
    | .ok (.inl d) => .ok (.date d)
    | .ok (.inr m) => .ok (.moment m)
    | .error e => .error (.calendar e)

/-- The six bits of a character of base 64. -/
def sextet? (c : Nat) : Option Nat :=
  if 65 ≤ c ∧ c ≤ 90 then some (c - 65)
  else if 97 ≤ c ∧ c ≤ 122 then some (c - 71)
  else if 48 ≤ c ∧ c ≤ 57 then some (c + 4)
  else if c = 43 then some 62
  else if c = 47 then some 63
  else none

/-- Bytes written in base 64. Characters that do not belong there are passed over, and padding that
completes a group of four ends the text. `count` characters of the group were read, whose last bits
are left over, with `pads` signs of padding after them. -/
def base64 : (count left pads : Nat) → List Nat → Option (List UInt8)
  | count, _, _, [] => if count = 0 then some [] else none
  | count, left, pads, c :: rest =>
    if c = 61 then
      if 2 ≤ count ∧ 4 ≤ count + pads + 1 then some []
      else base64 count left (if 2 ≤ count then pads + 1 else pads) rest
    else
      match sextet? c with
      | none => base64 count left pads rest
      | some v =>
        let more (n : Nat) (count left : Nat) : Option (List UInt8) :=
          (base64 count left 0 rest).map (UInt8.ofNat n :: ·)
        match count with
        | 0 => base64 1 v 0 rest
        | 1 => more (left * 4 + v / 16) 2 (v % 16)
        | 2 => more (left * 16 + v / 4) 3 (v % 4)
        | _ => more (left * 64 + v) 0 0

def binary (t : Text) : Except Error Value :=
  if t.all fun c => c.val < 128 then
    match base64 0 0 0 (t.map (·.val)) with
    | some bytes => .ok (.bytes bytes)
    | none => .error .malformed
  else .error .malformed

def value (tag : Tag) (t : Text) : Except Error Value :=
  match tag with
  | .null => .ok .null
  | .bool => (bool t).map .bool
  | .int => (int t).map .int
  | .float => (float t).map .float
  | .binary => binary t
  | .timestamp => timestamp t
  | .text => .ok (.text t)
  | _ => .error .malformed

end TapeMachine.Yaml.Scalar
