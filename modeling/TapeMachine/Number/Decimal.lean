import TapeMachine.Number.Binary64
import TapeMachine.Number.Integer

/-!
Decimal numbers written as texts: digits of every script with single underscores between them, a point,
an exponent, and the words for the infinities and for what is not a number.
-/
namespace TapeMachine.Decimal

/-- Digits at the front of a text, and what follows them. `after` says that a digit came just before. -/
def takeDigits (after : Bool) : Text → List Nat × Text
  | [] => ([], [])
  | c :: rest =>
    match c.digit? with
    | some d =>
      let (ds, r) := takeDigits true rest
      (d :: ds, r)
    | none =>
      if after && c.is '_' && (rest.head?.bind CodePoint.digit?).isSome then takeDigits false rest
      else ([], c :: rest)

/-- The exponent at the end of a number; nothing stands for zero. -/
def exponent? : Text → Option Int
  | [] => some 0
  | c :: rest =>
    if c.is 'e' || c.is 'E' then
      let (negative, body) := Integer.takeSign rest
      match takeDigits false body with
      | (d :: ds, []) => some (Integer.signed negative (Integer.ofDigits 10 (d :: ds)))
      | _ => none
    else none

/-- The words for numbers that are not finite. -/
def word? (negative : Bool) (t : Text) : Option Binary64 :=
  match t.toString?.map (·.map Char.toLower) with
  | some "inf" | some "infinity" => some (.infinite negative)
  | some "nan" => some .nan
  | _ => none

def parse (t : Text) : Option Binary64 :=
  let (negative, body) := Integer.takeSign (t.trim CodePoint.isWhite)
  (word? negative body).or do
    let (whole, rest) := takeDigits false body
    let (frac, rest) :=
      match rest with
      | c :: r => if c.is '.' then takeDigits false r else ([], rest)
      | [] => ([], rest)
    if whole.isEmpty && frac.isEmpty then none
    else
      let e ← exponent? rest
      return Binary64.ofDecimal negative (Integer.ofDigits 10 (whole ++ frac)) (e - frac.length)

end TapeMachine.Decimal
