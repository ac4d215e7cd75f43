/-!
Binary floating point of 64 bits, as exact numbers `± mantissa * 2 ^ exponent`. `ofRatio` rounds a
quotient to the nearest such number, ties to the even mantissa; `shortest` finds the fewest decimal
digits that round back to it.
-/
namespace TapeMachine

inductive Binary64 where
  | finite (negative : Bool) (mantissa : Nat) (exponent : Int)
  | infinite (negative : Bool)
  | nan
  deriving DecidableEq, Repr

namespace Binary64

/-- Mantissas are less than this, which has 53 zeros in binary. -/
def mantissaBound : Nat := 0x20000000000000

def zero (negative : Bool) : Binary64 := .finite negative 0 (-1074)

/-- The quotient as a natural number, to the nearest, ties to even. -/
def roundDiv (num den : Nat) : Nat :=
  let q := num / den
  let r := num % den
  if 2 * r < den then q
  else if den < 2 * r then q + 1
  else if q % 2 = 0 then q else q + 1

/-- `num / den / 2 ^ e` as a pair. -/
def scale (num den : Nat) (e : Int) : Nat × Nat :=
  if 0 ≤ e then (num, den * Nat.pow 2 e.toNat) else (num * Nat.pow 2 (-e).toNat, den)

/-- The number nearest to `num / den`. -/
def ofRatio (negative : Bool) (num den : Nat) : Binary64 :=
  if num = 0 then zero negative
  else
    let e₀ : Int := max (-1074) ((num.log2 : Int) - den.log2 - 53)
    let s₀ := scale num den e₀
    let e₁ := if mantissaBound ≤ s₀.1 / s₀.2 then e₀ + 1 else e₀
    let s₁ := scale num den e₁
    let m := roundDiv s₁.1 s₁.2
    let (m, e) := if m = mantissaBound then (mantissaBound / 2, e₁ + 1) else (m, e₁)
    if 971 < e then .infinite negative else .finite negative m e

/-- The number nearest to `digits * 10 ^ exponent`. -/
def ofDecimal (negative : Bool) (digits : Nat) (exponent : Int) : Binary64 :=
  let magnitude : Int := exponent + (Nat.toDigits 10 digits).length
  if digits = 0 ∨ magnitude < -330 then zero negative
  else if 310 < magnitude then .infinite negative
  else if 0 ≤ exponent then ofRatio negative (digits * Nat.pow 10 exponent.toNat) 1
  else ofRatio negative digits (Nat.pow 10 (-exponent).toNat)

def ratio (mantissa : Nat) (exponent : Int) : Nat × Nat :=
  if 0 ≤ exponent then (mantissa * Nat.pow 2 exponent.toNat, 1)
  else (mantissa, Nat.pow 2 (-exponent).toNat)

/-- A finite number as a signed numerator and a denominator. -/
def toRatio? : Binary64 → Option (Int × Nat)
  | .finite negative m e =>
    let (num, den) := ratio m e
    some (if negative then -(num : Int) else num, den)
  | _ => none

def toInt? (x : Binary64) : Option Int :=
  x.toRatio?.bind fun (num, den) => if num % den = 0 then some (num / den) else none

def isFinite : Binary64 → Bool
  | .finite .. => true
  | _ => false

def neg : Binary64 → Binary64
  | .finite negative m e => .finite (!negative) m e
  | .infinite negative => .infinite (!negative)
  | .nan => .nan

/-- The number nearest to a signed quotient. A zero gets the given sign. -/
def ofSignedRatio (zeroNegative : Bool) (num : Int) (den : Nat) : Binary64 :=
  if num = 0 then zero zeroNegative else ofRatio (num < 0) num.natAbs den

def add (x y : Binary64) : Binary64 :=
  match x, y with
  | .nan, _ | _, .nan => .nan
  | .infinite a, .infinite b => if a = b then .infinite a else .nan
  | .infinite a, _ => .infinite a
  | _, .infinite b => .infinite b
  | .finite a m e, .finite b m' e' =>
    let (n, d) := ratio m e
    let (n', d') := ratio m' e'
    let left : Int := if a then -(n * d' : Nat) else (n * d' : Nat)
    let right : Int := if b then -(n' * d : Nat) else (n' * d : Nat)
    ofSignedRatio (a && b) (left + right) (d * d')

def mul (x y : Binary64) : Binary64 :=
  match x, y with
  | .nan, _ | _, .nan => .nan
  | .infinite a, .infinite b => .infinite (a != b)
  | .infinite a, .finite b m _ => if m = 0 then .nan else .infinite (a != b)
  | .finite a m _, .infinite b => if m = 0 then .nan else .infinite (a != b)
  | .finite a m e, .finite b m' e' =>
    let (n, d) := ratio m e
    let (n', d') := ratio m' e'
    ofRatio (a != b) (n * n') (d * d')

def ofInt (n : Int) : Binary64 := ofRatio (n < 0) n.natAbs 1

/-- Of the two neighbours of a magnitude on the decimal grid with `count` digits, the nearer one that
rounds back to it. `point` is the place of the decimal point before the first digit. -/
def onGrid? (m : Nat) (e : Int) (point : Int) (count : Nat) : Option Nat :=
  let (num, den) := ratio m e
  let unit := point - count
  let (num, den) :=
    if 0 ≤ unit then (num, den * Nat.pow 10 unit.toNat) else (num * Nat.pow 10 (-unit).toNat, den)
  let below := num / den
  let r := num % den
  let back (d : Nat) : Bool := ofDecimal false d unit == .finite false m e
  let nearBelow := 2 * r < den || (2 * r == den && below % 2 == 0)
  match back below, back (below + 1) with
  | true, true => some (if nearBelow then below else below + 1)
  | true, false => some below
  | false, true => some (below + 1)
  | false, false => none

/-- The fewest digits that round back to the magnitude, nearest first, with the place of the decimal
point before the first of them. -/
def shortest (m : Nat) (e : Int) : List Char × Int :=
  let (num, den) := ratio m e
  let point : Int := (Nat.toDigits 10 (num * Nat.pow 10 350 / den)).length - 350
  match (List.range 17).findSome? fun k => onGrid? m e point (k + 1) |>.map fun d => (d, k + 1) with
  | none => (['0'], 1)
  | some (d, count) =>
    let ds := Nat.toDigits 10 d
    ((ds.reverse.dropWhile (· == '0')).reverse, point + (ds.length - count : Int))

/-- Digits with the decimal point before the first of them moved `point` places to the right. A point
up to four places left of the digits or sixteen places into them is written out; otherwise the
number has an exponent of at least two digits. -/
def place (digits : List Char) (point : Int) : String :=
  let ds := digits
  let text :=
    if -4 < point ∧ point ≤ 16 then
      if point ≤ 0 then '0' :: '.' :: List.replicate (-point).toNat '0' ++ ds
      else
        let p := point.toNat
        if ds.length ≤ p then ds ++ List.replicate (p - ds.length) '0' ++ ['.', '0']
        else ds.take p ++ '.' :: ds.drop p
    else
      let x := point - 1
      let xs := Nat.toDigits 10 x.natAbs
      let frac := if ds.length ≤ 1 then [] else '.' :: ds.drop 1
      ds.take 1 ++ frac ++ 'e' :: (if x < 0 then '-' else '+') ::
        (List.replicate (2 - xs.length) '0' ++ xs)
  String.ofList text

def render : Binary64 → String
  | .nan => "nan"
  | .infinite negative => if negative then "-inf" else "inf"
  | .finite negative m e =>
    let sign := if negative then "-" else ""
    if m = 0 then sign ++ "0.0"
    else
      let (digits, point) := shortest m e
      sign ++ place digits point

end Binary64

end TapeMachine
