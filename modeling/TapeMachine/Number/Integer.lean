import TapeMachine.Text.Blank
import TapeMachine.Text.Digit

/-!
Integers written as texts. `Integer.parse` takes digits of every script; `Integer.parseLoose` takes only
basic Latin digits, but also a fraction of zeros. Both allow white space around them, a sign and single
underscores between digits.
-/
namespace TapeMachine.Integer

/-- The longest integer that is read, in characters, and that is written, in digits. -/
def maxLength : Nat := 4300

/-- An integer with few enough digits to be written. -/
def Printable (n : Int) : Prop := (Nat.toDigits 10 n.natAbs).length ≤ maxLength

instance (n : Int) : Decidable (Printable n) := inferInstanceAs (Decidable (_ ≤ _))

theorem printable_iff {n : Int} : Printable n ↔ n.natAbs < Nat.pow 10 maxLength := by
  have hpos : 0 < maxLength := by decide
  unfold Printable
  -- With any length in its place, the power is not computed.
  generalize maxLength = k at hpos ⊢
  exact Nat.length_toDigits_le_iff (by decide) hpos

theorem printable_neg {n : Int} : Printable (-n) ↔ Printable n := by
  rw [Printable, Printable, Int.natAbs_neg]

def takeSign : Text → Bool × Text
  | c :: rest =>
    if c.is '-' then (true, rest) else if c.is '+' then (false, rest) else (false, c :: rest)
  | [] => (false, [])

def signed (negative : Bool) (n : Nat) : Int := if negative then -(n : Int) else n

/-- Digit values with single underscores between them. `after` says that a digit came just before. -/
def digits (value? : CodePoint → Option Nat) (after : Bool) : Text → Option (List Nat)
  | [] => if after then some [] else none
  | c :: rest =>
    if after && c.is '_' then digits value? false rest
    else do
      let d ← value? c
      let ds ← digits value? true rest
      return d :: ds

def ofDigits (base : Nat) (ds : List Nat) : Nat := ds.foldl (fun n d => n * base + d) 0

def baseDigit? (base : Nat) (c : CodePoint) : Option Nat :=
  let v : Option Nat :=
    match c.digit? with
    | some d => some d
    | none =>
      if 97 ≤ c.val && c.val < 123 then some (c.val - 87)
      else if 65 ≤ c.val && c.val < 91 then some (c.val - 55)
      else none
  v.filter (· < base)

/-- Takes the mark of a base, such as `0x`, off a text, with an underscore after it. -/
def takeBaseMark (base : Nat) : Text → Text
  | z :: m :: rest =>
    let marked :=
      z.digit? == some 0 &&
      ((base == 16 && (m.is 'x' || m.is 'X')) || (base == 8 && (m.is 'o' || m.is 'O')) ||
        (base == 2 && (m.is 'b' || m.is 'B')))
    if marked then
      match rest with
      | u :: rest' => if u.is '_' then rest' else rest
      | [] => rest
    else z :: m :: rest
  | t => t

/-- The sign and the digits of an integer in a base, with white space around it. -/
def signedDigits? (base : Nat) (t : Text) : Option (Bool × List Nat) := do
  let (negative, body) := takeSign (t.trim CodePoint.isWhite)
  let ds ← digits (baseDigit? base) false (takeBaseMark base body)
  return (negative, ds)

/-- Reads an integer in a base. A decimal integer of more than 4300 digits is refused. -/
def parse (base : Nat) (t : Text) : Option Int := do
  let (negative, ds) ← signedDigits? base t
  if base = 10 && maxLength < ds.length then none
  else return signed negative (ofDigits base ds)

inductive LooseError where
  | malformed
  | tooLong
  deriving DecidableEq, Repr

/-- The leading digits of a text whose first digit is not zero, with the minus sign before them. -/
def leadingRun (t : Text) : Nat :=
  let (minus, body) :=
    match t with
    | c :: rest => if c.is '-' then (1, rest) else (0, t)
    | [] => (0, [])
  match body with
  | c :: _ =>
    if c.is '0' then 0 else
      let n := (body.takeWhile fun d => (d.asciiDigit?).isSome).length
      if n = 0 then 0 else minus + n
  | [] => 0

def dropZeroFraction (t : Text) : Option Text :=
  match t.splitAt? (·.is '.') with
  | none => some t
  | some (whole, _, fraction) => if fraction.all (·.is '0') then some whole else none

/-- Reads an integer with white space around it. -/
def parseLoose (t : Text) : Except LooseError Int :=
  let t := t.trim CodePoint.isWhite
  if maxLength < leadingRun t then .error .tooLong
  else
    let (negative, body) := takeSign t
    match (dropZeroFraction body).bind (digits CodePoint.asciiDigit? false) with
    | none => .error .malformed
    | some ds =>
      let kept := ds.dropWhile (· == 0)
      if maxLength < kept.length + negative.toNat then .error .tooLong
      else .ok (signed negative (ofDigits 10 kept))

end TapeMachine.Integer
