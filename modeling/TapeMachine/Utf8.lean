import TapeMachine.Text.CodePoint

/-!
UTF-8. Bytes are cut into pieces: characters, and faulty stretches each as long as the longest part
of a character that they could begin, but at least one byte. Strict reading refuses at the first
faulty stretch; lenient reading puts the replacement character in its place. A byte that cannot
continue a faulty stretch is never part of it, so no ASCII byte is lost.
-/
namespace TapeMachine.Utf8

inductive Reason where
  | invalidStart | invalidContinuation | unexpectedEnd
  deriving DecidableEq, Repr

def Reason.message : Reason → String
  | .invalidStart => "invalid start byte"
  | .invalidContinuation => "invalid continuation byte"
  | .unexpectedEnd => "unexpected end of data"

/-- A character, or a faulty stretch with its first byte and its length. -/
inductive Piece where
  | scalar (c : Char)
  | faulty (first : UInt8) (length : Nat) (reason : Reason)
  deriving DecidableEq, Repr

/-- How a lead byte goes on: how many bytes follow, the range of the first of them, and the bits that
the lead byte contributes. -/
structure Lead where
  follow : Nat
  low : Nat
  high : Nat
  bits : Nat

def lead? (b : Nat) : Option Lead :=
  if b < 0x80 then some ⟨0, 0, 0, b⟩
  else if b < 0xC2 then none
  else if b < 0xE0 then some ⟨1, 0x80, 0xBF, b - 0xC0⟩
  else if b = 0xE0 then some ⟨2, 0xA0, 0xBF, 0⟩
  else if b = 0xED then some ⟨2, 0x80, 0x9F, 0xD⟩
  else if b < 0xF0 then some ⟨2, 0x80, 0xBF, b - 0xE0⟩
  else if b = 0xF0 then some ⟨3, 0x90, 0xBF, 0⟩
  else if b < 0xF4 then some ⟨3, 0x80, 0xBF, b - 0xF0⟩
  else if b = 0xF4 then some ⟨3, 0x80, 0x8F, 4⟩
  else none

/-- What follows a lead byte: a character and what comes after it, or the number of bytes that could
belong to one, what is wrong, and what comes after them. -/
inductive Tail where
  | done (code : Nat) (rest : List UInt8)
  | broken (taken : Nat) (reason : Reason) (rest : List UInt8)

/-- Reads the bytes that follow a lead byte. `taken` counts the bytes read, the lead byte included. -/
def tail : (follow low high acc taken : Nat) → List UInt8 → Tail
  | 0, _, _, acc, _, bytes => .done acc bytes
  | _ + 1, _, _, _, taken, [] => .broken taken .unexpectedEnd []
  | follow + 1, low, high, acc, taken, b :: rest =>
    if low ≤ b.toNat ∧ b.toNat ≤ high then
      tail follow 0x80 0xBF (acc * 64 + (b.toNat - 0x80)) (taken + 1) rest
    else .broken taken .invalidContinuation (b :: rest)

/-- The first piece of some bytes, and what comes after it. -/
def piece (b : UInt8) (rest : List UInt8) : Piece × List UInt8 :=
  match lead? b.toNat with
  | none => (.faulty b 1 .invalidStart, rest)
  | some l =>
    match tail l.follow l.low l.high l.bits 1 rest with
    | .done code rest' => (.scalar (Char.ofNat code), rest')
    | .broken taken reason rest' => (.faulty b taken reason, rest')

theorem length_tail_le (follow low high acc taken : Nat) (bytes : List UInt8) :
    match tail follow low high acc taken bytes with
    | .done _ rest => rest.length ≤ bytes.length
    | .broken _ _ rest => rest.length ≤ bytes.length := by
  induction follow generalizing low high acc taken bytes with
  | zero => simp [tail]
  | succ n ih =>
    cases bytes with
    | nil => simp [tail]
    | cons b rest =>
      unfold tail
      by_cases h : low ≤ b.toNat ∧ b.toNat ≤ high
      · simp only [h, and_self, ↓reduceIte]
        have := ih 0x80 0xBF (acc * 64 + (b.toNat - 0x80)) (taken + 1) rest
        revert this
        generalize tail n 0x80 0xBF (acc * 64 + (b.toNat - 0x80)) (taken + 1) rest = t
        cases t <;> simp <;> omega
      · simp [h]

theorem length_piece_le (b : UInt8) (rest : List UInt8) :
    (piece b rest).2.length ≤ rest.length := by
  unfold piece
  cases lead? b.toNat with
  | none => simp
  | some l =>
    have := length_tail_le l.follow l.low l.high l.bits 1 rest
    revert this
    simp only
    generalize tail l.follow l.low l.high l.bits 1 rest = t
    cases t <;> simp

def pieces : List UInt8 → List Piece
  | [] => []
  | b :: rest => (piece b rest).1 :: pieces (piece b rest).2
termination_by bytes => bytes.length
decreasing_by
  have := length_piece_le b rest
  simp only [List.length_cons]
  omega

def Piece.length : Piece → Nat
  | .scalar c => c.utf8Size
  | .faulty _ n _ => n

/-- Reading stops at the first faulty stretch: its first byte, position, length, and what is wrong. -/
structure DecodeError where
  first : UInt8
  position : Nat
  length : Nat
  reason : Reason
  deriving DecidableEq, Repr

def DecodeError.message (e : DecodeError) : String :=
  if e.length = 1 then
    "'utf-8' codec can't decode byte 0x" ++ hexText 2 e.first.toNat ++ " in position " ++
      toString e.position ++ ": " ++ e.reason.message
  else
    "'utf-8' codec can't decode bytes in position " ++ toString e.position ++ "-" ++
      toString (e.position + e.length - 1) ++ ": " ++ e.reason.message

/-- The characters before the first faulty stretch, and that stretch if there is one, where the first
piece starts at `position`. -/
def untilFault (position : Nat) : List Piece → List Char × Option DecodeError
  | [] => ([], none)
  | .scalar c :: rest =>
    let (cs, fault) := untilFault (position + c.utf8Size) rest
    (c :: cs, fault)
  | .faulty first length reason :: _ => ([], some ⟨first, position, length, reason⟩)

/-- Strict reading. -/
def decode (bytes : List UInt8) : Except DecodeError (List Char) :=
  match untilFault 0 (pieces bytes) with
  | (cs, none) => .ok cs
  | (_, some e) => .error e

/-- The character of a piece, or the replacement character. -/
def Piece.repaired : Piece → Char
  | .scalar c => c
  | .faulty .. => Char.ofNat 0xFFFD

/-- Lenient reading. -/
def repair (bytes : List UInt8) : List Char := (pieces bytes).map Piece.repaired

end TapeMachine.Utf8
