import TapeMachine.Utf8
import TapeMachine.Newline

/-!
Where a run reads from. A source is a list of chunks, read one code point at a time, and what happens
after the last of them. Reading depends only on what remains (`read_eq`), not on how it is cut.
-/
namespace TapeMachine

/-- What comes after the last code point of a source. -/
inductive SourceEnd where
  /-- Nothing, for ever. -/
  | exhausted
  /-- Bytes that cannot be decoded. -/
  | undecodable (e : Utf8.DecodeError)
  deriving DecidableEq, Repr

def SourceEnd.read : SourceEnd → Except Utf8.DecodeError (Option CodePoint)
  | exhausted => .ok none
  | undecodable e => .error e

structure Source where
  chunks : List Text
  ending : SourceEnd := .exhausted
  deriving DecidableEq

namespace Source

def ofText (t : Text) : Source := { chunks := [t] }

/-- All that is still to be read. -/
def remaining (s : Source) : Text := s.chunks.flatten

/-- Drops chunks until one begins with a code point, which is taken out. -/
def take? : List Text → Option (CodePoint × List Text)
  | [] => none
  | [] :: rest => take? rest
  | (c :: t) :: rest => some (c, t :: rest)

/-- The next code point, or none at the end; and the source after it. A source that ends in
undecodable bytes fails there instead. -/
def read (s : Source) : Except Utf8.DecodeError (Option CodePoint) × Source :=
  match take? s.chunks with
  | some (c, rest) => (.ok (some c), { s with chunks := rest })
  | none => (s.ending.read, { s with chunks := [] })

theorem take?_eq_none_iff (chunks : List Text) : take? chunks = none ↔ chunks.flatten = [] := by
  fun_induction take? chunks with
  | case1 => simp
  | case2 rest ih => simpa using ih
  | case3 c t rest => simp

theorem flatten_of_take? {chunks rest : List Text} {c : CodePoint}
    (h : take? chunks = some (c, rest)) : chunks.flatten = c :: rest.flatten := by
  fun_induction take? chunks with
  | case1 => simp at h
  | case2 rest' ih => simpa using ih h
  | case3 c' t rest' =>
    simp only [Option.some.injEq, Prod.mk.injEq] at h
    obtain ⟨rfl, rfl⟩ := h
    simp

/-- Reading takes the first code point of what remains. -/
theorem read_eq (s : Source) :
    s.read.1 = (match s.remaining with
      | [] => s.ending.read
      | c :: _ => .ok (some c)) ∧
    s.read.2.remaining = s.remaining.tail ∧ s.read.2.ending = s.ending := by
  unfold read remaining
  cases h : take? s.chunks with
  | none => simp [(take?_eq_none_iff s.chunks).1 h]
  | some p => simp [flatten_of_take? h]

theorem remaining_of_read_some {s : Source} {c : CodePoint} (h : s.read.1 = .ok (some c)) :
    s.remaining = c :: s.read.2.remaining := by
  obtain ⟨h₁, h₂, -⟩ := s.read_eq
  rw [h₁] at h
  rw [h₂]
  cases hr : s.remaining with
  | nil => cases he : s.ending <;> simp [hr, he, SourceEnd.read] at h
  | cons d rest =>
    simp only [hr, Except.ok.injEq, Option.some.injEq] at h
    rw [h, List.tail_cons]

/-- Only a code point that is there can be read. -/
theorem remaining_of_read_ne_some {s : Source} (h : ∀ c, s.read.1 ≠ .ok (some c)) :
    s.remaining = [] ∧ s.read.2.remaining = [] := by
  obtain ⟨h₁, h₂, -⟩ := s.read_eq
  cases hr : s.remaining with
  | nil => simp [h₂, hr]
  | cons c rest => exact absurd (by simp [h₁, hr]) (h c)

end Source

namespace Utf8

/-- Whether a fault may still turn out to be the beginning of a character, or of an encoded surrogate,
once more bytes arrive. -/
def mayContinue (bytes : List UInt8) (e : DecodeError) : Bool :=
  match e.reason, bytes.drop e.position with
  | .unexpectedEnd, _ => true
  | .invalidContinuation, [0xED, b] => 0xA0 ≤ b && b ≤ 0xBF
  | _, _ => false

/-- The text of some bytes to which more may be added, and those at the end that may begin a
character. -/
def decodeBlock (bytes : List UInt8) : Except DecodeError (List Char × List UInt8) :=
  match untilFault 0 (pieces bytes) with
  | (cs, none) => .ok (cs, [])
  | (cs, some e) => if mayContinue bytes e then .ok (cs, bytes.drop e.position) else .error e

end Utf8

/-- A reader of bytes that arrive in blocks, between two of them. It holds back what the next block may
complete: bytes that may begin a character, and a carriage return that a line feed may follow. -/
structure Decoder where
  held : List UInt8 := []
  heldReturn : Bool := false

namespace Decoder

/-- Characters after the carriage return that is held back. -/
def resume (d : Decoder) (cs : List Char) : List Char := if d.heldReturn then '\r' :: cs else cs

/-- The text that a block adds. A fault is met before any character of its block. -/
def feed (d : Decoder) (block : List UInt8) : Except Utf8.DecodeError (List Char × Decoder) := do
  let (cs, held) ← Utf8.decodeBlock (d.held ++ block)
  let chars := d.resume cs
  if chars.getLast? = some '\r' then
    return (unifyNewlines chars.dropLast, { held, heldReturn := true })
  else
    return (unifyNewlines chars, { held })

/-- The text that the end of the bytes adds. -/
def finish (d : Decoder) : Except Utf8.DecodeError (List Char) := do
  let cs ← Utf8.decode d.held
  return unifyNewlines (d.resume cs)

/-- The texts of all blocks, up to the first fault. -/
def readAll (d : Decoder) : List (List UInt8) → List (List Char) × SourceEnd
  | [] =>
    match d.finish with
    | .ok cs => ([cs], .exhausted)
    | .error e => ([], .undecodable e)
  | block :: rest =>
    match d.feed block with
    | .ok (cs, d') =>
      let (more, ending) := d'.readAll rest
      (cs :: more, ending)
    | .error e => ([], .undecodable e)

end Decoder

/-- A stream of UTF-8 bytes that arrive in blocks, with line ends unified. -/
def Source.ofBlocks (blocks : List (List UInt8)) : Source :=
  let (texts, ending) := Decoder.readAll {} blocks
  { chunks := [texts.flatten.map CodePoint.ofChar], ending }

end TapeMachine
