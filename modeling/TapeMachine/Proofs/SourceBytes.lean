import TapeMachine.Program

/-!
Programs from bytes. However the bytes of a file fall into characters and faulty stretches, no ASCII
byte is part of a longer piece, and no longer piece is read as an ASCII character (`piece_cases`).
Reading a program from bytes is therefore the same as picking out the bytes that are symbols
(`ofBytes_keeps_symbols`).
-/
namespace TapeMachine

namespace Utf8

variable {follow low high acc taken code : Nat} {bytes rest : List UInt8} {l : Lead}

/-- What comes after the bytes that were read. -/
def Tail.after : Tail → List UInt8
  | .done _ rest => rest
  | .broken _ _ rest => rest

/-- Only bytes beyond ASCII are taken after a lead byte. -/
theorem exists_taken (follow low high acc taken : Nat) (bytes : List UInt8) (h : 0x80 ≤ low) :
    ∃ front, bytes = front ++ (tail follow low high acc taken bytes).after ∧
      ∀ x ∈ front, 0x80 ≤ x.toNat := by
  fun_induction tail follow low high acc taken bytes with
  | case1 | case2 | case4 => exact ⟨[], rfl, by simp⟩
  | case3 follow low high acc taken b rest hb ih =>
    obtain ⟨front, hf, hx⟩ := ih (by decide)
    refine ⟨b :: front, ?_, ?_⟩
    · rw [List.cons_append, ← hf]
    · rintro x (_ | ⟨_, hm⟩)
      · omega
      · exact hx x hm

/-- Bytes that may be any continuation add six bits each. -/
theorem code_of_tail (h : tail follow 0x80 0xBF acc taken bytes = .done code rest) :
    acc * Nat.pow 64 follow ≤ code ∧ code < (acc + 1) * Nat.pow 64 follow := by
  induction follow generalizing acc taken bytes with
  | zero =>
    cases h
    simp
  | succ n ih =>
    cases bytes with
    | nil => cases h
    | cons b rest' =>
      unfold tail at h
      split at h
      next hb =>
        obtain ⟨h₁, h₂⟩ := ih h
        have hlow : acc * 64 * Nat.pow 64 n ≤ (acc * 64 + (b.toNat - 0x80)) * Nat.pow 64 n :=
          Nat.mul_le_mul_right _ (by omega)
        have hhigh : (acc * 64 + (b.toNat - 0x80) + 1) * Nat.pow 64 n ≤ (acc + 1) * 64 * Nat.pow 64 n :=
          Nat.mul_le_mul_right _ (by omega)
        have hpow : Nat.pow 64 (n + 1) = 64 * Nat.pow 64 n := Nat.pow_succ'
        rw [hpow, ← Nat.mul_assoc, ← Nat.mul_assoc]
        omega
      next => cases h

namespace Lead

/-- The least code that a lead byte can begin. -/
def least (l : Lead) : Nat := (l.bits * 64 + (l.low - 0x80)) * Nat.pow 64 (l.follow - 1)

/-- A bound on the codes that a lead byte can begin. -/
def bound (l : Lead) : Nat := (l.bits * 64 + (l.high - 0x80) + 1) * Nat.pow 64 (l.follow - 1)

/-- What a lead byte beyond ASCII announces: more bytes beyond ASCII, and with them a character beyond
ASCII that is no surrogate. -/
structure Multibyte (l : Lead) : Prop where
  follow_pos : 0 < l.follow
  le_low : 0x80 ≤ l.low
  le_least : 0x80 ≤ l.least
  valid : l.bound ≤ 0xD800 ∨ 0xDFFF < l.least ∧ l.bound ≤ 0x110000

end Lead

theorem multibyte_of_lead? {n : Nat} (h : lead? n = some l) (hn : 0x80 ≤ n) : l.Multibyte := by
  unfold lead? at h
  rw [if_neg (by omega)] at h
  repeat' split at h
  all_goals
    cases h
  all_goals
    constructor <;> simp only [Lead.least, Lead.bound, Nat.pow_eq] <;> omega

/-- What is read after a lead byte is in the range that the lead byte announces. -/
theorem Lead.Multibyte.code_range (hl : l.Multibyte)
    (h : tail l.follow l.low l.high l.bits taken bytes = .done code rest) :
    l.least ≤ code ∧ code < l.bound := by
  have hlow := hl.le_low
  obtain ⟨k, hk⟩ : ∃ k, l.follow = k + 1 := ⟨l.follow - 1, by have := hl.follow_pos; omega⟩
  rw [hk] at h
  unfold least bound
  rw [hk, Nat.add_sub_cancel]
  cases bytes with
  | nil => cases h
  | cons b rest' =>
    unfold tail at h
    split at h
    next hb =>
      obtain ⟨h₁, h₂⟩ := code_of_tail h
      have hleast : (l.bits * 64 + (l.low - 0x80)) * Nat.pow 64 k ≤
          (l.bits * 64 + (b.toNat - 0x80)) * Nat.pow 64 k := Nat.mul_le_mul_right _ (by omega)
      have hbound : (l.bits * 64 + (b.toNat - 0x80) + 1) * Nat.pow 64 k ≤
          (l.bits * 64 + (l.high - 0x80) + 1) * Nat.pow 64 k := Nat.mul_le_mul_right _ (by omega)
      omega
    next => cases h

/-- A piece is an ASCII byte by itself, or a stretch of bytes beyond ASCII, and then it is read as a
character beyond ASCII, faulty or not. -/
theorem piece_cases (b : UInt8) (rest : List UInt8) :
    b.toNat < 0x80 ∧ piece b rest = (.scalar (Char.ofNat b.toNat), rest) ∨
    ∃ stretch, b :: rest = stretch ++ (piece b rest).2 ∧ (∀ x ∈ stretch, 0x80 ≤ x.toNat) ∧
      0x80 ≤ (piece b rest).1.repaired.toNat := by
  rcases Nat.lt_or_ge b.toNat 0x80 with hb | hb
  · left
    simp [piece, lead?, hb, tail]
  · right
    cases hl : lead? b.toNat with
    | none =>
      refine ⟨[b], ?_, ?_, ?_⟩
      · simp [piece, hl]
      · simpa using hb
      · simp [piece, hl, Piece.repaired]
    | some l =>
      have hm := multibyte_of_lead? hl hb
      obtain ⟨front, hf, hx⟩ := exists_taken l.follow l.low l.high l.bits 1 rest hm.le_low
      have hstretch : ∀ x ∈ b :: front, 0x80 ≤ x.toNat := by simpa using ⟨hb, hx⟩
      cases ht : tail l.follow l.low l.high l.bits 1 rest with
      | broken n reason rest' =>
        have hp : piece b rest = (.faulty b n reason, rest') := by simp [piece, hl, ht]
        rw [ht] at hf
        rw [hp]
        exact ⟨b :: front, congrArg (b :: ·) hf, hstretch, by simp [Piece.repaired]⟩
      | done code rest' =>
        have hp : piece b rest = (.scalar (Char.ofNat code), rest') := by simp [piece, hl, ht]
        obtain ⟨hle, hlt⟩ := hm.code_range ht
        have hcode : (Char.ofNat code).toNat = code := by
          have hv := hm.valid
          exact CodePoint.toNat_ofNat (by unfold Nat.isValidChar; omega)
        rw [ht] at hf
        rw [hp]
        refine ⟨b :: front, congrArg (b :: ·) hf, hstretch, ?_⟩
        have hleast := hm.le_least
        simp only [Piece.repaired]
        omega

end Utf8

/-- Unified line ends concern nobody who looks for other characters. -/
theorem filterMap_unifyNewlines {α : Type} {f : Char → Option α} (hr : f '\r' = none)
    (hn : f '\n' = none) (cs : List Char) : (unifyNewlines cs).filterMap f = cs.filterMap f := by
  fun_induction unifyNewlines cs with
  | case1 => rfl
  | case2 rest ih => simp [hr, hn, ih]
  | case3 rest _ ih => simp [hr, hn, ih]
  | case4 c rest _ _ ih => simp [List.filterMap_cons, ih]

namespace Instruction

/-- The instruction whose symbol is this byte. -/
def ofByte? (b : UInt8) : Option Instruction := all.find? fun i => b.toNat == i.symbol.toNat

theorem ofByte?_eq_none {b : UInt8} (h : 0x80 ≤ b.toNat) : ofByte? b = none := by
  rw [ofByte?, List.find?_eq_none]
  intro i _
  have hi : i.symbol.toNat < 0x80 := by cases i <;> decide
  simp only [beq_iff_eq]
  omega

theorem ofCodePoint?_eq_none {c : CodePoint} (h : 0x80 ≤ c.val) : ofCodePoint? c = none := by
  rw [ofCodePoint?, List.find?_eq_none]
  intro i _
  have hi : i.symbol.toNat < 0x80 := by cases i <;> decide
  simp only [CodePoint.is, beq_iff_eq]
  omega

theorem ofCodePoint?_byte {b : UInt8} (h : b.toNat < 0x80) :
    ofCodePoint? (CodePoint.ofChar (Char.ofNat b.toNat)) = ofByte? b := by
  have hb : (Char.ofNat b.toNat).toNat = b.toNat := CodePoint.toNat_ofNat (.inl (by omega))
  simp only [ofCodePoint?, ofByte?, CodePoint.is, CodePoint.ofChar, hb]

/-- A symbol is written as one byte. -/
theorem filterMap_utf8EncodeChar (i : Instruction) :
    (String.utf8EncodeChar i.symbol).filterMap ofByte? = [i] := by
  cases i <;> decide

end Instruction

open Instruction in
/-- Cutting bytes into pieces neither loses nor makes a symbol. -/
theorem Utf8.filterMap_repair (bytes : List UInt8) :
    (Utf8.repair bytes).filterMap (fun c => ofCodePoint? (CodePoint.ofChar c)) =
      bytes.filterMap ofByte? := by
  unfold repair
  fun_induction pieces bytes with
  | case1 => rfl
  | case2 b rest ih =>
    obtain ⟨hb, hp⟩ | ⟨stretch, hs, hx, hc⟩ := piece_cases b rest
    · simp [hp, List.filterMap_cons, Piece.repaired, ofCodePoint?_byte hb] at ih ⊢
      rw [ih]
    · have hnone : stretch.filterMap ofByte? = [] := by
        rw [List.filterMap_eq_nil_iff]
        exact fun x hm => ofByte?_eq_none (hx x hm)
      rw [hs, List.filterMap_append, hnone, List.nil_append, ← ih, List.map_cons,
        List.filterMap_cons_none]
      exact ofCodePoint?_eq_none hc

namespace Program

/-- The bytes of a program's text are its symbols. -/
theorem filterMap_source (p : Program) :
    p.source.toUTF8.data.toList.filterMap Instruction.ofByte? = p.instructions.toList := by
  rw [String.toUTF8_eq_toByteArray, source, String.toByteArray_ofList, List.utf8Encode,
    List.toList_data_toByteArray]
  induction p.instructions.toList with
  | nil => rfl
  | cons i is ih =>
    rw [List.map_cons, List.flatMap_cons, List.filterMap_append, ih,
      Instruction.filterMap_utf8EncodeChar]
    rfl

theorem instructions_ofBytes (bytes : List UInt8) :
    (ofBytes bytes).instructions.toList = bytes.filterMap Instruction.ofByte? := by
  simp only [ofBytes, ofSource, List.filterMap_map, Function.comp_def]
  rw [filterMap_unifyNewlines (by decide) (by decide), Utf8.filterMap_repair]

/-- Whatever the bytes of a file are, the program in it consists of the bytes that are symbols, in
their order. A program that is written to a file and read again is the same program. -/
theorem ofBytes_keeps_symbols (bytes : List UInt8) :
    (ofBytes bytes).instructions.toList = bytes.filterMap Instruction.ofByte? ∧
    ∀ p : Program, ofBytes p.source.toUTF8.data.toList = p := by
  refine ⟨instructions_ofBytes bytes, ?_⟩
  intro p
  have h := instructions_ofBytes p.source.toUTF8.data.toList
  rw [filterMap_source] at h
  exact congrArg Program.mk (Array.toList_inj.1 h)

end Program

end TapeMachine
