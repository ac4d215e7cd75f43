import TapeMachine.Source

/-!
Text as UTF-8. The bytes of a text are read back as that text, at once (`decode_encode`) or block by
block, wherever the blocks cut through a character or a line end (`Source.ofBlocks_of_encode`).
-/
namespace TapeMachine

-- Sums such as `v + 192` are compared by counting down the literal.
set_option maxRecDepth 4096

namespace Utf8

variable {low high acc taken : Nat} {xs rest : List UInt8} {cs : List Char}

/-- The bytes of some characters. -/
def encode (cs : List Char) : List UInt8 := cs.flatMap String.utf8EncodeChar

@[simp] theorem encode_nil : encode [] = [] := rfl

@[simp] theorem encode_cons (c : Char) (cs : List Char) :
    encode (c :: cs) = String.utf8EncodeChar c ++ encode cs := rfl

theorem toUTF8_eq_encode (s : String) : s.toUTF8.data.toList = encode s.toList := by
  rw [String.toUTF8_eq_toByteArray, ← String.ofList_toList (s := s), String.toByteArray_ofList,
    List.utf8Encode, List.toList_data_toByteArray, String.ofList_toList]
  rfl

/-- Bytes that may follow a lead byte: the first in a range of its own, the others anywhere among the
continuation bytes. -/
def Continues (low high : Nat) : List UInt8 → Prop
  | [] => True
  | x :: xs => (low ≤ x.toNat ∧ x.toNat ≤ high) ∧ Continues 0x80 0xBF xs

/-- A continuation byte adds six bits to a code. -/
def addBits (acc : Nat) (x : UInt8) : Nat := acc * 64 + (x.toNat - 0x80)

/-- The code that bytes after a lead byte lead to. -/
def gather (acc : Nat) (xs : List UInt8) : Nat := xs.foldl addBits acc

theorem Continues.of_append {ys : List UInt8} (h : Continues low high (xs ++ ys)) :
    Continues low high xs := by
  induction xs generalizing low high with
  | nil => trivial
  | cons x xs ih => exact ⟨h.1, ih h.2⟩

theorem tail_cons {follow : Nat} {x : UInt8} (h : low ≤ x.toNat ∧ x.toNat ≤ high) :
    tail (follow + 1) low high acc taken (x :: xs) =
      tail follow 0x80 0xBF (addBits acc x) (taken + 1) xs := if_pos h

/-- All bytes that a lead byte announces complete a character. -/
theorem tail_of_continues (h : Continues low high xs) (acc taken : Nat) (rest : List UInt8) :
    tail xs.length low high acc taken (xs ++ rest) = .done (gather acc xs) rest := by
  induction xs generalizing low high acc taken with
  | nil => rfl
  | cons x xs ih =>
    rw [List.length_cons, List.cons_append, tail_cons h.1]
    exact ih h.2 _ _

/-- To fewer bytes than a lead byte announces, an end is missing. -/
theorem tail_of_continues_lt {follow : Nat} (h : Continues low high xs) (hlt : xs.length < follow)
    (acc taken : Nat) : ∃ n, tail follow low high acc taken xs = .broken n .unexpectedEnd [] := by
  obtain ⟨k, rfl⟩ : ∃ k, follow = k + 1 := ⟨follow - 1, by omega⟩
  induction xs generalizing low high acc taken k with
  | nil => exact ⟨taken, rfl⟩
  | cons x xs ih =>
    rw [List.length_cons] at hlt
    obtain ⟨j, rfl⟩ : ∃ j, k = j + 1 := ⟨k - 1, by omega⟩
    rw [tail_cons h.1]
    exact ih h.2 _ _ j (by omega)

/-- A character is written as a lead byte and the bytes that it announces. -/
structure Written (c : Char) (b : UInt8) (l : Lead) (xs : List UInt8) : Prop where
  bytes_eq : String.utf8EncodeChar c = b :: xs
  lead_eq : lead? b.toNat = some l
  follow_eq : xs.length = l.follow
  continues : Continues l.low l.high xs
  code_eq : gather l.bits xs = c.toNat

section LeadBytes

variable {n : Nat}

theorem lead?_one (h : n < 0x80) : lead? n = some ⟨0, 0, 0, n⟩ := if_pos h

theorem lead?_two (h : 0xC2 ≤ n) (h' : n < 0xE0) : lead? n = some ⟨1, 0x80, 0xBF, n - 0xC0⟩ := by
  rw [lead?, if_neg (by omega), if_neg (by omega), if_pos h']

theorem lead?_three (h : 0xE0 ≤ n) (h' : n < 0xF0) :
    lead? n = some ⟨2, if n = 0xE0 then 0xA0 else 0x80, if n = 0xED then 0x9F else 0xBF, n - 0xE0⟩ := by
  rw [lead?, if_neg (by omega), if_neg (by omega), if_neg (by omega)]
  by_cases h₁ : n = 0xE0
  · simp [h₁]
  · by_cases h₂ : n = 0xED
    · simp [h₂]
    · rw [if_neg h₁, if_neg h₂, if_pos h', if_neg h₁, if_neg h₂]

theorem lead?_four (h : 0xF0 ≤ n) (h' : n ≤ 0xF4) :
    lead? n = some ⟨3, if n = 0xF0 then 0x90 else 0x80, if n = 0xF4 then 0x8F else 0xBF, n - 0xF0⟩ := by
  rw [lead?, if_neg (by omega), if_neg (by omega), if_neg (by omega), if_neg (by omega),
    if_neg (by omega), if_neg (by omega)]
  by_cases h₁ : n = 0xF0
  · simp [h₁]
  · by_cases h₂ : n = 0xF4
    · simp [h₂]
    · rw [if_neg h₁, if_pos (by omega), if_neg h₁, if_neg h₂]

end LeadBytes

theorem toNat_byte {n : Nat} (h : n < 0x100) : (UInt8.ofNat n).toNat = n := by
  rw [UInt8.toNat_ofNat']
  omega

/-- Every character is written in such a way. What a lead byte excludes are longer forms than needed,
surrogates, and codes beyond the last. -/
theorem exists_written (c : Char) : ∃ b l xs, Written c b l xs := by
  have hvalid := c.valid
  simp only [UInt32.isValidChar, Nat.isValidChar] at hvalid
  have hc : c.toNat = c.val.toNat := rfl
  generalize hv : c.val.toNat = v at hvalid hc
  by_cases h₁ : v ≤ 0x7F
  · have hb := toNat_byte (n := v) (by omega)
    have hlead := lead?_one (n := (UInt8.ofNat v).toNat) (by omega)
    refine ⟨_, _, [], ?_, hlead, rfl, trivial, ?_⟩
    · simp only [String.utf8EncodeChar, hv, h₁, ↓reduceIte]
    · simp only [gather, List.foldl_nil, hb, hc]
  by_cases h₂ : v ≤ 0x7FF
  · have hb := toNat_byte (n := v / 64 % 32 + 192) (by omega)
    have hx := toNat_byte (n := v % 64 + 128) (by omega)
    have hlead := lead?_two (n := (UInt8.ofNat (v / 64 % 32 + 192)).toNat) (by omega) (by omega)
    refine ⟨_, _, [UInt8.ofNat (v % 64 + 128)], ?_, hlead, rfl, ⟨?_, trivial⟩, ?_⟩
    · simp only [String.utf8EncodeChar, hv, h₁, h₂, ↓reduceIte]
    · dsimp only
      omega
    · simp only [gather, List.foldl_cons, List.foldl_nil, addBits, hb, hx, hc]
      omega
  by_cases h₃ : v ≤ 0xFFFF
  · have hb := toNat_byte (n := v / 4096 % 16 + 224) (by omega)
    have hx := toNat_byte (n := v / 64 % 64 + 128) (by omega)
    have hy := toNat_byte (n := v % 64 + 128) (by omega)
    have hlead := lead?_three (n := (UInt8.ofNat (v / 4096 % 16 + 224)).toNat) (by omega) (by omega)
    refine ⟨_, _, [UInt8.ofNat (v / 64 % 64 + 128), UInt8.ofNat (v % 64 + 128)], ?_, hlead, rfl,
      ⟨⟨?_, ?_⟩, ?_, trivial⟩, ?_⟩
    · simp only [String.utf8EncodeChar, hv, h₁, h₂, h₃, ↓reduceIte]
    · dsimp only
      split <;> omega
    · dsimp only
      split <;> omega
    · omega
    · simp only [gather, List.foldl_cons, List.foldl_nil, addBits, hb, hx, hy, hc]
      omega
  · have hb := toNat_byte (n := v / 262144 % 8 + 240) (by omega)
    have hx := toNat_byte (n := v / 4096 % 64 + 128) (by omega)
    have hy := toNat_byte (n := v / 64 % 64 + 128) (by omega)
    have hz := toNat_byte (n := v % 64 + 128) (by omega)
    have hlead := lead?_four (n := (UInt8.ofNat (v / 262144 % 8 + 240)).toNat) (by omega) (by omega)
    refine ⟨_, _, [UInt8.ofNat (v / 4096 % 64 + 128), UInt8.ofNat (v / 64 % 64 + 128),
      UInt8.ofNat (v % 64 + 128)], ?_, hlead, rfl, ⟨⟨?_, ?_⟩, ?_, ?_, trivial⟩, ?_⟩
    · simp only [String.utf8EncodeChar, hv, h₁, h₂, h₃, ↓reduceIte]
    · dsimp only
      split <;> omega
    · dsimp only
      split <;> omega
    · omega
    · omega
    · simp only [gather, List.foldl_cons, List.foldl_nil, addBits, hb, hx, hy, hz, hc]
      omega

/-- The bytes of a character are one piece, whatever follows. -/
theorem pieces_encodeChar (c : Char) (rest : List UInt8) :
    pieces (String.utf8EncodeChar c ++ rest) = .scalar c :: pieces rest := by
  obtain ⟨b, l, xs, h⟩ := exists_written c
  have hpiece : piece b (xs ++ rest) = (.scalar c, rest) := by
    have htail := tail_of_continues h.continues l.bits 1 rest
    rw [h.follow_eq, h.code_eq] at htail
    simp only [piece, h.lead_eq, htail, Char.ofNat_toNat]
  rw [h.bytes_eq, List.cons_append, pieces, hpiece]

theorem pieces_encode (cs : List Char) (rest : List UInt8) :
    pieces (encode cs ++ rest) = cs.map .scalar ++ pieces rest := by
  induction cs with
  | nil => rfl
  | cons c cs ih => rw [encode_cons, List.append_assoc, pieces_encodeChar, ih]; rfl

/-- Only the beginning of a character is one faulty stretch, to which something is missing. -/
theorem pieces_cut {c : Char} {front missing : List UInt8} (hfront : front ≠ [])
    (hmissing : missing ≠ []) (h : String.utf8EncodeChar c = front ++ missing) :
    ∃ b n, pieces front = [.faulty b n .unexpectedEnd] := by
  obtain ⟨b, l, xs, hw⟩ := exists_written c
  cases front with
  | nil => exact absurd rfl hfront
  | cons b' ys =>
    rw [hw.bytes_eq, List.cons_append] at h
    obtain ⟨rfl, rfl⟩ := List.cons.inj h
    have hlt : ys.length < l.follow := by
      have hpos := List.length_pos_iff.2 hmissing
      rw [← hw.follow_eq, List.length_append]
      omega
    obtain ⟨n, htail⟩ := tail_of_continues_lt hw.continues.of_append hlt l.bits 1
    refine ⟨b, n, ?_⟩
    simp only [pieces, piece, hw.lead_eq, htail]

/-- Characters are read up to the first faulty stretch after them. -/
theorem untilFault_scalars (cs : List Char) (more : List Piece) (position : Nat) :
    untilFault position (cs.map .scalar ++ more) =
      (cs ++ (untilFault (position + (encode cs).length) more).1,
        (untilFault (position + (encode cs).length) more).2) := by
  induction cs generalizing position with
  | nil => rfl
  | cons c cs ih =>
    simp only [List.map_cons, List.cons_append, untilFault, ih, encode_cons, List.length_append,
      String.length_utf8EncodeChar, Nat.add_assoc]

theorem untilFault_encode (cs : List Char) : untilFault 0 (pieces (encode cs)) = (cs, none) := by
  have h := pieces_encode cs []
  rw [List.append_nil] at h
  rw [h, untilFault_scalars]
  simp [pieces, untilFault]

/-- What is written as UTF-8 is read again. -/
theorem decode_encode (cs : List Char) : decode (encode cs) = .ok cs := by
  rw [decode, untilFault_encode]

/-- Bytes at a cut through the bytes of a text: none, or the beginning of the first character after the
cut. -/
inductive Pending : List UInt8 → List Char → Prop where
  | nothing (cs : List Char) : Pending [] cs
  | begun {c : Char} {front missing : List UInt8} (cs : List Char) (front_ne : front ≠ [])
      (missing_ne : missing ≠ []) (bytes_eq : String.utf8EncodeChar c = front ++ missing) :
      Pending front (c :: cs)

/-- Wherever the bytes of a text are cut, whole characters come first, and then perhaps the beginning of
one more. -/
theorem exists_pending {front back : List UInt8} (h : front ++ back = encode cs) :
    ∃ done left held, cs = done ++ left ∧ front = encode done ++ held ∧ Pending held left ∧
      held ++ back = encode left := by
  induction cs generalizing front with
  | nil =>
    obtain ⟨rfl, rfl⟩ := List.append_eq_nil_iff.1 h
    exact ⟨[], [], [], rfl, rfl, .nothing [], rfl⟩
  | cons c cs ih =>
    rcases List.append_eq_append_iff.1 h with ⟨missing, hc, hback⟩ | ⟨more, hfront, hcs⟩
    · by_cases hf : front = []
      · exact ⟨[], c :: cs, [], rfl, hf, .nothing _, by rw [← h, hf]⟩
      · by_cases hm : missing = []
        · refine ⟨[c], cs, [], rfl, ?_, .nothing cs, by rw [hback, hm]; rfl⟩
          simp [hc, hm]
        · exact ⟨[], c :: cs, front, rfl, rfl, .begun cs hf hm hc, h⟩
    · obtain ⟨done, left, held, rfl, rfl, hpending, hheld⟩ := ih hcs.symm
      exact ⟨c :: done, left, held, rfl, by simp [hfront], hpending, hheld⟩

/-- Up to a cut, whole characters are read; the beginning of one more is a fault that may be repaired. -/
theorem untilFault_pending {left : List Char} {held : List UInt8} (h : Pending held left)
    (done : List Char) :
    (held = [] ∧ untilFault 0 (pieces (encode done ++ held)) = (done, none)) ∨
    ∃ e, untilFault 0 (pieces (encode done ++ held)) = (done, some e) ∧
      e.position = (encode done).length ∧ e.reason = .unexpectedEnd := by
  cases h with
  | nothing cs => exact .inl ⟨rfl, by rw [List.append_nil, untilFault_encode]⟩
  | begun cs front_ne missing_ne bytes_eq =>
    obtain ⟨b, n, hpieces⟩ := pieces_cut front_ne missing_ne bytes_eq
    refine .inr ⟨⟨b, (encode done).length, n, .unexpectedEnd⟩, ?_, rfl, rfl⟩
    rw [pieces_encode, hpieces, untilFault_scalars]
    simp [untilFault]

/-- Up to a cut, a block is decoded, and the beginning of one more character is held back. -/
theorem decodeBlock_pending {left : List Char} {held : List UInt8} (h : Pending held left)
    (done : List Char) : decodeBlock (encode done ++ held) = .ok (done, held) := by
  rcases untilFault_pending h done with ⟨rfl, hread⟩ | ⟨e, hread, hposition, hreason⟩
  · simp only [decodeBlock, hread]
  · simp only [decodeBlock, hread, mayContinue, hreason, ↓reduceIte, hposition, List.drop_left]

end Utf8

namespace Decoder

open Utf8

variable {d : Decoder} {block held : List UInt8} {blocks : List (List UInt8)} {cs done : List Char}

theorem resume_append (d : Decoder) (cs ds : List Char) : d.resume (cs ++ ds) = d.resume cs ++ ds := by
  unfold resume
  split <;> rfl

/-- What one block adds is the text of its characters, up to what is held back. If it adds anything, this
is the text of characters at its beginning. -/
theorem exists_feed (h : decodeBlock (d.held ++ block) = .ok (done, held)) :
    ∃ cs d', d.feed block = .ok (cs, d') ∧ d'.held = held ∧
      (∀ left, unifyNewlines (d.resume (done ++ left)) = cs ++ unifyNewlines (d'.resume left)) ∧
      (cs = [] ∨ ∃ front, front <+: done ∧ cs = unifyNewlines (d.resume front)) := by
  simp only [feed, h, bind, Except.bind, pure, Except.pure]
  split
  next hlast =>
    refine ⟨_, _, rfl, rfl, fun left => ?_, ?_⟩
    · obtain ⟨front, hfront⟩ := List.getLast?_eq_some_iff.1 hlast
      rw [resume_append, hfront, List.dropLast_concat, List.append_assoc]
      exact unifyNewlines_append fun _ => by simp
    · -- The carriage return that is held back may be the one that was held back before.
      rcases done.eq_nil_or_concat with rfl | ⟨front, c, rfl⟩
      · refine .inl ?_
        unfold resume
        split <;> rfl
      · rw [List.concat_eq_append]
        refine .inr ⟨front, List.prefix_append _ _, ?_⟩
        rw [resume_append, List.dropLast_concat]
  next hlast =>
    refine ⟨_, _, rfl, rfl, fun left => ?_, .inr ⟨done, List.prefix_rfl, rfl⟩⟩
    rw [resume_append]
    exact unifyNewlines_append fun h => absurd h hlast

/-- However the bytes of a text are cut into blocks, the blocks are read as that text. -/
theorem readAll_encode (h : d.held ++ blocks.flatten = encode cs) (hheld : Pending d.held cs) :
    ∃ texts, d.readAll blocks = (texts, .exhausted) ∧
      texts.flatten = unifyNewlines (d.resume cs) := by
  induction blocks generalizing d cs with
  | nil =>
    rw [List.flatten_nil, List.append_nil] at h
    refine ⟨[unifyNewlines (d.resume cs)], ?_, List.flatten_singleton⟩
    simp only [readAll, finish, h, decode_encode]
    rfl
  | cons block blocks ih =>
    rw [List.flatten_cons, ← List.append_assoc] at h
    obtain ⟨done, left, held, rfl, hbytes, hpending, hleft⟩ := exists_pending h
    have hblock := decodeBlock_pending hpending done
    rw [← hbytes] at hblock
    obtain ⟨cs, d', hfeed, rfl, hjoin, -⟩ := exists_feed hblock
    obtain ⟨texts, htexts, hflatten⟩ := ih hleft hpending
    refine ⟨cs :: texts, ?_, ?_⟩
    · simp only [readAll, hfeed, htexts]
    · rw [List.flatten_cons, hflatten, hjoin]

end Decoder

/-- A stream that holds a text as UTF-8 is read as that text, with its line ends unified. -/
theorem Source.ofBlocks_of_encode {blocks : List (List UInt8)} {cs : List Char}
    (h : blocks.flatten = Utf8.encode cs) :
    ofBlocks blocks = ofText ((unifyNewlines cs).map CodePoint.ofChar) := by
  obtain ⟨texts, htexts, hflatten⟩ := Decoder.readAll_encode (d := {}) h (.nothing cs)
  simp only [ofBlocks, htexts, hflatten, ofText]
  rfl

end TapeMachine
