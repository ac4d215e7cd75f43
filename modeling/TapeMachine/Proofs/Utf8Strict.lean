import TapeMachine.Proofs.SourceBytes
import TapeMachine.Proofs.Utf8Text

/-!
Strict reading of UTF-8. Bytes are read as a text only if they are the bytes of that text
(`decode_eq_ok_iff`), and what is read before a fault are the bytes before it. Block by block it is the
same, so bytes that cannot be read all at once cannot be read as a stream either
(`Source.ofBlocks_of_decode_error`).
-/
namespace TapeMachine

-- Sums such as `v + 192` are compared by counting down the literal.
set_option maxRecDepth 4096

namespace Utf8

variable {low high acc taken code follow position : Nat} {b : UInt8} {xs bytes rest : List UInt8}
  {cs : List Char} {l : Lead} {fault : Option DecodeError}

theorem encode_append (cs ds : List Char) : encode (cs ++ ds) = encode cs ++ encode ds :=
  List.flatMap_append

/-- What completes a character are all the bytes that its lead byte announces. -/
theorem exists_of_tail (h : tail follow low high acc taken bytes = .done code rest) :
    ∃ xs, bytes = xs ++ rest ∧ xs.length = follow ∧ Continues low high xs ∧ code = gather acc xs := by
  induction follow generalizing low high acc taken bytes with
  | zero =>
    cases h
    exact ⟨[], rfl, rfl, trivial, rfl⟩
  | succ follow ih =>
    cases bytes with
    | nil => cases h
    | cons x bytes =>
      unfold tail at h
      split at h
      next hx =>
        obtain ⟨xs, rfl, hlength, hcontinues, hcode⟩ := ih h
        exact ⟨x :: xs, rfl, by simp [hlength], ⟨hx, hcontinues⟩, hcode⟩
      next => cases h

section EncodedSize

variable {v : Nat}

theorem encodeChar_one (h : v ≤ 0x7F) : String.utf8EncodeChar (Char.ofNat v) = [UInt8.ofNat v] := by
  have hv : (Char.ofNat v).val.toNat = v := CodePoint.toNat_ofNat (.inl (by omega))
  simp only [String.utf8EncodeChar, hv, h, ↓reduceIte]

theorem encodeChar_two (h : 0x7F < v) (h' : v ≤ 0x7FF) :
    String.utf8EncodeChar (Char.ofNat v) =
      [UInt8.ofNat (v / 64 % 32 + 192), UInt8.ofNat (v % 64 + 128)] := by
  have hv : (Char.ofNat v).val.toNat = v := CodePoint.toNat_ofNat (.inl (by omega))
  have h₁ : ¬ v ≤ 0x7F := by omega
  simp only [String.utf8EncodeChar, hv, h₁, h', ↓reduceIte]

theorem encodeChar_three (h : 0x7FF < v) (h' : v ≤ 0xFFFF) (hvalid : v.isValidChar) :
    String.utf8EncodeChar (Char.ofNat v) =
      [UInt8.ofNat (v / 4096 % 16 + 224), UInt8.ofNat (v / 64 % 64 + 128),
        UInt8.ofNat (v % 64 + 128)] := by
  have hv : (Char.ofNat v).val.toNat = v := CodePoint.toNat_ofNat hvalid
  have h₁ : ¬ v ≤ 0x7F := by omega
  have h₂ : ¬ v ≤ 0x7FF := by omega
  simp only [String.utf8EncodeChar, hv, h₁, h₂, h', ↓reduceIte]

theorem encodeChar_four (h : 0xFFFF < v) (h' : v ≤ 0x10FFFF) :
    String.utf8EncodeChar (Char.ofNat v) =
      [UInt8.ofNat (v / 262144 % 8 + 240), UInt8.ofNat (v / 4096 % 64 + 128),
        UInt8.ofNat (v / 64 % 64 + 128), UInt8.ofNat (v % 64 + 128)] := by
  have hv : (Char.ofNat v).val.toNat = v := CodePoint.toNat_ofNat (.inr ⟨by omega, by omega⟩)
  have h₁ : ¬ v ≤ 0x7F := by omega
  have h₂ : ¬ v ≤ 0x7FF := by omega
  have h₃ : ¬ v ≤ 0xFFFF := by omega
  simp only [String.utf8EncodeChar, hv, h₁, h₂, h₃, ↓reduceIte]

end EncodedSize

theorem byte_eq {n : Nat} (h : n = b.toNat) : UInt8.ofNat n = b := by
  rw [h, UInt8.ofNat_toNat]

theorem lead?_eq_none {n : Nat} (h : 0x80 ≤ n ∧ n < 0xC2 ∨ 0xF4 < n) : lead? n = none := by
  rcases h with ⟨h, h'⟩ | h
  · rw [lead?, if_neg (by omega), if_pos h']
  · rw [lead?, if_neg (by omega), if_neg (by omega), if_neg (by omega), if_neg (by omega),
      if_neg (by omega), if_neg (by omega), if_neg (by omega), if_neg (by omega), if_neg (by omega)]

/-- A lead byte and the bytes that it announces are the ones of the character that they lead to. -/
theorem encodeChar_gather (hlead : lead? b.toNat = some l) (hlength : xs.length = l.follow)
    (hxs : Continues l.low l.high xs) :
    String.utf8EncodeChar (Char.ofNat (gather l.bits xs)) = b :: xs := by
  rcases Nat.lt_or_ge b.toNat 0x80 with h₁ | h₁
  · rw [lead?_one h₁] at hlead
    cases hlead
    obtain rfl := List.length_eq_zero_iff.1 hlength
    have hv : gather b.toNat [] = b.toNat := rfl
    rw [hv, encodeChar_one (by omega), byte_eq rfl]
  rcases Nat.lt_or_ge b.toNat 0xC2 with h₂ | h₂
  · rw [lead?_eq_none (.inl ⟨h₁, h₂⟩)] at hlead
    cases hlead
  rcases Nat.lt_or_ge b.toNat 0xE0 with h₃ | h₃
  · rw [lead?_two h₂ h₃] at hlead
    cases hlead
    obtain ⟨x, rfl⟩ := List.length_eq_one_iff.1 hlength
    obtain ⟨hx, -⟩ := hxs
    dsimp only at hx
    generalize hv : gather (b.toNat - 0xC0) [x] = v
    simp only [gather, List.foldl_cons, List.foldl_nil, addBits] at hv
    rw [encodeChar_two (by omega) (by omega), byte_eq (b := b) (by omega), byte_eq (b := x) (by omega)]
  rcases Nat.lt_or_ge b.toNat 0xF0 with h₄ | h₄
  · rw [lead?_three h₃ h₄] at hlead
    cases hlead
    obtain ⟨x, y, rfl⟩ : ∃ x y, xs = [x, y] := by
      obtain ⟨x, xs, rfl⟩ := List.exists_cons_of_length_eq_add_one hlength
      obtain ⟨y, rfl⟩ := List.length_eq_one_iff.1 (Nat.succ.inj hlength)
      exact ⟨x, y, rfl⟩
    obtain ⟨hx, hy, -⟩ := hxs
    dsimp only at hx
    generalize hv : gather (b.toNat - 0xE0) [x, y] = v
    simp only [gather, List.foldl_cons, List.foldl_nil, addBits] at hv
    have hvalid : v.isValidChar := by
      unfold Nat.isValidChar
      split at hx <;> split at hx <;> omega
    have hlow : 0x7FF < v := by split at hx <;> omega
    have hrange : 0x80 ≤ x.toNat ∧ x.toNat ≤ 0xBF := by split at hx <;> split at hx <;> omega
    rw [encodeChar_three hlow (by omega) hvalid, byte_eq (b := b) (by omega),
      byte_eq (b := x) (by omega), byte_eq (b := y) (by omega)]
  rcases Nat.lt_or_ge 0xF4 b.toNat with h₅ | h₅
  · rw [lead?_eq_none (.inr h₅)] at hlead
    cases hlead
  · rw [lead?_four h₄ h₅] at hlead
    cases hlead
    obtain ⟨x, y, z, rfl⟩ : ∃ x y z, xs = [x, y, z] := by
      obtain ⟨x, xs, rfl⟩ := List.exists_cons_of_length_eq_add_one hlength
      obtain ⟨y, xs, rfl⟩ := List.exists_cons_of_length_eq_add_one (Nat.succ.inj hlength)
      obtain ⟨z, rfl⟩ := List.length_eq_one_iff.1 (Nat.succ.inj (Nat.succ.inj hlength))
      exact ⟨x, y, z, rfl⟩
    obtain ⟨hx, hy, hz, -⟩ := hxs
    dsimp only at hx
    generalize hv : gather (b.toNat - 0xF0) [x, y, z] = v
    simp only [gather, List.foldl_cons, List.foldl_nil, addBits] at hv
    have hlow : 0xFFFF < v := by split at hx <;> omega
    have hhigh : v ≤ 0x10FFFF := by split at hx <;> split at hx <;> omega
    have hrange : 0x80 ≤ x.toNat ∧ x.toNat ≤ 0xBF := by split at hx <;> split at hx <;> omega
    rw [encodeChar_four hlow hhigh, byte_eq (b := b) (by omega), byte_eq (b := x) (by omega),
      byte_eq (b := y) (by omega), byte_eq (b := z) (by omega)]

/-- A piece that is a character stands for the bytes of this character. -/
theorem encodeChar_of_piece {c : Char} (h : piece b bytes = (.scalar c, rest)) :
    b :: bytes = String.utf8EncodeChar c ++ rest := by
  unfold piece at h
  cases hlead : lead? b.toNat with
  | none => simp [hlead] at h
  | some l =>
    rw [hlead] at h
    cases htail : tail l.follow l.low l.high l.bits 1 bytes with
    | broken n reason rest' => simp [htail] at h
    | done code rest' =>
      simp only [htail, Prod.mk.injEq, Piece.scalar.injEq] at h
      obtain ⟨rfl, rfl⟩ := h
      obtain ⟨xs, rfl, hlength, hxs, rfl⟩ := exists_of_tail htail
      rw [encodeChar_gather hlead hlength hxs]
      rfl

/-- What is read before a fault are the bytes before it; without a fault these are all. -/
theorem eq_encode_of_untilFault (h : untilFault position (pieces bytes) = (cs, fault)) :
    ∃ rest, bytes = encode cs ++ rest ∧ (fault = none → rest = []) ∧
      ∀ e, fault = some e → e.position = position + (encode cs).length := by
  fun_induction pieces bytes generalizing position cs fault with
  | case1 =>
    cases h
    exact ⟨[], rfl, fun _ => rfl, fun e he => absurd he (by simp)⟩
  | case2 b bytes ih =>
    cases hpiece : piece b bytes with
    | mk first after =>
      rw [hpiece] at h ih
      cases first with
      | faulty x n reason =>
        cases h
        refine ⟨b :: bytes, rfl, fun he => absurd he (by simp), ?_⟩
        rintro e ⟨⟩
        rfl
      | scalar c =>
        simp only [untilFault, Prod.mk.injEq] at h
        obtain ⟨rfl, rfl⟩ := h
        obtain ⟨rest, hafter, hnone, hsome⟩ := ih rfl
        refine ⟨rest, ?_, hnone, ?_⟩
        · rw [encodeChar_of_piece hpiece, encode_cons, List.append_assoc, ← hafter]
        · intro e he
          rw [hsome e he, encode_cons, List.length_append, String.length_utf8EncodeChar, Nat.add_assoc]

/-- Strict reading accepts exactly the bytes of a text, and reads them as this text. -/
theorem decode_eq_ok_iff : decode bytes = .ok cs ↔ bytes = encode cs := by
  refine ⟨fun h => ?_, fun h => h ▸ decode_encode cs⟩
  unfold decode at h
  split at h
  next ds hread =>
    cases h
    obtain ⟨rest, hbytes, hrest, -⟩ := eq_encode_of_untilFault hread
    rw [hbytes, hrest rfl, List.append_nil]
  next => cases h

/-- A block is cut into the bytes of its text and those that are held back. -/
theorem eq_encode_of_decodeBlock {held : List UInt8} (h : decodeBlock bytes = .ok (cs, held)) :
    bytes = encode cs ++ held := by
  unfold decodeBlock at h
  split at h
  next ds hread =>
    cases h
    obtain ⟨rest, hbytes, hrest, -⟩ := eq_encode_of_untilFault hread
    rw [hbytes, hrest rfl]
  next ds e hread =>
    split at h
    next =>
      cases h
      obtain ⟨rest, hbytes, -, hposition⟩ := eq_encode_of_untilFault hread
      have hheld : bytes.drop e.position = rest := by
        rw [hposition e rfl, Nat.zero_add, hbytes, List.drop_left]
      rw [hheld, hbytes]
    next => cases h

end Utf8

namespace Decoder

open Utf8

variable {d : Decoder} {block : List UInt8} {blocks : List (List UInt8)} {texts : List (List Char)}
  {ending : SourceEnd}

theorem feed_of_error {e : DecodeError} (h : decodeBlock (d.held ++ block) = .error e) :
    d.feed block = .error e := by
  rw [feed, h]
  rfl

/-- Only what is in the bytes is read; and if the end is reached, they are the bytes of a text. -/
theorem eq_encode_of_readAll (h : d.readAll blocks = (texts, ending)) :
    (texts.flatten = [] ∨ ∃ cs rest, d.held ++ blocks.flatten = encode cs ++ rest ∧
      texts.flatten = unifyNewlines (d.resume cs)) ∧
    (ending = .exhausted → ∃ cs, d.held ++ blocks.flatten = encode cs) := by
  induction blocks generalizing d texts ending with
  | nil =>
    rw [List.flatten_nil, List.append_nil]
    unfold readAll finish at h
    cases hread : decode d.held with
    | ok cs =>
      rw [hread] at h
      cases h
      have hheld := decode_eq_ok_iff.1 hread
      exact ⟨.inr ⟨cs, [], by rw [hheld, List.append_nil], List.flatten_singleton⟩, fun _ => ⟨cs, hheld⟩⟩
    | error e =>
      rw [hread] at h
      cases h
      refine ⟨.inl rfl, fun he => ?_⟩
      cases he
  | cons block blocks ih =>
    rw [List.flatten_cons, ← List.append_assoc]
    unfold readAll at h
    cases hblock : decodeBlock (d.held ++ block) with
    | error e =>
      rw [feed_of_error hblock] at h
      cases h
      refine ⟨.inl rfl, fun he => ?_⟩
      cases he
    | ok r =>
      obtain ⟨done, held⟩ := r
      obtain ⟨cs, d', hfeed, rfl, hjoin, hadded⟩ := exists_feed hblock
      cases hmore : d'.readAll blocks with
      | mk more ending' =>
        simp only [hfeed, hmore, Prod.mk.injEq] at h
        obtain ⟨rfl, rfl⟩ := h
        obtain ⟨hread, hend⟩ := ih hmore
        rw [eq_encode_of_decodeBlock hblock, List.flatten_cons, List.append_assoc]
        refine ⟨?_, fun he => ?_⟩
        · rcases hread with hread | ⟨ds, rest, hrest, hread⟩
          · rw [hread, List.append_nil]
            rcases hadded with hcs | ⟨front, ⟨back, rfl⟩, hcs⟩
            · exact .inl hcs
            · rw [encode_append, List.append_assoc]
              exact .inr ⟨front, _, rfl, hcs⟩
          · refine .inr ⟨done ++ ds, rest, ?_, ?_⟩
            · rw [hrest, encode_append, List.append_assoc]
            · rw [hread, hjoin]
        · obtain ⟨ds, hds⟩ := hend he
          exact ⟨done ++ ds, by rw [hds, encode_append]⟩

end Decoder

/-- A stream that cannot be read to its end delivers the text of bytes at its beginning, and then the
fault. -/
theorem Source.ofBlocks_of_decode_error {blocks : List (List UInt8)} {e : Utf8.DecodeError}
    (h : Utf8.decode blocks.flatten = .error e) :
    ∃ cs rest e', blocks.flatten = Utf8.encode cs ++ rest ∧
      ofBlocks blocks =
        { chunks := [(unifyNewlines cs).map CodePoint.ofChar], ending := .undecodable e' } := by
  cases hread : Decoder.readAll {} blocks with
  | mk texts ending =>
    obtain ⟨htexts, hend⟩ := Decoder.eq_encode_of_readAll hread
    rw [List.nil_append] at htexts hend
    cases ending with
    | exhausted =>
      obtain ⟨cs, hcs⟩ := hend rfl
      rw [Utf8.decode_eq_ok_iff.2 hcs] at h
      cases h
    | undecodable e' =>
      simp only [ofBlocks, hread]
      rcases htexts with hnil | ⟨cs, rest, hbytes, htext⟩
      · exact ⟨[], blocks.flatten, e', rfl, by rw [hnil]; rfl⟩
      · exact ⟨cs, rest, e', hbytes, by rw [htext]; rfl⟩

end TapeMachine
