import TapeMachine.Json.Reader
import TapeMachine.Proofs.Numeral

/-!
Strings and integers of JSON: what is written is read back (`stringBody_escape`, `number_toString`).
-/
namespace TapeMachine.Json

section Strings

variable {c e : Char} {fuel : Nat} {rest : List Char}

theorem hexDigit?_digitChar : ∀ d < 16, hexDigit? d.digitChar = some d := by decide

theorem hexText_control {n : Nat} (h : n < 0x20) :
    (hexText 4 n).toList = ['0', '0', (n / 16).digitChar, (n % 16).digitChar] := by
  rw [hexText, String.toList_ofList]
  rcases Nat.lt_or_ge n 16 with hn | hn
  · rw [Nat.toDigits_of_lt_base hn, Nat.div_eq_of_lt hn, Nat.mod_eq_of_lt hn]
    rfl
  · rw [Nat.toDigits_of_base_le (by decide) hn, Nat.toDigits_of_lt_base (by omega)]
    rfl

/-- A control character is written as an escape with four digits. -/
theorem unicodeEscape?_control (h : c.toNat < 0x20) (rest : List Char) :
    unicodeEscape? ((hexText 4 c.toNat).toList ++ rest) = some (c, rest) := by
  have hz : hexDigit? '0' = some 0 := by decide
  have ha := hexDigit?_digitChar (c.toNat / 16) (by omega)
  have hb := hexDigit?_digitChar (c.toNat % 16) (by omega)
  have hn : ((0 * 16 + 0) * 16 + c.toNat / 16) * 16 + c.toNat % 16 = c.toNat := by omega
  rw [hexText_control h]
  simp only [List.cons_append, List.nil_append, unicodeEscape?, hex4?, hz, ha, hb,
    Option.bind_eq_bind, Option.bind_some, Option.pure_def, hn]
  rw [if_neg (by omega), if_neg (by omega), Char.ofNat_toNat]

theorem stringBody_short (he : e ≠ 'u') (hc : shortEscape? e = some c) :
    stringBody (fuel + 1) ('\\' :: e :: rest) =
      (stringBody fuel rest).map fun p => (c :: p.1, p.2) := by
  rw [stringBody]
  · simp only [hc]
    cases stringBody fuel rest <;> rfl
  · simpa using he

theorem stringBody_plain (hq : c ≠ '"') (hb : c ≠ '\\') (hc : ¬ c.toNat < 0x20) :
    stringBody (fuel + 1) (c :: rest) = (stringBody fuel rest).map fun p => (c :: p.1, p.2) := by
  rw [stringBody]
  · rw [if_neg (by simp [hc, hb])]
    cases stringBody fuel rest <;> rfl
  · exact hq
  · exact fun _ h => absurd h hb
  · exact fun _ _ h => absurd h hb

theorem stringBody_control (h : c.toNat < 0x20) :
    stringBody (fuel + 1) ('\\' :: 'u' :: ((hexText 4 c.toNat).toList ++ rest)) =
      (stringBody fuel rest).map fun p => (c :: p.1, p.2) := by
  rw [stringBody, unicodeEscape?_control h]
  simp only [Option.bind_eq_bind, Option.bind_some]
  cases stringBody fuel rest <;> rfl

/-- An escaped character is read as that character. -/
theorem stringBody_escapeChar (c : Char) (fuel : Nat) (rest : List Char) :
    stringBody (fuel + 1) (escapeChar c ++ rest) =
      (stringBody fuel rest).map fun p => (c :: p.1, p.2) := by
  unfold escapeChar
  split
  case h_8 hq hb _ _ _ _ _ =>
    split
    next hc => exact stringBody_control hc
    next hc => exact stringBody_plain hq hb hc
  all_goals exact stringBody_short (by decide) rfl

/-- What is written between quotes is read up to the closing quote. -/
theorem stringBody_escape (s rest : List Char) (h : s.length < fuel) :
    stringBody fuel (s.flatMap escapeChar ++ '"' :: rest) = some (s, rest) := by
  induction s generalizing fuel with
  | nil =>
    obtain ⟨k, rfl⟩ := Nat.exists_eq_add_of_lt h
    rfl
  | cons c s ih =>
    obtain ⟨k, rfl⟩ := Nat.exists_eq_add_of_lt h
    rw [List.flatMap_cons, List.append_assoc, stringBody_escapeChar, ih (by simp; omega)]
    rfl

theorem length_le_escape (s : List Char) : s.length ≤ (s.flatMap escapeChar).length := by
  induction s with
  | nil => simp
  | cons c s ih =>
    have hc : 0 < (escapeChar c).length := by
      unfold escapeChar
      split <;> first | decide | (split <;> simp)
    rw [List.flatMap_cons, List.length_append, List.length_cons]
    omega

/-- Reading a string takes no more steps than there are characters. -/
theorem stringBody_quoted (s rest : List Char) :
    stringBody ((s.flatMap escapeChar ++ '"' :: rest).length + 1)
      (s.flatMap escapeChar ++ '"' :: rest) = some (s, rest) := by
  apply stringBody_escape
  have := length_le_escape s
  rw [List.length_append]
  omega

end Strings

section Integers

open Numeral

variable {rest ds : List Char} {m : Nat}

/-- What can come after an integer without being part of it. -/
def Delimited (rest : List Char) : Prop :=
  ∀ c ∈ rest.head?, isDigit c = false ∧ c ≠ '.' ∧ c ≠ 'e' ∧ c ≠ 'E'

theorem isDigit_of_range {c : Char} (h : 48 ≤ c.toNat ∧ c.toNat < 58) : isDigit c = true := by
  simp only [isDigit, Bool.and_eq_true, decide_eq_true_eq]
  exact ⟨h.1, Nat.le_of_lt_succ h.2⟩

theorem takeWhile_digits (hd : Digits m ds) (hr : Delimited rest) :
    (ds ++ rest).takeWhile isDigit = ds ∧ (ds ++ rest).dropWhile isDigit = rest := by
  have hds : ∀ c ∈ ds, isDigit c = true := fun c hc => isDigit_of_range (hd.range c hc)
  rw [List.takeWhile_append_of_pos hds, List.dropWhile_append_of_pos hds]
  cases rest with
  | nil => simp
  | cons c rest =>
    have hc := (hr c rfl).1
    rw [List.takeWhile_cons_of_neg (by simp [hc]), List.dropWhile_cons_of_neg (by simp [hc])]
    simp

theorem fraction?_delimited (h : Delimited rest) : fraction? rest = some (none, rest) := by
  rw [fraction?]
  rintro r rfl
  exact (h '.' rfl).2.1 rfl

theorem exponent?_delimited (h : Delimited rest) : exponent? rest = some (none, rest) := by
  cases rest with
  | nil => rfl
  | cons c rest =>
    obtain ⟨-, -, he, hE⟩ := h c rfl
    simp [exponent?, he, hE]

theorem unsigned_digits (hd : Digits m ds) (negative : Bool)
    (hlen : ds.length + negative.toNat ≤ maxIntegerLength) (hr : Delimited rest) :
    unsigned negative (ds ++ rest) = some (.int (Integer.signed negative m), rest) := by
  obtain ⟨htake, hdrop⟩ := takeWhile_digits hd hr
  have hvalue : digitsValue ds = m := hd.value
  have hshape : ¬ (ds.isEmpty || (ds.head? == some '0' && decide (1 < ds.length))) = true := by
    have hne := hd.ne_nil
    have hzero := hd.no_leading_zero
    simp only [Bool.or_eq_true, List.isEmpty_iff, Bool.and_eq_true, beq_iff_eq,
      decide_eq_true_eq, not_or, not_and]
    exact ⟨hne, fun h => by have := hzero h; omega⟩
  simp only [unsigned, htake, hdrop]
  rw [if_neg hshape, if_neg (by omega), fraction?_delimited hr]
  simp only [Option.bind_eq_bind, Option.bind_some, exponent?_delimited hr, hvalue]
  rfl

/-- The text of an integer is read as that integer, if it is not too long. -/
theorem number_toString {n : Int} (h : (toString n).length ≤ maxIntegerLength)
    (hr : Delimited rest) : number ((toString n).toList ++ rest) = some (.int n, rest) := by
  obtain ⟨negative, m, ds, hn, hd, hs⟩ := toString_cases n
  have hlen : ds.length + negative.toNat ≤ maxIntegerLength := by
    rw [← String.length_toList, hs] at h
    cases negative <;> simp at h ⊢ <;> omega
  have hread := unsigned_digits hd negative hlen hr
  rw [← hn] at hread
  rw [hs, List.append_assoc, ← hread]
  obtain ⟨c, cs, rfl⟩ := List.exists_cons_of_ne_nil hd.ne_nil
  have hc := hd.range c (by simp)
  -- A digit is neither a minus sign nor the beginning of a word.
  cases negative with
  | true =>
    rw [if_pos rfl, List.singleton_append, List.cons_append, number]
    intro r he
    rw [(List.cons.inj he).1] at hc
    exact absurd hc (by decide)
  | false =>
    rw [if_neg (by decide), List.nil_append, List.cons_append, number]
    · intro r he
      rw [(List.cons.inj he).1] at hc
      exact absurd hc (by decide)
    · intro r he
      rw [(List.cons.inj he).1] at hc
      exact absurd hc (by decide)

end Integers

end TapeMachine.Json
