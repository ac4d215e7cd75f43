import TapeMachine.Number.Integer

/-!
The decimal text of an integer, and that reading it gives the integer back (`parseLoose_toString`).
-/
namespace TapeMachine

namespace Numeral

/-- The digits of a number: at least one, and the first is not zero unless it is the only one. -/
structure Digits (n : Nat) (ds : List Char) : Prop where
  range : ∀ c ∈ ds, 48 ≤ c.toNat ∧ c.toNat < 58
  ne_nil : ds ≠ []
  no_leading_zero : ds.head? = some '0' → ds.length = 1
  value : ds.foldl (fun v c => v * 10 + (c.toNat - 48)) 0 = n

/-- A digit is no other character. -/
theorem is_eq_false_of_digit {c d : Char} (hc : 48 ≤ c.toNat ∧ c.toNat < 58)
    (hd : d.toNat < 48 ∨ 58 ≤ d.toNat) : (CodePoint.ofChar c).is d = false := by
  simp only [CodePoint.is, CodePoint.ofChar, beq_eq_false_iff_ne]
  omega

theorem digitChar_ne_zero : ∀ n < 10, 0 < n → n.digitChar ≠ '0' := by decide

theorem head?_toDigits {n : Nat} (h : 0 < n) : (Nat.toDigits 10 n).head? ≠ some '0' := by
  induction n using Nat.strongRecOn with
  | ind n ih =>
    rw [Nat.toDigits_eq_if (by decide)]
    split
    next hn =>
      rw [List.head?_cons, ne_eq, Option.some.injEq]
      exact digitChar_ne_zero n hn h
    next hn =>
      have hq := ih (n / 10) (by omega) (by omega)
      obtain ⟨c, cs, hcs⟩ := List.exists_cons_of_ne_nil (Nat.toDigits_ne_nil (n := n / 10) (b := 10))
      rw [hcs] at hq ⊢
      exact hq

theorem digits_toDigits (n : Nat) : Digits n (Nat.toDigits 10 n) where
  range c hc := by
    have h := Nat.isDigit_of_mem_toDigits (by decide) (by decide) hc
    simp only [Char.isDigit, Bool.and_eq_true, decide_eq_true_eq, ge_iff_le] at h
    have h₁ : (48 : UInt32).toNat ≤ c.val.toNat := h.1
    have h₂ : c.val.toNat ≤ (57 : UInt32).toNat := h.2
    exact ⟨h₁, Nat.lt_succ_of_le h₂⟩
  ne_nil := Nat.toDigits_ne_nil
  no_leading_zero h := by
    rcases Nat.eq_zero_or_pos n with rfl | hn
    · rw [Nat.toDigits_zero]
      rfl
    · exact absurd h (head?_toDigits hn)
  value := by
    have h := Nat.ofDigitChars_ten_toDigits (n := n)
    rw [Nat.ofDigitChars_eq_foldl] at h
    simp only [Nat.mul_comm 10] at h
    exact h

/-- The text of an integer is a minus sign, if it is negative, and digits. -/
theorem toString_cases (n : Int) :
    ∃ negative m ds, n = Integer.signed negative m ∧ Digits m ds ∧
      (toString n).toList = (if negative then ['-'] else []) ++ ds := by
  have hs : toString n = n.repr := rfl
  rw [hs, Int.repr_eq_if]
  split
  next hn =>
    refine ⟨false, n.toNat, _, ?_, digits_toDigits n.toNat, ?_⟩
    · simp only [Integer.signed, Bool.false_eq_true, if_false]
      omega
    · rw [Nat.repr_eq_ofList_toDigits, String.toList_ofList]
      rfl
  next hn =>
    refine ⟨true, (-n).toNat, _, ?_, digits_toDigits (-n).toNat, ?_⟩
    · simp only [Integer.signed, if_true]
      omega
    · simp [Nat.repr_eq_ofList_toDigits]

end Numeral

namespace Text

/-- Nothing is trimmed from a text without code points of the class. -/
theorem trim_eq_self {p : CodePoint → Bool} {t : Text} (h : ∀ c ∈ t, p c = false) :
    t.trim p = t := by
  have hdrop : ∀ u : Text, (∀ c ∈ u, p c = false) → u.dropWhile p = u := by
    intro u hu
    cases u with
    | nil => rfl
    | cons c rest => rw [List.dropWhile_cons_of_neg (by simp [hu c])]
  rw [trim, hdrop t h, hdrop t.reverse (by simpa using h), List.reverse_reverse]

/-- A text without code points of the class cannot be split at one. -/
theorem splitAt?_eq_none {p : CodePoint → Bool} {t : Text} (h : ∀ c ∈ t, p c = false) :
    t.splitAt? p = none := by
  induction t with
  | nil => rfl
  | cons c rest ih =>
    rw [splitAt?, h c (by simp), ih (fun d hd => h d (by simp [hd]))]
    rfl

end Text

namespace Integer

open Numeral

theorem leadingRun_le (t : Text) : leadingRun t ≤ t.length := by
  have hrun : ∀ body : Text,
      (body.takeWhile fun d => (d.asciiDigit?).isSome).length ≤ body.length :=
    fun body => (List.takeWhile_sublist _).length_le
  unfold leadingRun
  cases t with
  | nil => simp
  | cons c rest =>
    by_cases hm : c.is '-'
    · have h := hrun rest
      simp only [hm, if_true]
      cases rest with
      | nil => simp
      | cons d rest =>
        simp only
        split
        · omega
        · split <;> simp only [List.length_cons] at h ⊢ <;> omega
    · have h := hrun (c :: rest)
      simp only [hm, if_false, Bool.false_eq_true]
      split
      · omega
      · split <;> omega

/-- Leading zeros do not count. -/
theorem ofDigits_dropWhile (ds : List Nat) :
    ofDigits 10 (ds.dropWhile (· == 0)) = ofDigits 10 ds := by
  induction ds with
  | nil => rfl
  | cons d ds ih =>
    by_cases hd : d = 0
    · subst hd
      rw [List.dropWhile_cons_of_pos (by rfl), ih]
      simp [ofDigits]
    · rw [List.dropWhile_cons_of_neg (by simpa using hd)]

/-- Digits are read as their values. -/
theorem digits_ofChars {cs : List Char} (h : ∀ c ∈ cs, 48 ≤ c.toNat ∧ c.toNat < 58) (after : Bool)
    (ha : cs = [] → after = true) :
    digits CodePoint.asciiDigit? after (cs.map CodePoint.ofChar) =
      some (cs.map fun c => c.toNat - 48) := by
  induction cs generalizing after with
  | nil => simp [digits, ha rfl]
  | cons c cs ih =>
    have hc := h c (by simp)
    have hd : (CodePoint.ofChar c).asciiDigit? = some (c.toNat - 48) := by
      simp [CodePoint.asciiDigit?, CodePoint.ofChar, hc.1, hc.2]
    have hu : (CodePoint.ofChar c).is '_' = false := is_eq_false_of_digit hc (by decide)
    simp [digits, hu, hd, ih (fun d hd => h d (by simp [hd])) true (fun _ => rfl)]

/-- A number with these digits. -/
theorem ofDigits_map {n : Nat} {ds : List Char} (h : Digits n ds) :
    ofDigits 10 (ds.map fun c => c.toNat - 48) = n := by
  rw [ofDigits, List.foldl_map]
  exact h.value

/-- A sign is taken off, and digits are not. -/
theorem takeSign_digits {n : Nat} {ds : List Char} (h : Digits n ds) (negative : Bool) :
    takeSign (((if negative then ['-'] else []) ++ ds).map CodePoint.ofChar) =
      (negative, ds.map CodePoint.ofChar) := by
  cases negative with
  | true => rfl
  | false =>
    obtain ⟨c, cs, rfl⟩ := List.exists_cons_of_ne_nil h.ne_nil
    have hc := h.range c (by simp)
    have hminus : (CodePoint.ofChar c).is '-' = false := is_eq_false_of_digit hc (by decide)
    have hplus : (CodePoint.ofChar c).is '+' = false := is_eq_false_of_digit hc (by decide)
    simp [takeSign, hminus, hplus]

theorem dropZeroFraction_digits {n : Nat} {ds : List Char} (h : Digits n ds) :
    dropZeroFraction (ds.map CodePoint.ofChar) = some (ds.map CodePoint.ofChar) := by
  have hp : ∀ c ∈ ds.map CodePoint.ofChar, c.is '.' = false := by
    intro c hc
    obtain ⟨d, hd, rfl⟩ := List.mem_map.1 hc
    exact is_eq_false_of_digit (h.range d hd) (by decide)
  rw [dropZeroFraction, Text.splitAt?_eq_none hp]

theorem isWhite_eq_false {c : CodePoint} (h : c.val = 45 ∨ 48 ≤ c.val ∧ c.val < 58) :
    c.isWhite = false := by
  rw [Bool.eq_false_iff]
  simp only [CodePoint.isWhite, ne_eq, Bool.or_eq_true, Bool.and_eq_true, decide_eq_true_eq,
    beq_iff_eq]
  omega

/-- There is no white space in the text of an integer. -/
theorem trim_toString (n : Int) :
    (Text.ofString (toString n)).trim CodePoint.isWhite = Text.ofString (toString n) := by
  obtain ⟨negative, m, ds, -, hd, hs⟩ := toString_cases n
  apply Text.trim_eq_self
  intro c hc
  obtain ⟨d, hm, rfl⟩ := List.mem_map.1 hc
  have hrange : d.toNat = 45 ∨ 48 ≤ d.toNat ∧ d.toNat < 58 := by
    rw [hs, List.mem_append] at hm
    rcases hm with hm | hm
    · cases negative <;> simp at hm
      exact .inl (hm ▸ rfl)
    · exact .inr (hd.range d hm)
  exact isWhite_eq_false hrange

/-- An integer whose decimal text is not too long to be read. -/
def Short (n : Int) : Prop := (toString n).length ≤ maxLength

instance (n : Int) : Decidable (Short n) := inferInstanceAs (Decidable (_ ≤ _))

theorem length_toString_le {n : Int} {k : Nat} (hk : 0 < k) (h : n.natAbs < Nat.pow 10 k) :
    (toString n).length ≤ k + 1 := by
  have hs : toString n = n.repr := rfl
  have hdigits : ∀ m : Nat, m ≤ n.natAbs → m.repr.length ≤ k := by
    intro m hm
    rw [Nat.repr_eq_ofList_toDigits, String.length_ofList]
    exact (Nat.length_toDigits_le_iff (by decide) hk).2 (Nat.lt_of_le_of_lt hm h)
  rw [hs, Int.repr_eq_if]
  split
  · exact Nat.le_succ_of_le (hdigits n.toNat (by omega))
  · rw [String.length_append]
    have := hdigits (-n).toNat (by omega)
    have hminus : "-".length = 1 := rfl
    omega

theorem short_of_natAbs_lt {n : Int} (h : n.natAbs < 0x10000000000000000) : Short n := by
  have hlt : n.natAbs < Nat.pow 10 20 := Nat.lt_of_lt_of_le h (by decide)
  exact Nat.le_trans (length_toString_le (by decide) hlt) (by decide)

/-- The text of an integer is read as that integer, if it is not too long. -/
theorem parseLoose_toString {n : Int} (h : Short n) :
    parseLoose (Text.ofString (toString n)) = .ok n := by
  have htrim := trim_toString n
  have hrun := leadingRun_le (Text.ofString (toString n))
  obtain ⟨negative, m, ds, hn, hd, hs⟩ := toString_cases n
  have htext : Text.ofString (toString n) =
      ((if negative then ['-'] else []) ++ ds).map CodePoint.ofChar := congrArg _ hs
  have hlen : (Text.ofString (toString n)).length ≤ maxLength := by
    rw [Text.ofString, List.length_map, String.length_toList]
    exact h
  have hsign : ds.length + negative.toNat ≤ maxLength := by
    rw [htext] at hlen
    cases negative <;> simp at hlen ⊢ <;> omega
  have hdigits := digits_ofChars hd.range false (fun he => absurd he hd.ne_nil)
  have hkept : ((ds.map fun c => c.toNat - 48).dropWhile (· == 0)).length ≤ ds.length := by
    have := (List.dropWhile_sublist (l := ds.map fun c => c.toNat - 48) (· == 0)).length_le
    simpa using this
  unfold parseLoose
  simp only [htrim]
  rw [if_neg (by omega), htext, takeSign_digits hd, dropZeroFraction_digits hd]
  simp only [Option.bind_some, hdigits]
  rw [if_neg (by omega), ofDigits_dropWhile, ofDigits_map hd, ← hn]

end Integer

end TapeMachine
