import Mathlib.Order.Bounds.Defs
import TapeMachine.Proofs.Brackets.Balance

/-!
The search for a closing bracket in code of any kind, with unmatched brackets around it and texts among
its words. It fails exactly if a loop stays open however far one reads (`scanClose_eq_none_iff`). So a `[`
in a balanced stretch is closed within it (`Balanced.exists_matched`), and what the search finds is the
least match there is (`search_finds_least_match`).
-/
namespace TapeMachine

/-- A word that opens or closes a loop. A text is neither, whatever it says. -/
def Word.IsBracket (w : Word) : Prop := w = .op .loopOpen ∨ w = .op .loopClose

theorem Word.not_isBracket_foreign (t : Text) : ¬ (Word.foreign t).IsBracket := by
  rintro (h | h) <;> cases h

/-- Two codes with the same brackets at the same positions. -/
structure Code.SameBrackets (code other : Code) : Prop where
  size_eq : other.size = code.size
  bracket_iff : ∀ (k : Nat) (w : Word), w.IsBracket → (other[k]? = some w ↔ code[k]? = some w)

/-- One word in place of another leaves the brackets as they are, if neither is a bracket. -/
theorem Code.sameBrackets_set {code : Code} {k : Nat} {v w : Word} (hk : code[k]? = some v)
    (hv : ¬ v.IsBracket) (hw : ¬ w.IsBracket) : code.SameBrackets (code.setIfInBounds k w) := by
  refine ⟨Array.size_setIfInBounds, ?_⟩
  intro j b hb
  by_cases hj : k = j
  · subst hj
    have hlt := lt_size_of_getElem? hk
    rw [Array.getElem?_setIfInBounds_self_of_lt hlt, hk]
    constructor
    · rintro ⟨⟩
      exact absurd hb hw
    · rintro ⟨⟩
      exact absurd hb hv
  · rw [Array.getElem?_setIfInBounds_ne hj]

namespace Machine

variable {code other : Code} {left position depth j : Nat}

/-- A search fails exactly if the loop it is about stays open as far as it looks. -/
theorem scanClose_eq_none_iff (hd : 0 < depth) :
    scanClose code left position depth = none ↔ StaysOpen code position depth (position + left) := by
  induction left generalizing position depth with
  | zero =>
    refine iff_of_true rfl ?_
    intro m hm hml
    obtain rfl : m = position := by omega
    simpa using hd
  | succ left ih =>
    have hadd : position + 1 + left = position + (left + 1) := by omega
    unfold scanClose
    split
    next ho =>
      rw [ih (by omega), hadd]
      rw [staysOpen_succ_iff (depth + 1) hd rfl rfl (by simp [ho]; omega)]
    next hc =>
      split
      next h1 =>
        -- The `]` that is found closes the loop, one word on.
        refine iff_of_false (by simp) ?_
        intro h
        have := h (position + 1) (by omega) (by omega)
        simp only [Code.tally_succ code _ (Nat.le_refl position), Code.tally_self, hc,
          Option.some.injEq, Word.op.injEq, reduceCtorEq, if_false, if_true] at this
        omega
      next h1 =>
        rw [ih (by omega), hadd]
        rw [staysOpen_succ_iff (depth - 1) hd rfl rfl (by simp [hc]; omega)]
    next ho hc =>
      rw [ih hd, hadd, ← staysOpen_succ_iff depth hd (if_neg ho) (if_neg hc) rfl]

theorem matchingClose_eq_none_iff_staysOpen (hj : code[j]? = some (.op .loopOpen)) :
    matchingClose code j = none ↔ StaysOpen code (j + 1) 1 code.size := by
  have hlt := Code.lt_size_of_getElem? hj
  have hlast : j + 1 + (code.size - (j + 1)) = code.size := by omega
  rw [matchingClose, scanClose_eq_none_iff Nat.one_pos, hlast]

/-- The search may as well begin at the `[` itself, with no loop open. -/
theorem matchingClose_eq_scanClose (hj : code[j]? = some (.op .loopOpen)) :
    matchingClose code j = scanClose code (code.size - j) j 0 := by
  have hlt := Code.lt_size_of_getElem? hj
  have hleft : code.size - j = code.size - (j + 1) + 1 := by omega
  rw [hleft, scanClose, hj]
  rfl

/-- Only brackets matter to a search. -/
theorem scanClose_congr (h : code.SameBrackets other) (left position depth : Nat) :
    scanClose other left position depth = scanClose code left position depth := by
  induction left generalizing position depth with
  | zero => rfl
  | succ left ih =>
    have hopen := h.bracket_iff position (.op .loopOpen) (.inl rfl)
    have hclose := h.bracket_iff position (.op .loopClose) (.inr rfl)
    unfold scanClose
    split
    next ho =>
      rw [hopen.1 ho]
      exact ih _ _
    next hc =>
      rw [hclose.1 hc]
      simp only [ih]
    next ho hc =>
      split
      next ho' => exact absurd (hopen.2 ho') ho
      next hc' => exact absurd (hclose.2 hc') hc
      next => exact ih _ _

theorem matchingClose_congr (h : code.SameBrackets other) (j : Nat) :
    matchingClose other j = matchingClose code j := by
  rw [matchingClose, matchingClose, h.size_eq, scanClose_congr h]

end Machine

/-- A `[` in a balanced stretch is closed before the end of the stretch. -/
theorem Code.Balanced.exists_matched {code : Code} {a b j : Nat} (h : code.Balanced a b) (haj : a ≤ j)
    (hjb : j < b) (hj : code[j]? = some (.op .loopOpen)) : ∃ k, code.Matched j k ∧ k < b := by
  cases hscan : Machine.scanClose code (b - (j + 1)) (j + 1) 1 with
  | some k =>
    obtain ⟨hlt, hk⟩ := (Machine.scanClose_eq_some_iff Nat.one_pos).1 hscan
    exact ⟨k, (Machine.closes_iff_matched hj).1 hk, by omega⟩
  | none =>
    -- The loop at `j` would be open at the end, where the stretch has closed as many as it has opened.
    have hopen := (Machine.scanClose_eq_none_iff Nat.one_pos).1 hscan b (by omega) (by omega)
    have hle := h.le j haj (by omega)
    have heven := h.even
    rw [tally_add code _ haj (Nat.le_of_lt hjb), tally_add code _ haj (Nat.le_of_lt hjb),
      tally_eq_add code _ hjb, tally_eq_add code _ hjb] at heven
    simp only [hj, Option.some.injEq, Word.op.injEq, reduceCtorEq, if_false, if_true] at heven
    omega

namespace Machine

variable {code : Code} {j q : Nat} {s : State}

/-- What is found is the least position that will do, there being no other. -/
theorem matchingClose_eq_some_iff_isLeast (hj : code[j]? = some (.op .loopOpen)) :
    matchingClose code j = some q ↔ IsLeast {k | code.Matched j k} q := by
  rw [matchingClose_eq_some_iff hj]
  constructor
  · intro h
    refine ⟨h, ?_⟩
    intro k hk
    have hq := (matchingClose_eq_some_iff hj).2 h
    have hk' := (matchingClose_eq_some_iff hj).2 hk
    rw [hq] at hk'
    exact Nat.le_of_eq (Option.some.inj hk')
  · exact fun h => h.1

/-- On a zero cell a strict machine goes where the search says. -/
theorem execute_skip_iff (hs : s.cell = 0) :
    execute true code s .loopOpen = .ok { s with ip := q } ↔ matchingClose code s.ip = some q := by
  simp only [execute, hs, Bool.true_and, beq_self_eq_true, if_true]
  cases matchingClose code s.ip with
  | none => simp
  | some close =>
    simp only [Except.ok.injEq, Option.some.injEq]
    constructor
    · exact fun h => congrArg State.ip h
    · rintro rfl
      rfl

/-- It fails at the `[` if the search does. -/
theorem execute_unmatched_iff (hs : s.cell = 0) :
    execute true code s .loopOpen = .error ⟨.fault (s.fault .unmatchedOpen), s⟩ ↔
      matchingClose code s.ip = none := by
  simp only [execute, hs, Bool.true_and, beq_self_eq_true, if_true]
  cases matchingClose code s.ip <;> simp

/-- The search from a `[` finds exactly the bracket that matches it. It finds the least position after the
`[` that holds a `]` and has a balanced stretch before it, and fails, so that a strict machine on a zero
cell reports an unmatched `[` there, exactly if there is none. A text among the words counts as no
bracket, even if it is `]`. And a `[` between the two brackets has its match between them. -/
theorem search_finds_least_match (code : Code) (p : Nat) (hp : code[p]? = some (.op .loopOpen)) :
    matchingClose code p = scanClose code (code.size - p) p 0 ∧
    (∀ q, matchingClose code p = some q ↔ IsLeast {k | code.Matched p k} q) ∧
    (matchingClose code p = none ↔ ¬ ∃ q, code.Matched p q) ∧
    (matchingClose code p = none ↔ StaysOpen code (p + 1) 1 code.size) ∧
    (∀ s : State, s.ip = p → s.cell = 0 →
      (∀ q, execute true code s .loopOpen = .ok { s with ip := q } ↔
        IsLeast {k | code.Matched p k} q) ∧
      (execute true code s .loopOpen =
          .error ⟨.fault ⟨.unmatchedOpen, some (p : Int), some s.idx⟩, s⟩ ↔
        ¬ ∃ q, code.Matched p q)) ∧
    (∀ k t, code[k]? = some (.foreign t) → matchingClose code p ≠ some k ∧
      ∀ w : Word, ¬ w.IsBracket →
        matchingClose (code.setIfInBounds k w) p = matchingClose code p) ∧
    ∀ q, matchingClose code p = some q → ∀ j, p < j → j < q → code[j]? = some (.op .loopOpen) →
      ∃ k, matchingClose code j = some k ∧ j < k ∧ k < q := by
  have hnone : matchingClose code p = none ↔ ¬ ∃ q, code.Matched p q := by
    rw [matchingClose_eq_none_iff hp, not_exists]
  refine ⟨matchingClose_eq_scanClose hp, fun q => matchingClose_eq_some_iff_isLeast hp, hnone,
    matchingClose_eq_none_iff_staysOpen hp, ?_, ?_, ?_⟩
  · rintro s rfl hs
    refine ⟨?_, ?_⟩
    · intro q
      rw [execute_skip_iff hs, matchingClose_eq_some_iff_isLeast hp]
    · rw [← hnone]
      exact execute_unmatched_iff hs
  · intro k t hk
    refine ⟨?_, ?_⟩
    · intro hq
      have hclosing := ((matchingClose_eq_some_iff hp).1 hq).closing
      rw [hk] at hclosing
      cases hclosing
    · intro w hw
      exact matchingClose_congr (Code.sameBrackets_set hk (Word.not_isBracket_foreign t) hw) p
  · intro q hq j hpj hjq hj
    have hm := (matchingClose_eq_some_iff hp).1 hq
    obtain ⟨k, hk, hkq⟩ := hm.between.exists_matched hpj hjq hj
    exact ⟨k, (matchingClose_eq_some_iff hj).2 hk, hk.lt, hkq⟩

/-- In `][`, the text `]`, `[]]]` the second bracket is closed by the last but one, also with `+` in the
place of the text. In `[` and the text `]` nothing is closed. -/
theorem search_finds_least_match_texts :
    let text : Word := .foreign (Text.ofString "]")
    let code : Code :=
      #[.op .loopClose, .op .loopOpen, text, .op .loopOpen, .op .loopClose, .op .loopClose, .op .loopClose]
    let unclosed : Code := #[.op .loopOpen, text]
    matchingClose code 1 = some 5 ∧ IsLeast {k | code.Matched 1 k} 5 ∧
      (∃ k, matchingClose code 3 = some k ∧ 3 < k ∧ k < 5) ∧
      matchingClose (code.setIfInBounds 2 (.op .increment)) 1 = some 5 ∧
      ¬ ∃ q, unclosed.Matched 0 q := by
  intro text code unclosed
  have hfound : matchingClose code 1 = some 5 := rfl
  obtain ⟨-, hleast, -, -, -, htext, hinner⟩ := search_finds_least_match code 1 rfl
  obtain ⟨-, -, hnone, -⟩ := search_finds_least_match unclosed 0 rfl
  have hplain : ¬ (Word.op .increment).IsBracket := by
    rintro (h | h) <;> cases h
  refine ⟨hfound, (hleast 5).1 hfound, hinner 5 hfound 3 (by decide) (by decide) rfl, ?_, hnone.1 rfl⟩
  rw [(htext 2 (Text.ofString "]") rfl).2 _ hplain]
  exact hfound

end Machine

end TapeMachine
