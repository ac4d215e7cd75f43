import TapeMachine.Machine.Step

/-!
Balanced stretches of code, by counting brackets. Two brackets match if the stretch between them is
balanced, and the search for a closing bracket finds exactly the one that matches
(`matchingClose_eq_some_iff`).
-/
namespace TapeMachine

namespace Code

variable {code : Code} {i : Instruction} {a b c j q : Nat}

/-- How often an instruction occurs from position `a` to before position `b`. -/
def tally (code : Code) (i : Instruction) (a b : Nat) : Nat := (code.extract a b).count (.op i)

@[simp] theorem tally_self (code : Code) (i : Instruction) (a : Nat) : code.tally i a a = 0 := by
  rw [tally, Array.extract_eq_empty_of_le (Nat.min_le_left _ _), Array.count_empty]

theorem tally_succ (code : Code) (i : Instruction) (h : a ≤ b) :
    code.tally i a (b + 1) = code.tally i a b + if code[b]? = some (.op i) then 1 else 0 := by
  unfold tally
  by_cases hb : b < code.size
  · rw [Array.extract_succ_right (by omega) hb, Array.count_push, Array.getElem?_eq_getElem hb]
    simp
  · have he : code.extract a (b + 1) = code.extract a b := by
      apply Array.ext
      · simp only [Array.size_extract]
        omega
      · intro k _ _
        simp
    simp [he, Array.getElem?_eq_none (Nat.le_of_not_lt hb)]

theorem tally_add (code : Code) (i : Instruction) (hab : a ≤ b) (hbc : b ≤ c) :
    code.tally i a c = code.tally i a b + code.tally i b c := by
  unfold tally
  rw [← Array.count_append, Array.extract_append_extract, Nat.min_eq_left hab, Nat.max_eq_right hbc]

/-- The first word of a stretch, counted apart. -/
theorem tally_eq_add (code : Code) (i : Instruction) (h : a < b) :
    code.tally i a b = (if code[a]? = some (.op i) then 1 else 0) + code.tally i (a + 1) b := by
  rw [tally_add code i (Nat.le_succ a) h, tally_succ code i (Nat.le_refl a), tally_self, Nat.zero_add]

/-- A stretch with as many `]` as `[`, in which no beginning has more `]` than `[`. -/
structure Balanced (code : Code) (a b : Nat) : Prop where
  even : code.tally .loopOpen a b = code.tally .loopClose a b
  le : ∀ m, a ≤ m → m ≤ b → code.tally .loopClose a m ≤ code.tally .loopOpen a m

instance (code : Code) (a b : Nat) : Decidable (code.Balanced a b) :=
  decidable_of_iff
    (code.tally .loopOpen a b = code.tally .loopClose a b ∧
      ∀ m, m < b + 1 → a ≤ m → code.tally .loopClose a m ≤ code.tally .loopOpen a m)
    ⟨fun h => ⟨h.1, fun m ha hb => h.2 m (by omega) ha⟩,
      fun h => ⟨h.1, fun m hb ha => h.2 m ha (by omega)⟩⟩

namespace Balanced

theorem refl (code : Code) (a : Nat) : code.Balanced a a := by
  refine ⟨by simp, ?_⟩
  intro m ha hm
  obtain rfl : m = a := by omega
  simp

theorem trans (hab : a ≤ b) (hbc : b ≤ c) (h : code.Balanced a b) (h' : code.Balanced b c) :
    code.Balanced a c := by
  refine ⟨?_, ?_⟩
  · rw [tally_add code _ hab hbc, tally_add code _ hab hbc, h.even, h'.even]
  · intro m ham hmc
    by_cases hm : m ≤ b
    · exact h.le m ham hm
    · have hbm : b ≤ m := by omega
      have := h'.le m hbm hmc
      rw [tally_add code _ hab hbm, tally_add code _ hab hbm, h.even]
      omega

/-- A word that is no bracket is a balanced stretch. -/
theorem plain (ho : code[a]? ≠ some (.op .loopOpen)) (hc : code[a]? ≠ some (.op .loopClose)) :
    code.Balanced a (a + 1) := by
  have ht : ∀ m, a ≤ m → m ≤ a + 1 →
      code.tally .loopClose a m = 0 ∧ code.tally .loopOpen a m = 0 := by
    intro m ham hm
    obtain rfl | rfl : m = a ∨ m = a + 1 := by omega
    · simp
    · simp [tally_succ code _ (Nat.le_refl a), ho, hc]
  refine ⟨?_, ?_⟩
  · obtain ⟨h₁, h₂⟩ := ht (a + 1) (by omega) (by omega)
    omega
  · intro m ham hm
    obtain ⟨h₁, h₂⟩ := ht m ham hm
    omega

/-- Brackets around a balanced stretch keep it balanced. -/
theorem wrap (hj : code[j]? = some (.op .loopOpen)) (hq : code[q]? = some (.op .loopClose))
    (hjq : j < q) (h : code.Balanced (j + 1) q) : code.Balanced j (q + 1) := by
  -- Inside the brackets, `[` is one ahead of what the stretch itself counts.
  have ho : ∀ m, j < m → code.tally .loopOpen j m = 1 + code.tally .loopOpen (j + 1) m := by
    intro m hm
    simp [tally_eq_add code _ hm, hj]
  have hc : ∀ m, j < m → code.tally .loopClose j m = code.tally .loopClose (j + 1) m := by
    intro m hm
    simp [tally_eq_add code _ hm, hj]
  have hco : code.tally .loopClose (j + 1) (q + 1) = code.tally .loopClose (j + 1) q + 1 := by
    simp [tally_succ code _ (show j + 1 ≤ q by omega), hq]
  have hoo : code.tally .loopOpen (j + 1) (q + 1) = code.tally .loopOpen (j + 1) q := by
    simp [tally_succ code _ (show j + 1 ≤ q by omega), hq]
  have he := h.even
  refine ⟨?_, ?_⟩
  · rw [ho _ (by omega), hc _ (by omega)]
    omega
  · intro m hjm hmq
    by_cases hm : m = j
    · subst hm
      simp
    · rw [ho m (by omega), hc m (by omega)]
      by_cases hl : m ≤ q
      · have := h.le m (by omega) hl
        omega
      · obtain rfl : m = q + 1 := by omega
        omega

end Balanced

/-- The `[` at `j` is closed by the `]` at `q`. -/
structure Matched (code : Code) (j q : Nat) : Prop where
  opening : code[j]? = some (.op .loopOpen)
  closing : code[q]? = some (.op .loopClose)
  lt : j < q
  between : code.Balanced (j + 1) q

instance (code : Code) (j q : Nat) : Decidable (code.Matched j q) :=
  decidable_of_iff
    (code[j]? = some (.op .loopOpen) ∧ code[q]? = some (.op .loopClose) ∧ j < q ∧
      code.Balanced (j + 1) q)
    ⟨fun h => ⟨h.1, h.2.1, h.2.2.1, h.2.2.2⟩, fun h => ⟨h.1, h.2, h.3, h.4⟩⟩

theorem lt_size_of_getElem? {w : Word} (h : code[a]? = some w) : a < code.size :=
  (Array.getElem?_eq_some_iff.1 h).1

end Code

/-- A program in which every bracket has its partner. -/
def Program.Balanced (p : Program) : Prop := p.code.Balanced 0 p.code.size

instance (p : Program) : Decidable p.Balanced :=
  inferInstanceAs (Decidable (p.code.Balanced 0 p.code.size))

namespace Machine

variable {code : Code} {left position depth last j q : Nat}

/-- Up to `last`, the outermost of `depth` open loops is not closed. -/
def StaysOpen (code : Code) (position depth last : Nat) : Prop :=
  ∀ m, position ≤ m → m ≤ last →
    code.tally .loopClose position m < code.tally .loopOpen position m + depth

/-- One word further on, with the depth that this word leads to, the same loop is still open. -/
theorem staysOpen_succ_iff (depth' : Nat) {opened closed : Nat} (hd : 0 < depth)
    (ho : (if code[position]? = some (.op .loopOpen) then 1 else 0) = opened)
    (hc : (if code[position]? = some (.op .loopClose) then 1 else 0) = closed)
    (hdd : opened + depth = closed + depth') :
    StaysOpen code position depth last ↔ StaysOpen code (position + 1) depth' last := by
  have hto : ∀ m, position < m →
      code.tally .loopOpen position m = opened + code.tally .loopOpen (position + 1) m := by
    intro m hm
    rw [Code.tally_eq_add code _ hm, ho]
  have htc : ∀ m, position < m →
      code.tally .loopClose position m = closed + code.tally .loopClose (position + 1) m := by
    intro m hm
    rw [Code.tally_eq_add code _ hm, hc]
  constructor
  · intro h m hm hml
    have := h m (by omega) hml
    rw [hto m hm, htc m hm] at this
    omega
  · intro h m hm hml
    by_cases he : m = position
    · subst he
      simpa using hd
    · have := h m (by omega) hml
      rw [hto m (by omega), htc m (by omega)]
      omega

/-- The `]` at `q` is the first, from `position` on, that closes the outermost of `depth` open loops. -/
structure Closes (code : Code) (position depth q : Nat) : Prop where
  le : position ≤ q
  closing : code[q]? = some (.op .loopClose)
  count : code.tally .loopOpen position q + depth = code.tally .loopClose position q + 1
  inside : ∀ m, position ≤ m → m ≤ q →
    code.tally .loopClose position m < code.tally .loopOpen position m + depth

/-- One word further on, with the depth that this word leads to, the same `]` is looked for. -/
theorem closes_succ_iff (depth' : Nat) {opened closed : Nat} (hd : 0 < depth) (hd' : 0 < depth')
    (ho : (if code[position]? = some (.op .loopOpen) then 1 else 0) = opened)
    (hc : (if code[position]? = some (.op .loopClose) then 1 else 0) = closed)
    (hdd : opened + depth = closed + depth') :
    Closes code position depth q ↔ Closes code (position + 1) depth' q := by
  have hinside : StaysOpen code position depth q ↔ StaysOpen code (position + 1) depth' q :=
    staysOpen_succ_iff depth' hd ho hc hdd
  constructor
  · rintro ⟨hle, hq, hcount, hin⟩
    have hne : position ≠ q := by
      rintro rfl
      simp only [Code.tally_self, hq, if_true] at hcount hc
      simp only [hq, Option.some.injEq, Word.op.injEq, reduceCtorEq, if_false] at ho
      omega
    have hlt : position < q := by omega
    rw [Code.tally_eq_add code _ hlt, Code.tally_eq_add code _ hlt, ho, hc] at hcount
    exact ⟨hlt, hq, by omega, hinside.1 hin⟩
  · rintro ⟨hlt, hq, hcount, hin⟩
    refine ⟨Nat.le_of_succ_le hlt, hq, ?_, hinside.2 hin⟩
    rw [Code.tally_eq_add code _ hlt, Code.tally_eq_add code _ hlt, ho, hc]
    omega

/-- A `]` that closes the last open loop is found at once. -/
theorem closes_here_iff (h : code[position]? = some (.op .loopClose)) :
    Closes code position 1 q ↔ position = q := by
  constructor
  · rintro ⟨hle, -, -, hin⟩
    rcases Nat.lt_or_eq_of_le hle with hlt | he
    · have := hin (position + 1) (by omega) hlt
      simp [Code.tally_succ code _ (Nat.le_refl position), h] at this
    · exact he
  · rintro rfl
    refine ⟨Nat.le_refl _, h, by simp, ?_⟩
    intro m hm hmq
    obtain rfl : m = position := by omega
    simp

theorem scanClose_eq_some_iff (hd : 0 < depth) :
    scanClose code left position depth = some q ↔
      q < position + left ∧ Closes code position depth q := by
  induction left generalizing position depth with
  | zero =>
    simp only [scanClose, reduceCtorEq, false_iff, not_and]
    intro hq h
    have := h.le
    omega
  | succ left ih =>
    have hadd : position + 1 + left = position + (left + 1) := by omega
    unfold scanClose
    split
    next ho =>
      rw [ih (by omega), hadd]
      rw [closes_succ_iff (depth + 1) hd (by omega) rfl rfl (by simp [ho]; omega)]
    next hc =>
      split
      next h1 =>
        obtain rfl : depth = 1 := by omega
        rw [closes_here_iff hc, Option.some.injEq]
        constructor
        · intro he
          exact ⟨by omega, he⟩
        · exact fun h => h.2
      next h1 =>
        rw [ih (by omega), hadd]
        rw [closes_succ_iff (depth - 1) hd (by omega) rfl rfl (by simp [hc]; omega)]
    next ho hc =>
      rw [ih hd, hadd, ← closes_succ_iff depth hd hd (if_neg ho) (if_neg hc) rfl]

/-- The first `]` that closes the loop begun before a position is the one that matches its `[`. -/
theorem closes_iff_matched (hj : code[j]? = some (.op .loopOpen)) :
    Closes code (j + 1) 1 q ↔ code.Matched j q := by
  constructor
  · rintro ⟨hle, hq, hcount, hin⟩
    refine ⟨hj, hq, hle, by omega, ?_⟩
    intro m hm hmq
    have := hin m hm hmq
    omega
  · rintro ⟨-, hq, hlt, hb⟩
    refine ⟨hlt, hq, by rw [hb.even], ?_⟩
    intro m hm hmq
    have := hb.le m hm hmq
    omega

/-- The search from a `[` finds the `]` that matches it, and nothing else. -/
theorem matchingClose_eq_some_iff (hj : code[j]? = some (.op .loopOpen)) :
    matchingClose code j = some q ↔ code.Matched j q := by
  unfold matchingClose
  rw [scanClose_eq_some_iff Nat.one_pos, closes_iff_matched hj]
  constructor
  · exact fun h => h.2
  · intro h
    have hs := Code.lt_size_of_getElem? h.closing
    exact ⟨by omega, h⟩

theorem matchingClose_eq_none_iff (hj : code[j]? = some (.op .loopOpen)) :
    matchingClose code j = none ↔ ∀ q, ¬ code.Matched j q := by
  rw [Option.eq_none_iff_forall_ne_some]
  simp only [ne_eq, matchingClose_eq_some_iff hj]

end Machine

end TapeMachine
