import Mathlib.Data.Nat.Init
import TapeMachine.Proofs.Brackets.Balance

/-!
The loops that are open at a position, found by a scan of the code alone. The innermost of them is
the `[` that a `]` at the position would match (`nesting_cons`), a balanced stretch leaves the scan
as it was (`nesting_balanced`), and what the scan of all the code leaves are the loops that are never
closed (`nesting_size`).
-/
namespace TapeMachine.Code

variable {code : Code} {st st' : List Nat} {a b j m n q : Nat}

/-- The positions of the loops open at position `n`, innermost first. A scan from the left notes the
position of every `[` and strikes out the latest one at every `]`; it has no answer once a `]` has
found no loop open. -/
def nesting (code : Code) : Nat → Option (List Nat)
  | 0 => some []
  | n + 1 =>
    match nesting code n, code[n]? with
    | some st, some (.op .loopOpen) => some (n :: st)
    | some st, some (.op .loopClose) => st.tail?
    | st, _ => st

@[simp] theorem nesting_zero (code : Code) : code.nesting 0 = some [] := rfl

theorem nesting_open (h : code[n]? = some (.op .loopOpen)) (hn : code.nesting n = some st) :
    code.nesting (n + 1) = some (n :: st) := by
  simp [nesting, h, hn]

theorem nesting_close (h : code[n]? = some (.op .loopClose)) (hn : code.nesting n = some st) :
    code.nesting (n + 1) = st.tail? := by
  simp [nesting, h, hn]

theorem nesting_plain (ho : code[n]? ≠ some (.op .loopOpen)) (hc : code[n]? ≠ some (.op .loopClose)) :
    code.nesting (n + 1) = code.nesting n := by
  rw [nesting]
  split
  next h => exact absurd h ho
  next h => exact absurd h hc
  next => rfl

/-- What the scan can do at one word. -/
theorem nesting_succ_cases (h : code.nesting (n + 1) = some st) :
    (code[n]? = some (.op .loopOpen) ∧ ∃ below, code.nesting n = some below ∧ st = n :: below) ∨
    (code[n]? = some (.op .loopClose) ∧ ∃ top, code.nesting n = some (top :: st)) ∨
    (code[n]? ≠ some (.op .loopOpen) ∧ code[n]? ≠ some (.op .loopClose) ∧
      code.nesting n = some st) := by
  by_cases ho : code[n]? = some (.op .loopOpen)
  · cases hn : code.nesting n with
    | none => simp [nesting, hn] at h
    | some below =>
      rw [nesting_open ho hn] at h
      exact .inl ⟨ho, below, rfl, (Option.some.inj h).symm⟩
  · by_cases hc : code[n]? = some (.op .loopClose)
    · cases hn : code.nesting n with
      | none => simp [nesting, hn] at h
      | some below =>
        rw [nesting_close hc hn] at h
        cases below with
        | nil => cases h
        | cons top below => exact .inr (.inl ⟨hc, top, by rw [Option.some.inj h]⟩)
    · rw [nesting_plain ho hc] at h
      exact .inr (.inr ⟨ho, hc, h⟩)

/-- A scan that has an answer had one before. -/
theorem nesting_of_le (h : code.nesting n = some st) (hm : m ≤ n) :
    ∃ st', code.nesting m = some st' := by
  induction n generalizing st with
  | zero =>
    obtain rfl : m = 0 := by omega
    exact ⟨st, h⟩
  | succ n ih =>
    by_cases he : m = n + 1
    · exact ⟨st, he ▸ h⟩
    · have hmn : m ≤ n := by omega
      obtain ⟨-, below, hn, -⟩ | ⟨-, top, hn⟩ | ⟨-, -, hn⟩ := nesting_succ_cases h
      · exact ih hn hmn
      · exact ih hn hmn
      · exact ih hn hmn

/-- The innermost open loop begins at a `[`, outside of it the same loops are open, and what stands
since then is balanced. -/
theorem nesting_cons (h : code.nesting n = some (j :: st)) :
    j < n ∧ code[j]? = some (.op .loopOpen) ∧ code.nesting j = some st ∧
      code.Balanced (j + 1) n := by
  -- A `]` uncovers the loop below the one it closes, so the argument goes back to where that one began.
  induction n using Nat.strongRecOn generalizing j st with
  | ind n ih =>
    cases n with
    | zero => cases h
    | succ n =>
      obtain ⟨ho, below, hn, he⟩ | ⟨hc, top, hn⟩ | ⟨ho, hc, hn⟩ := nesting_succ_cases h
      · cases he
        exact ⟨by omega, ho, hn, Balanced.refl code _⟩
      · obtain ⟨htn, hto, htop, hb⟩ := ih n (by omega) hn
        obtain ⟨hjt, hjo, hj, hb'⟩ := ih top (by omega) htop
        refine ⟨by omega, hjo, hj, ?_⟩
        exact hb'.trans (by omega) (by omega) (Balanced.wrap hto hc htn hb)
      · obtain ⟨hjn, hjo, hj, hb⟩ := ih n (by omega) hn
        exact ⟨by omega, hjo, hj, hb.trans (by omega) (by omega) (Balanced.plain ho hc)⟩

/-- A `]` closes the innermost open loop. -/
theorem matched_of_nesting (h : code.nesting q = some (j :: st))
    (hq : code[q]? = some (.op .loopClose)) : code.Matched j q := by
  obtain ⟨hlt, hj, -, hb⟩ := nesting_cons h
  exact ⟨hj, hq, hlt, hb⟩

/-- Before its end a balanced stretch only adds to the open loops, by as many as it has not closed. -/
theorem nesting_append (hle : ∀ m, a ≤ m → m ≤ b →
      code.tally .loopClose a m ≤ code.tally .loopOpen a m) (ha : code.nesting a = some st)
    (hab : a ≤ b) :
    ∃ inner, code.nesting b = some (inner ++ st) ∧
      inner.length + code.tally .loopClose a b = code.tally .loopOpen a b := by
  induction b, hab using Nat.le_induction with
  | base => exact ⟨[], ha, by simp⟩
  | succ b hab ih =>
    obtain ⟨inner, hb, hlen⟩ := ih fun m ham hm => hle m ham (by omega)
    have hle' := hle (b + 1) (by omega) (Nat.le_refl _)
    rw [tally_succ code _ hab, tally_succ code _ hab] at hle' ⊢
    by_cases ho : code[b]? = some (.op .loopOpen)
    · refine ⟨b :: inner, nesting_open ho hb, ?_⟩
      simp only [ho, List.length_cons, Option.some.injEq, Word.op.injEq, reduceCtorEq, if_false, if_true]
      omega
    · by_cases hc : code[b]? = some (.op .loopClose)
      · simp only [hc, Option.some.injEq, Word.op.injEq, reduceCtorEq, if_false, if_true] at hle' ⊢
        cases inner with
        | nil =>
          simp only [List.length_nil] at hlen
          omega
        | cons top inner =>
          simp only [List.length_cons] at hlen
          exact ⟨inner, nesting_close hc hb, by omega⟩
      · refine ⟨inner, (nesting_plain ho hc).trans hb, ?_⟩
        simp only [ho, hc, if_false]
        omega

theorem nesting_balanced (h : code.Balanced a b) (hab : a ≤ b) (ha : code.nesting a = some st) :
    code.nesting b = some st := by
  obtain ⟨inner, hb, hlen⟩ := nesting_append h.le ha hab
  rw [h.even] at hlen
  obtain rfl : inner = [] := List.eq_nil_of_length_eq_zero (by omega)
  exact hb

namespace Matched

/-- At its closing bracket a loop is the innermost that is open. -/
theorem nesting_closing (h : code.Matched j q) (hj : code.nesting j = some st) :
    code.nesting q = some (j :: st) :=
  nesting_balanced h.between h.lt (nesting_open h.opening hj)

theorem nesting_after (h : code.Matched j q) (hj : code.nesting j = some st) :
    code.nesting (q + 1) = some st :=
  nesting_close h.closing (h.nesting_closing hj)

end Matched

theorem lt_of_mem_nesting (h : code.nesting n = some st) (hj : j ∈ st) : j < n := by
  induction st generalizing n with
  | nil => cases hj
  | cons top st ih =>
    obtain ⟨htn, -, ht, -⟩ := nesting_cons h
    rcases List.mem_cons.1 hj with rfl | hj
    · exact htn
    · have := ih ht hj
      omega

theorem pairwise_nesting (h : code.nesting n = some st) : st.Pairwise (· > ·) := by
  induction st generalizing n with
  | nil => exact .nil
  | cons top st ih =>
    obtain ⟨-, -, ht, -⟩ := nesting_cons h
    exact .cons (fun j hj => lt_of_mem_nesting ht hj) (ih ht)

/-- A `]` matches the innermost open loop and no other. -/
theorem matched_iff_of_nesting (h : code.nesting q = some (a :: st))
    (hq : code[q]? = some (.op .loopClose)) : code.Matched j q ↔ j = a := by
  constructor
  · intro hm
    obtain ⟨st', hj⟩ := nesting_of_le h (Nat.le_of_lt hm.lt)
    have hc := hm.nesting_closing hj
    rw [h] at hc
    exact (List.cons.inj (Option.some.inj hc)).1.symm
  · rintro rfl
    exact matched_of_nesting h hq

/-- The loop at `j` has begun before position `n` and is not closed before it. -/
def Pending (code : Code) (n j : Nat) : Prop :=
  j < n ∧ code[j]? = some (.op .loopOpen) ∧ ∀ q, q < n → ¬ code.Matched j q

theorem pending_succ_iff :
    code.Pending (n + 1) j ↔
      (code.Pending n j ∨ j = n ∧ code[n]? = some (.op .loopOpen)) ∧ ¬ code.Matched j n := by
  constructor
  · rintro ⟨hj, ho, hq⟩
    refine ⟨?_, hq n (Nat.lt_succ_self n)⟩
    by_cases he : j = n
    · exact .inr ⟨he, he ▸ ho⟩
    · exact .inl ⟨by omega, ho, fun q hqn => hq q (by omega)⟩
  · rintro ⟨⟨hj, ho, hq⟩ | ⟨rfl, ho⟩, hn⟩
    · refine ⟨by omega, ho, fun q hqn hm => ?_⟩
      by_cases he : q = n
      · exact hn (he ▸ hm)
      · exact hq q (by omega) hm
    · refine ⟨by omega, ho, fun q hqn hm => ?_⟩
      have := hm.lt
      omega

/-- The open loops are those that have begun and are not closed yet. -/
theorem mem_nesting_iff (h : code.nesting n = some st) : j ∈ st ↔ code.Pending n j := by
  induction n generalizing st with
  | zero =>
    cases Option.some.inj h
    simp [Pending]
  | succ n ih =>
    rw [pending_succ_iff]
    obtain ⟨ho, below, hn, rfl⟩ | ⟨hc, top, hn⟩ | ⟨ho, hc, hn⟩ := nesting_succ_cases h
    · have hm : ¬ code.Matched j n := by
        intro hm
        have := hm.closing
        rw [ho] at this
        cases this
      rw [List.mem_cons, ih hn]
      simp only [ho, hm, and_true, not_false_eq_true, or_comm]
    · have hs := pairwise_nesting hn
      rw [← ih hn, matched_iff_of_nesting hn hc, List.mem_cons]
      simp only [hc, Option.some.injEq, Word.op.injEq, reduceCtorEq, and_false, or_false]
      constructor
      · intro hj
        have := List.rel_of_pairwise_cons hs hj
        exact ⟨.inr hj, by omega⟩
      · rintro ⟨hj, hne⟩
        exact hj.resolve_left hne
    · have hm : ¬ code.Matched j n := fun hm => hc hm.closing
      rw [ih hn]
      simp only [ho, hm, and_false, or_false, not_false_eq_true, and_true]

/-- The positions of the loops that are never closed. -/
def unclosed (code : Code) : List Nat :=
  (List.range code.size).filter fun j =>
    code[j]? = some (.op .loopOpen) ∧ ∀ q, q < code.size → ¬ code.Matched j q

/-- The scan of all the code leaves the loops that are never closed, the last of them first. -/
theorem nesting_size (h : code.nesting code.size = some st) : st = code.unclosed.reverse := by
  have hst := pairwise_nesting h
  have hun : code.unclosed.reverse.Pairwise (· > ·) :=
    List.pairwise_reverse.2 (List.pairwise_lt_range.filter _)
  have hmem : ∀ j, j ∈ st ↔ j ∈ code.unclosed.reverse := by
    intro j
    rw [mem_nesting_iff h]
    simp [unclosed, Pending]
  apply List.Perm.eq_of_pairwise _ hst hun
  · exact (List.perm_ext_iff_of_nodup (hst.imp Nat.ne_of_gt) (hun.imp Nat.ne_of_gt)).2 hmem
  · intro a b _ _ hab hba
    omega

end TapeMachine.Code
