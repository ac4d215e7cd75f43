import TapeMachine.Proofs.Brackets.Balance

/-!
Programs as trees of loops. A program is balanced exactly if it is the text of a tree
(`Program.Balanced.exists_tree`), and of one tree only (`instructions_injective`).
-/
namespace TapeMachine

/-- The instructions that are no brackets. -/
inductive Simple where
  | increment | decrement | moveRight | moveLeft | output | input
  deriving DecidableEq, Repr

namespace Simple

def instruction : Simple → Instruction
  | increment => .increment
  | decrement => .decrement
  | moveRight => .moveRight
  | moveLeft => .moveLeft
  | output => .output
  | input => .input

def ofInstruction? : Instruction → Option Simple
  | .increment => some increment
  | .decrement => some decrement
  | .moveRight => some moveRight
  | .moveLeft => some moveLeft
  | .output => some output
  | .input => some input
  | .loopOpen | .loopClose => none

theorem exists_instruction_eq {i : Instruction} (ho : i ≠ .loopOpen) (hc : i ≠ .loopClose) :
    ∃ k : Simple, k.instruction = i := by
  cases i with
  | increment => exact ⟨increment, rfl⟩
  | decrement => exact ⟨decrement, rfl⟩
  | moveRight => exact ⟨moveRight, rfl⟩
  | moveLeft => exact ⟨moveLeft, rfl⟩
  | output => exact ⟨output, rfl⟩
  | input => exact ⟨input, rfl⟩
  | loopOpen => exact absurd rfl ho
  | loopClose => exact absurd rfl hc

@[simp] theorem instruction_ne_open (i : Simple) : i.instruction ≠ .loopOpen := by cases i <;> decide

@[simp] theorem instruction_ne_close (i : Simple) : i.instruction ≠ .loopClose := by
  cases i <;> decide

end Simple

/-- A sequence of simple instructions and loops. -/
inductive Tree where
  | done
  | simple (i : Simple) (rest : Tree)
  | loop (body rest : Tree)
  deriving DecidableEq, Repr

namespace Tree

/-- The text of a tree. -/
def instructions : Tree → List Instruction
  | done => []
  | simple i rest => i.instruction :: rest.instructions
  | loop body rest => .loopOpen :: (body.instructions ++ .loopClose :: rest.instructions)

def size (t : Tree) : Nat := t.instructions.length

@[simp] theorem size_done : done.size = 0 := rfl

@[simp] theorem size_simple (i : Simple) (rest : Tree) : (simple i rest).size = rest.size + 1 := rfl

@[simp] theorem size_loop (body rest : Tree) : (loop body rest).size = body.size + rest.size + 2 := by
  simp only [size, instructions, List.length_cons, List.length_append]
  omega

/-- One sequence after another. -/
def append : Tree → Tree → Tree
  | done, u => u
  | simple i rest, u => simple i (rest.append u)
  | loop body rest, u => loop body (rest.append u)

@[simp] theorem append_done (t : Tree) : t.append done = t := by
  induction t with
  | done => rfl
  | simple i rest ih => rw [append, ih]
  | loop body rest _ ih => rw [append, ih]

/-- Puts an instruction in front of a tree that stands in loops still to be opened: each of the others
is what follows one of these loops, innermost first. -/
def push (i : Instruction) : Tree × List Tree → Option (Tree × List Tree)
  | (t, outer) =>
    match i, outer with
    | .loopClose, _ => some (done, t :: outer)
    | .loopOpen, [] => none
    | .loopOpen, rest :: outer => some (loop t rest, outer)
    | i, _ => (Simple.ofInstruction? i).map fun k => (simple k t, outer)

/-- Reads instructions from the last to the first. -/
def parse : List Instruction → Option (Tree × List Tree)
  | [] => some (done, [])
  | i :: l => (parse l).bind (push i)

@[simp] theorem push_simple (i : Simple) (t : Tree) (outer : List Tree) :
    push i.instruction (t, outer) = some (simple i t, outer) := by
  cases i <;> rfl

/-- Reading the text of a tree puts the tree in front of what follows. -/
theorem parse_append (t : Tree) (l : List Instruction) :
    parse (t.instructions ++ l) = (parse l).map fun r => (t.append r.1, r.2) := by
  induction t generalizing l with
  | done => simp [instructions, append]
  | simple i rest ih =>
    simp only [instructions, List.cons_append, parse, ih]
    cases parse l with
    | none => rfl
    | some r => exact push_simple i _ _
  | loop body rest ihb ihr =>
    simp only [instructions, List.cons_append, List.append_assoc, parse, ihb, ihr]
    cases parse l with
    | none => rfl
    | some r => simp [push, append]

theorem parse_instructions (t : Tree) : parse t.instructions = some (t, []) := by
  have h := parse_append t []
  simpa [parse] using h

theorem instructions_injective {t u : Tree} (h : t.instructions = u.instructions) : t = u := by
  have ht := parse_instructions t
  rw [h, parse_instructions u] at ht
  exact (Prod.mk.inj (Option.some.inj ht)).1.symm

/-- What has been read is the text of the tree, then of each following one after its `]`. -/
theorem eq_of_parse {l : List Instruction} {t : Tree} {outer : List Tree}
    (h : parse l = some (t, outer)) :
    l = t.instructions ++ outer.flatMap fun u => .loopClose :: u.instructions := by
  induction l generalizing t outer with
  | nil =>
    cases Option.some.inj h
    rfl
  | cons i l ih =>
    obtain ⟨⟨u, rest⟩, hl, hp⟩ := Option.bind_eq_some_iff.1 h
    rw [ih hl]
    by_cases hc : i = .loopClose
    · subst hc
      cases Option.some.inj hp
      simp [instructions]
    · by_cases ho : i = .loopOpen
      · subst ho
        cases rest with
        | nil => cases hp
        | cons after rest =>
          cases Option.some.inj hp
          simp [instructions]
      · obtain ⟨k, rfl⟩ := Simple.exists_instruction_eq ho hc
        rw [push_simple] at hp
        cases Option.some.inj hp
        rfl

/-- Instructions can be read if no end of them has more `[` than `]`; the loops still to be opened are
then as many as it has more `]`. -/
theorem exists_parse (l : List Instruction)
    (h : ∀ k, (l.drop k).count .loopOpen ≤ (l.drop k).count .loopClose) :
    ∃ t outer, parse l = some (t, outer) ∧
      outer.length + l.count .loopOpen = l.count .loopClose := by
  induction l with
  | nil => exact ⟨done, [], rfl, rfl⟩
  | cons i l ih =>
    obtain ⟨t, outer, hl, hlen⟩ := ih fun k => by simpa using h (k + 1)
    have h₀ := h 0
    simp only [List.drop_zero] at h₀
    simp only [parse, hl, Option.bind_some]
    by_cases hc : i = .loopClose
    · subst hc
      refine ⟨done, t :: outer, rfl, ?_⟩
      simp only [List.length_cons, List.count_cons_self]
      rw [List.count_cons_of_ne (by decide)]
      omega
    · by_cases ho : i = .loopOpen
      · subst ho
        simp only [List.count_cons_self] at h₀ ⊢
        rw [List.count_cons_of_ne (by decide)] at h₀ ⊢
        cases outer with
        | nil =>
          simp only [List.length_nil] at hlen
          omega
        | cons rest outer =>
          simp only [List.length_cons] at hlen
          exact ⟨loop t rest, outer, rfl, by omega⟩
      · obtain ⟨k, rfl⟩ := Simple.exists_instruction_eq ho hc
        refine ⟨simple k t, outer, push_simple k t outer, ?_⟩
        rw [List.count_cons_of_ne (by simp), List.count_cons_of_ne (by simp)]
        exact hlen

end Tree

theorem Program.tally_code (p : Program) (i : Instruction) (k : Nat) :
    p.code.tally i 0 k = (p.instructions.toList.take k).count i := by
  unfold Code.tally Program.code
  rw [← Array.count_toList, Array.toList_extract, Array.toList_map, List.extract_eq_take_drop,
    List.drop_zero, Nat.sub_zero, ← List.map_take, List.count, List.countP_map]
  apply List.countP_congr
  intro x _
  simp

/-- A balanced program is the text of a tree. -/
theorem Program.Balanced.exists_tree {p : Program} (h : p.Balanced) :
    ∃ t : Tree, t.instructions = p.instructions.toList := by
  have hall : ∀ i, p.code.tally i 0 p.code.size = p.instructions.toList.count i := by
    intro i
    rw [p.tally_code, List.take_of_length_le (by simp [Program.code])]
  have heven := h.even
  rw [hall, hall] at heven
  have hends : ∀ k, (p.instructions.toList.drop k).count .loopOpen ≤
      (p.instructions.toList.drop k).count .loopClose := by
    intro k
    by_cases hk : k ≤ p.code.size
    · have hle := h.le k (Nat.zero_le k) hk
      rw [p.tally_code, p.tally_code] at hle
      have hsplit : ∀ i, (p.instructions.toList.take k).count i +
          (p.instructions.toList.drop k).count i = p.instructions.toList.count i := by
        intro i
        rw [← List.count_append, List.take_append_drop]
      have ho := hsplit .loopOpen
      have hc := hsplit .loopClose
      omega
    · rw [List.drop_of_length_le (by simp [Program.code] at hk; simp; omega)]
      simp
  obtain ⟨t, outer, hp, hlen⟩ := Tree.exists_parse _ hends
  obtain rfl : outer = [] := List.eq_nil_of_length_eq_zero (by omega)
  exact ⟨t, by simpa using (Tree.eq_of_parse hp).symm⟩

end TapeMachine
