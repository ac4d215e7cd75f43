import TapeMachine.Proofs.Brackets.Nesting
import TapeMachine.Proofs.Trajectory

/-!
The jump stack of a run. In every state that a run comes to, the open loops it keeps are those that a
scan of the code finds at its position (`Nested`). A run therefore needs no jump stack at all: it does
the same with a table of the matching brackets that is made before it begins (`runByTable_eq`).
-/
namespace TapeMachine

namespace Machine

variable {settings : Settings} {code : Code} {s s' : State} {n : Nat}

/-- The position is in the code or at its end, and the open loops are those of the code. -/
structure Nested (code : Code) (s : State) : Prop where
  ip_le : s.ip ≤ code.size
  nesting_ip : code.nesting s.ip = some s.stack

/-- Every completed instruction keeps the open loops those of the code. -/
theorem Nested.of_next? (h : Nested code s) (hn : next? settings code s = some s') : Nested code s' := by
  obtain ⟨hle, hst⟩ := h
  cases move_of_next? hn with
  | plain i u fetch not_open not_close done ip_eq stack_eq =>
    have hlt := Code.lt_size_of_getElem? fetch
    refine ⟨?_, ?_⟩
    · simp only [State.advance, ip_eq]
      omega
    · simp only [State.advance, ip_eq, stack_eq]
      rw [Code.nesting_plain (by simp [fetch, not_open]) (by simp [fetch, not_close]), hst]
  | enter fetch =>
    exact ⟨Code.lt_size_of_getElem? fetch, Code.nesting_open fetch hst⟩
  | skip close fetch mode zero found =>
    have hm := (matchingClose_eq_some_iff fetch).1 found
    exact ⟨Code.lt_size_of_getElem? hm.closing, hm.nesting_after hst⟩
  | back top below fetch stack_eq nonzero =>
    rw [stack_eq] at hst
    obtain ⟨hlt, hopen, hbelow, -⟩ := Code.nesting_cons hst
    refine ⟨Code.lt_size_of_getElem? hopen, ?_⟩
    simp only [State.advance, stack_eq]
    exact Code.nesting_open hopen hbelow
  | leave top below fetch stack_eq zero =>
    rw [stack_eq] at hst
    exact ⟨Code.lt_size_of_getElem? fetch, Code.nesting_close fetch hst⟩

theorem Nested.of_after (h : Nested code s) (ha : after settings code n s = some s') : Nested code s' :=
  after_invariant (fun _ _ hs hn => hs.of_next? hn) h ha

/-- A run begins with no loop open. -/
theorem nested_start (code : Code) (tape : Tape) (input : Source) : Nested code { tape, input } :=
  ⟨Nat.zero_le _, rfl⟩

/-- A `]` that goes back goes to the word after the `[` that it closes. -/
theorem Nested.back (h : Nested code s) (hc : code[s.ip]? = some (.op .loopClose))
    (hz : s.cell ≠ 0) (hn : next? settings code s = some s') :
    ∃ j, code.Matched j s.ip ∧ s'.ip = j + 1 := by
  cases move_of_next? hn with
  | plain i u fetch not_open not_close =>
    rw [hc] at fetch
    cases fetch
    exact absurd rfl not_close
  | enter fetch | skip close fetch =>
    rw [hc] at fetch
    cases fetch
  | back top below fetch stack_eq nonzero =>
    exact ⟨top, Code.matched_of_nesting (stack_eq ▸ h.nesting_ip) hc, rfl⟩
  | leave top below fetch stack_eq zero => exact absurd zero hz

end Machine

/-- Pairs of matching brackets, each the position of a `[` and of its `]`. -/
abbrev JumpTable := List (Nat × Nat)

namespace JumpTable

variable {table : JumpTable} {key value : Nat × Nat → Nat} {k v : Nat}

/-- The other position of a pair, of which one position is known. -/
def find (table : JumpTable) (key value : Nat × Nat → Nat) (k : Nat) : Option Nat :=
  (table.find? (key · == k)).map value

def closing? (table : JumpTable) (j : Nat) : Option Nat := table.find Prod.fst Prod.snd j

def opening? (table : JumpTable) (q : Nat) : Option Nat := table.find Prod.snd Prod.fst q

theorem mem_of_find (h : table.find key value k = some v) : ∃ e ∈ table, key e = k ∧ value e = v := by
  obtain ⟨e, hf, hv⟩ := Option.map_eq_some_iff.1 h
  exact ⟨e, List.mem_of_find?_eq_some hf, by simpa using List.find?_some hf, hv⟩

theorem not_mem_of_find (h : table.find key value k = none) : ∀ e ∈ table, key e ≠ k := by
  intro e he
  have := List.find?_eq_none.1 (Option.map_eq_none_iff.1 h) e he
  simpa using this

end JumpTable

namespace Code

variable {code : Code} {st : List Nat} {j n q : Nat}

/-- The brackets that match before position `n`. -/
def pairs (code : Code) : Nat → JumpTable
  | 0 => []
  | n + 1 =>
    match code[n]?, code.nesting n with
    | some (.op .loopClose), some (j :: _) => (j, n) :: pairs code n
    | _, _ => pairs code n

/-- All brackets of the code that match. -/
def jumpTable (code : Code) : JumpTable := code.pairs code.size

theorem mem_pairs_iff :
    (j, q) ∈ code.pairs n ↔
      q < n ∧ code[q]? = some (.op .loopClose) ∧ ∃ st, code.nesting q = some (j :: st) := by
  induction n with
  | zero => simp [pairs]
  | succ n ih =>
    rw [pairs]
    split
    next j' below hc hn =>
      rw [List.mem_cons, ih, Prod.mk.injEq]
      constructor
      · rintro (⟨rfl, rfl⟩ | ⟨hq, h⟩)
        · exact ⟨by omega, hc, below, hn⟩
        · exact ⟨by omega, h⟩
      · rintro ⟨hq, hqc, st, hst⟩
        by_cases he : q = n
        · subst he
          rw [hn] at hst
          exact .inl ⟨(List.cons.inj (Option.some.inj hst)).1.symm, rfl⟩
        · exact .inr ⟨by omega, hqc, st, hst⟩
    next hno =>
      rw [ih]
      constructor
      · rintro ⟨hq, h⟩
        exact ⟨by omega, h⟩
      · rintro ⟨hq, hqc, st, hst⟩
        have he : q ≠ n := by
          rintro rfl
          exact hno j st hqc hst
        exact ⟨by omega, hqc, st, hst⟩

theorem mem_jumpTable_iff :
    (j, q) ∈ code.jumpTable ↔
      code[q]? = some (.op .loopClose) ∧ ∃ st, code.nesting q = some (j :: st) := by
  rw [jumpTable, mem_pairs_iff]
  constructor
  · exact fun h => h.2
  · exact fun h => ⟨lt_size_of_getElem? h.1, h⟩

/-- At a position that the scan gets to, the table holds what a search would find. -/
theorem closing?_jumpTable (hj : code[j]? = some (.op .loopOpen)) (hst : code.nesting j = some st) :
    code.jumpTable.closing? j = Machine.matchingClose code j := by
  cases h : code.jumpTable.closing? j with
  | some q =>
    obtain ⟨⟨j, q⟩, hm, rfl, rfl⟩ := JumpTable.mem_of_find h
    obtain ⟨hc, st', hq⟩ := mem_jumpTable_iff.1 hm
    exact ((Machine.matchingClose_eq_some_iff hj).2 (matched_of_nesting hq hc)).symm
  | none =>
    refine ((Machine.matchingClose_eq_none_iff hj).2 fun q hm => ?_).symm
    exact JumpTable.not_mem_of_find h (j, q)
      (mem_jumpTable_iff.2 ⟨hm.closing, st, hm.nesting_closing hst⟩) rfl

/-- At a position that the scan gets to, the table holds the innermost open loop. -/
theorem opening?_jumpTable (hq : code[q]? = some (.op .loopClose)) (hst : code.nesting q = some st) :
    code.jumpTable.opening? q = st.head? := by
  cases h : code.jumpTable.opening? q with
  | some j =>
    obtain ⟨⟨j, q⟩, hm, rfl, rfl⟩ := JumpTable.mem_of_find h
    obtain ⟨-, st', hq'⟩ := mem_jumpTable_iff.1 hm
    rw [hst] at hq'
    simp [Option.some.inj hq']
  | none =>
    cases st with
    | nil => rfl
    | cons j st =>
      exact absurd rfl (JumpTable.not_mem_of_find h (j, q) (mem_jumpTable_iff.2 ⟨hq, st, hst⟩))

end Code

/-- The state without its open loops. -/
def State.unstacked (s : State) : State := { s with stack := [] }

namespace Machine

variable {settings : Settings} {strict : Bool} {code : Code} {s : State} {i : Instruction}

/-- Executes one instruction, with jumps looked up in a table. No open loops are kept. -/
def executeByTable (strict : Bool) (code : Code) (table : JumpTable) (s : State) :
    Instruction → Except Failure State
  | .loopOpen =>
    if strict && s.cell == 0 then
      match table.closing? s.ip with
      | some close => .ok { s with ip := close }
      | none => .error ⟨.fault (s.fault .unmatchedOpen), s⟩
    else .ok s
  | .loopClose =>
    match table.opening? s.ip with
    | none => .error ⟨.fault (s.fault .unmatchedClose), s⟩
    | some top => if s.cell ≠ 0 then .ok { s with ip := top } else .ok s
  | i => execute strict code s i

/-- Runs a program by a table that is made first. -/
def runByTable (settings : Settings) (p : Program) : Nat → State → Option (Option Stop × State)
  | 0, _ => none
  | fuel + 1, s =>
    match p.instructions[s.ip]? with
    | none => some (none, s)
    | some i =>
      match executeByTable settings.strictLoops p.code p.code.jumpTable s i with
      | .error f => some (some f.stop, f.state)
      | .ok s' => runByTable settings p fuel s'.advance

/-- The result of an instruction without the open loops. -/
def unstackedResult : Except Failure State → Except Failure State
  | .ok s => .ok s.unstacked
  | .error f => .error ⟨f.stop, f.state.unstacked⟩

theorem stored_unstacked (s : State) (r : Except Overflow Tape) :
    stored s.unstacked r = unstackedResult (stored s r) := by
  cases r <;> rfl

/-- Instructions other than brackets do not look at the open loops. -/
theorem execute_unstacked (ho : i ≠ .loopOpen) (hc : i ≠ .loopClose) :
    execute strict code s.unstacked i = unstackedResult (execute strict code s i) := by
  cases i with
  | increment | decrement => exact stored_unstacked s _
  | moveRight | moveLeft => rfl
  | loopOpen => exact absurd rfl ho
  | loopClose => exact absurd rfl hc
  | output =>
    simp only [execute, State.cell, State.unstacked]
    cases scalar? (s.tape.get s.idx) <;> rfl
  | input =>
    simp only [execute, State.unstacked]
    cases s.input.read.1 with
    | error e => rfl
    | ok c =>
      cases c with
      | none => rfl
      | some c => exact stored_unstacked { s with input := s.input.read.2 } _

/-- Where the open loops are those of the code, the table tells what the jump stack would. -/
theorem executeByTable_unstacked (h : Nested code s) (hi : code[s.ip]? = some (.op i)) :
    executeByTable strict code code.jumpTable s.unstacked i =
      unstackedResult (execute strict code s i) := by
  by_cases ho : i = .loopOpen
  · subst ho
    have ht := Code.closing?_jumpTable hi h.nesting_ip
    simp only [executeByTable, execute, State.unstacked, State.cell, ht]
    by_cases hz : (strict && s.tape.get s.idx == 0) = true
    · simp only [hz, if_true]
      cases matchingClose code s.ip <;> rfl
    · simp only [Bool.eq_false_iff.2 hz, Bool.false_eq_true, if_false]
      rfl
  · by_cases hc : i = .loopClose
    · subst hc
      have ht := Code.opening?_jumpTable hi h.nesting_ip
      simp only [executeByTable, execute, State.unstacked, State.cell, ht]
      cases s.stack with
      | nil => rfl
      | cons top below =>
        simp only [List.head?_cons]
        by_cases hz : s.tape.get s.idx = 0
        · simp only [hz, ne_eq, not_true_eq_false, if_false]
          rfl
        · simp only [hz, ne_eq, not_false_eq_true, if_true]
          rfl
    · rw [← execute_unstacked ho hc]
      cases i <;> first | rfl | exact absurd rfl ho | exact absurd rfl hc

/-- With the same fuel, a run by the table comes to the same as a run with a jump stack. -/
theorem runByTable_eq {settings : Settings} {p : Program} {s : State} (h : Nested p.code s)
    (fuel : Nat) (log : Array LogEntry) :
    runByTable settings p fuel s.unstacked =
      (run settings p.code fuel s log).map fun o => (o.stop, o.state.unstacked) := by
  induction fuel generalizing s log with
  | zero => rfl
  | succ fuel ih =>
    unfold runByTable run
    have hu : s.unstacked.ip = s.ip := rfl
    rw [hu]
    cases hi : p.instructions[s.ip]? with
    | none =>
      have hc : p.code[s.ip]? = none := by simp [Program.getElem?_code, hi]
      simp [advance, hc]
    | some i =>
      have hc : p.code[s.ip]? = some (.op i) := by simp [Program.getElem?_code, hi]
      simp only [executeByTable_unstacked h hc]
      cases he : execute settings.strictLoops p.code s i with
      | error f => simp [advance, hc, logged, step, he, Except.map, unstackedResult]
      | ok u =>
        have hn : next? settings p.code s = some u.advance := by
          simp [next?_op hc, he, Except.toOption]
        simp only [advance, hc, logged, step, he, Except.map, unstackedResult]
        exact ih (h.of_next? hn) _

/-- In every state of a run, the jump stack holds the loops that a scan of the program finds open at
the current position. A `]` goes back to the loop it matches, and a run with a table made in advance
does the same, step for step. -/
theorem jump_stack_eq_nesting (settings : Settings) (p : Program) (tape : Tape) (input : Source) :
    (∀ n s, after settings p.code n { tape, input } = some s →
      s.ip ≤ p.size ∧ p.code.nesting s.ip = some s.stack ∧
      ∀ s', p.code[s.ip]? = some (.op .loopClose) → s.cell ≠ 0 →
        next? settings p.code s = some s' → ∃ j, p.code.Matched j s.ip ∧ s'.ip = j + 1) ∧
    ∀ fuel, runByTable settings p fuel { tape, input } =
      (start settings p.code tape input fuel).map fun o => (o.stop, o.state.unstacked) := by
  have h₀ := nested_start p.code tape input
  refine ⟨?_, ?_⟩
  · intro n s ha
    have hs := h₀.of_after ha
    refine ⟨?_, hs.nesting_ip, ?_⟩
    · simpa using hs.ip_le
    · intro s' hc hz hn
      exact hs.back hc hz hn
  · intro fuel
    exact runByTable_eq h₀ fuel _

/-- The loop `[]` on a cell that holds one goes back to its beginning. -/
theorem jump_stack_eq_nesting_spin :
    let p : Program := ⟨#[.loopOpen, .loopClose]⟩
    let tape : Tape := { format := ({} : Settings).format, stored := Std.ExtTreeMap.empty.insert 0 1 }
    let input := Source.ofText []
    ∃ s s', after {} p.code 1 { tape, input } = some s ∧ s.cell ≠ 0 ∧
      next? {} p.code s = some s' ∧ ∃ j, p.code.Matched j s.ip ∧ s'.ip = j + 1 := by
  intro p tape input
  let s : State := { tape, input, ip := 1, stack := [0], steps := 1 }
  have ho : p.code[0]? = some (.op .loopOpen) := by decide +kernel
  have hc : p.code[s.ip]? = some (.op .loopClose) := by decide +kernel
  have hz : s.cell ≠ 0 := by decide +kernel
  have hs : after {} p.code 1 { tape, input } = some s := by
    apply after_one
    rw [next?_op ho]
    rfl
  have hn : next? {} p.code s = some { s with steps := 2 } := by
    rw [next?_op hc]
    simp only [execute, s, if_pos hz]
    rfl
  exact ⟨s, _, hs, hz, hn, ((jump_stack_eq_nesting {} p tape input).1 1 s hs).2.2 _ hc hz hn⟩

end Machine

end TapeMachine
