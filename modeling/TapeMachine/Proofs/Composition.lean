import TapeMachine.Proofs.Brackets.Faults
import TapeMachine.Proofs.InputRead
import TapeMachine.Proofs.Simulation

/-!
One program after another. The search for a closing bracket in a balanced program never looks into what
follows it, and code that follows something else behaves as it does alone, but that all its positions are
counted from further on. So two programs run one after another (`programs_compose`).
-/
namespace TapeMachine

/-! ### Code that follows other code -/

/-- The same fault, with positions counted from `k` words before. -/
def Fault.displaced (k : Nat) (f : Fault) : Fault := { f with ip := f.ip.map (· + k) }

/-- The same state, with positions counted from `k` words before, and `n` more steps done. -/
def State.displaced (k n : Nat) (s : State) : State :=
  { s with ip := s.ip + k, stack := s.stack.map (· + k), steps := s.steps + n }

/-- A state with no loop open is one at the beginning of code that was reached by the steps before. -/
theorem State.eq_displaced {s : State} {k : Nat} (hip : s.ip = k) (hstack : s.stack = []) :
    s = State.displaced k s.steps
      { tape := s.tape, idx := s.idx, input := s.input, output := s.output } := by
  cases s
  simp_all [State.displaced]

theorem Program.code_append (p q : Program) : (p ++ q).code = p.code ++ q.code := Array.map_append

namespace Machine

variable {settings : Settings} {strict : Bool} {front back : Code} {p q : Program} {s t u : State}
  {i : Instruction} {j k n left position depth close : Nat} {stop : Option Stop}

/-- A search that begins behind some code does not depend on that code. -/
theorem scanClose_append_right (front back : Code) (left position depth : Nat) :
    scanClose (front ++ back) left (position + front.size) depth =
      (scanClose back left position depth).map (· + front.size) := by
  induction left generalizing position depth with
  | zero => rfl
  | succ left ih =>
    have hget : (front ++ back)[position + front.size]? = back[position]? := by
      rw [Array.getElem?_append_right (Nat.le_add_left _ _), Nat.add_sub_cancel]
    have hnext : position + front.size + 1 = position + 1 + front.size := by omega
    unfold scanClose
    rw [hget, hnext]
    split
    · exact ih _ _
    · split
      · rfl
      · exact ih _ _
    · exact ih _ _

theorem matchingClose_append_right (front back : Code) (j : Nat) :
    matchingClose (front ++ back) (j + front.size) = (matchingClose back j).map (· + front.size) := by
  have hleft : (front ++ back).size - (j + front.size + 1) = back.size - (j + 1) := by
    rw [Array.size_append]
    omega
  have hnext : j + front.size + 1 = j + 1 + front.size := by omega
  unfold matchingClose
  rw [hleft, hnext, scanClose_append_right]

/-- What a search has found before the end of some code, it finds whatever follows. -/
theorem scanClose_append_left (h : scanClose front left position depth = some close)
    (hle : position + left ≤ front.size) (back : Code) (more : Nat) :
    scanClose (front ++ back) (left + more) position depth = some close := by
  induction left generalizing position depth with
  | zero => cases h
  | succ left ih =>
    have hget : (front ++ back)[position]? = front[position]? := Array.getElem?_append_left (by omega)
    rw [Nat.succ_add]
    unfold scanClose at h ⊢
    rw [hget]
    split at h
    · exact ih h (by omega)
    · split at h
      next hd => rwa [if_pos hd]
      next hd =>
        rw [if_neg hd]
        exact ih h (by omega)
    · exact ih h (by omega)

/-- In balanced code every search ends before the end, so what follows does not matter. -/
theorem matchingClose_append_left (hfront : front.Balanced 0 front.size)
    (hj : front[j]? = some (.op .loopOpen)) (back : Code) :
    matchingClose (front ++ back) j = matchingClose front j := by
  obtain ⟨close, hm⟩ := Code.exists_matched_of_balanced hfront hj
  have hfound : matchingClose front j = some close := (matchingClose_eq_some_iff hj).2 hm
  have hlt := Code.lt_size_of_getElem? hj
  have hleft : (front ++ back).size - (j + 1) = front.size - (j + 1) + back.size := by
    rw [Array.size_append]
    omega
  rw [hfound, matchingClose, hleft]
  exact scanClose_append_left hfound (by omega) back _

theorem stored_displaced (k n : Nat) (s : State) (r : Except Overflow Tape) :
    stored (s.displaced k n) r =
      carried (·.displaced k n) (Stop.mapFault (·.displaced k)) (stored s r) := by
  cases r <;> rfl

/-- Behind other code, an instruction does what it does in its own code. -/
theorem execute_displaced (strict : Bool) (front back : Code) (n : Nat) (s : State) (i : Instruction) :
    execute strict (front ++ back) (s.displaced front.size n) i =
      carried (·.displaced front.size n) (Stop.mapFault (·.displaced front.size))
        (execute strict back s i) := by
  have hcell : (s.displaced front.size n).cell = s.cell := rfl
  cases i with
  | increment | decrement => exact stored_displaced front.size n s _
  | moveRight | moveLeft => rfl
  | output =>
    simp only [execute, hcell]
    cases scalar? s.cell <;> rfl
  | input =>
    have hin : (s.displaced front.size n).input = s.input := rfl
    simp only [execute, hin]
    cases s.input.read.1 with
    | error e => rfl
    | ok ch =>
      cases ch with
      | none => rfl
      | some ch => exact stored_displaced front.size n { s with input := s.input.read.2 } _
  | loopOpen =>
    have hip : (s.displaced front.size n).ip = s.ip + front.size := rfl
    simp only [execute, hcell, hip, matchingClose_append_right]
    split
    · cases matchingClose back s.ip <;> rfl
    · rfl
  | loopClose =>
    have hstack : (s.displaced front.size n).stack = s.stack.map (· + front.size) := rfl
    simp only [execute, hcell, hstack]
    cases s.stack with
    | nil => rfl
    | cons top below =>
      simp only [List.map_cons]
      split <;> rfl

/-- Code that follows other code runs as it does alone, but for where its positions are counted from. -/
theorem carries_displaced (settings : Settings) (front back : Code) (n : Nat) :
    Carries settings settings back (front ++ back) (·.displaced front.size n)
      (Stop.mapFault (·.displaced front.size)) := by
  refine carries_of_execute id rfl (fun w => ⟨rfl, rfl⟩) ?_ ?_ ?_
  · intro s
    have hip : (s.displaced front.size n).ip = s.ip + front.size := rfl
    rw [hip, Array.getElem?_append_right (Nat.le_add_left _ _), Nat.add_sub_cancel, mapWord_id,
      Option.map_id]
    rfl
  · intro s
    simp only [State.displaced, State.advance, Nat.add_right_comm]
  · exact fun s i => execute_displaced settings.strictLoops front back n s i

/-! ### Code that other code follows -/

/-- In balanced code an instruction does the same whatever follows. -/
theorem execute_append_left (hfront : front.Balanced 0 front.size)
    (hi : front[s.ip]? = some (.op i)) (back : Code) :
    execute strict (front ++ back) s i = execute strict front s i := by
  cases i with
  | loopOpen => simp only [execute, matchingClose_append_left hfront hi]
  | _ => rfl

theorem advance_append_left (hfront : front.Balanced 0 front.size) (hs : s.ip < front.size) (back : Code)
    (log : Array LogEntry) : advance settings (front ++ back) s log = advance settings front s log := by
  unfold advance
  rw [Array.getElem?_append_left hs]
  cases hw : front[s.ip]? with
  | none => rfl
  | some w =>
    cases w with
    | foreign w => rfl
    | op i => simp only [step, execute_append_left hfront hw]

theorem next?_append_left (hfront : front.Balanced 0 front.size)
    (h : next? settings front s = some t) (back : Code) :
    next? settings (front ++ back) s = some t := by
  obtain ⟨i, u, hi, -, -⟩ := next?_eq_some_iff.1 h
  rw [next?, advance_append_left hfront (Code.lt_size_of_getElem? hi)]
  exact h

theorem after_append_left (hfront : front.Balanced 0 front.size)
    (h : after settings front n s = some t) (back : Code) :
    after settings (front ++ back) n s = some t := by
  obtain ⟨t', ht', rfl⟩ := after_related (R := Eq)
    (fun r _ r' hr hn => ⟨r', hr ▸ next?_append_left hfront hn back, rfl⟩) rfl h
  exact ht'

/-- A run that fails in balanced code fails there whatever follows. -/
theorem Ends.append_left {stop : Stop} (hfront : front.Balanced 0 front.size)
    (h : Ends settings front n s (some stop) t) (back : Code) :
    Ends settings (front ++ back) n s (some stop) t := by
  obtain ⟨u, hu, hh⟩ := h
  refine ⟨u, after_append_left hfront hu back, ?_⟩
  have hlt : u.ip < front.size := by
    obtain ⟨-, hstop, -⟩ | ⟨w, hw, -, -⟩ | ⟨i, f, hi, -, -, -⟩ := halt?_cases hh
    · cases hstop
    · exact Code.lt_size_of_getElem? hw
    · exact Code.lt_size_of_getElem? hi
  rw [halt?, advance_append_left hfront hlt]
  exact hh

/-- A run of balanced code that reaches its end is just behind the code, with no loop open. -/
theorem Nested.end_of_balanced (hfront : front.Balanced 0 front.size) (h : Nested front s)
    (hh : halt? settings front s = some (none, t)) : t = s ∧ s.ip = front.size ∧ s.stack = [] := by
  obtain ⟨hst, hip, -⟩ := h.halt?_none hh
  have hn := Code.nesting_balanced hfront (Nat.zero_le _) (Code.nesting_zero front)
  rw [← hip, h.nesting_ip] at hn
  exact ⟨hst, hip, Option.some.inj hn⟩

/-- Programs run one after another. While a balanced program has not reached its end, nothing that follows
it matters: both run on, and if it fails, both fail alike. If it reaches its end after `n` steps, the two
together are there after `n` steps as well, with no loop open, and go on as the second program does from
the tape, index, input and output that are left, with `n` steps more and with its positions counted from
the end of the first. -/
theorem programs_compose (p q : Program) (hp : p.Balanced) (settings : Settings) (tape : Tape)
    (input : Source) :
    (∀ fuel, start settings p.code tape input fuel = none →
      start settings (p ++ q).code tape input fuel = none) ∧
    ∀ fuel o, start settings p.code tape input fuel = some o →
      (∀ stop, o.stop = some stop →
        (start settings (p ++ q).code tape input fuel).map Outcome.conclusion =
          some (some stop, o.state)) ∧
      (o.stop = none →
        let n := o.state.steps
        let first : State :=
          { tape := o.state.tape, idx := o.state.idx, input := o.state.input,
            output := o.state.output }
        after settings (p ++ q).code n { tape, input } = some o.state ∧
        o.state.ip = p.size ∧ o.state.stack = [] ∧
        (∀ m, after settings (p ++ q).code (n + m) { tape, input } =
          (after settings q.code m first).map (·.displaced p.size n)) ∧
        ∀ fuel log, (start settings (p ++ q).code tape input (n + fuel)).map Outcome.conclusion =
          (run settings q.code fuel first log).map fun e =>
            (e.stop.map (Stop.mapFault (·.displaced p.size)), e.state.displaced p.size n)) := by
  rw [Program.code_append]
  refine ⟨?_, ?_⟩
  · intro fuel h
    obtain ⟨t, ht⟩ := (run_eq_none_iff fuel _ _).1 h
    exact (run_eq_none_iff fuel _ _).2 ⟨t, after_append_left hp ht q.code⟩
  · intro fuel o ho
    obtain ⟨n, hlt, he⟩ := (run_iff_ends fuel _ _).1 ⟨o, ho, rfl, rfl⟩
    refine ⟨?_, ?_⟩
    · intro stop hstop
      rw [hstop] at he
      obtain ⟨o', ho', hstop', hstate⟩ :=
        (run_iff_ends fuel _ _).2 ⟨n, hlt, he.append_left hp q.code⟩
      exact Option.map_eq_some_iff.2 ⟨o', ho', Prod.ext hstop' hstate⟩
    · intro hstop m first
      have hsteps : o.state.steps = n := (steps_of_ends he).trans (Nat.zero_add n)
      obtain ⟨s, hs, hh⟩ := he
      rw [hstop] at hh
      obtain ⟨hst, hip, hstack⟩ := ((nested_start p.code tape input).of_after hs).end_of_balanced hp hh
      rw [← hst] at hs hip hstack
      rw [← hsteps] at hs
      -- Where the first program ends, the second begins.
      have hfirst : o.state = first.displaced p.code.size m := State.eq_displaced hip hstack
      have hreach := after_append_left hp hs q.code
      have hcarries := carries_displaced settings p.code q.code m
      rw [p.size_code] at hip hfirst hcarries
      refine ⟨hreach, hip, hstack, ?_, ?_⟩
      · intro k
        rw [after_add, hreach, Option.bind_some, ← hcarries.after_eq, ← hfirst]
      · intro fuel log
        obtain ⟨log', hrun⟩ := run_of_after hreach fuel
          #[.start (p.code ++ q.code).size settings.strictLoops]
        rw [start, hrun, hfirst]
        exact hcarries.run_eq fuel first log log'

/-- After `[>]`, which has no loop open at its end, the `]` of `<]` fails as it does alone, three words
and three steps further on. -/
theorem programs_compose_stray :
    let p : Program := ⟨#[.loopOpen, .moveRight, .loopClose]⟩
    let q : Program := ⟨#[.moveLeft, .loopClose]⟩
    let tape : Tape := { format := ({} : Settings).format }
    let input := Source.ofText []
    ∃ o o', start {} p.code tape input 4 = some o ∧ o.stop = none ∧ o.state.steps = 3 ∧
      after {} (p ++ q).code 3 { tape, input } = some o.state ∧
      start {} (p ++ q).code tape input 5 = some o' ∧
      o'.stop = some (.fault ⟨.unmatchedClose, some 4, some 0⟩) ∧ o'.state.steps = 4 := by
  intro p q tape input
  let o : Outcome :=
    ⟨none, { tape, input, ip := 3, idx := 1, steps := 3 }, #[.start 3 false, .finish 3 0 0]⟩
  have ho : start {} p.code tape input 4 = some o := by cbv
  obtain ⟨hreach, -, -, -, hrun⟩ :=
    ((programs_compose p q (by decide +kernel) {} tape input).2 4 o ho).2 rfl
  let first : State := { tape, idx := 1, input }
  let e : Outcome :=
    ⟨some (.fault ⟨.unmatchedClose, some 1, some 0⟩), { tape, input, ip := 1, idx := 0, steps := 1 }, #[]⟩
  have he : run {} q.code 2 first #[] = some e := by cbv
  have hboth : (start {} (p ++ q).code tape input 5).map Outcome.conclusion = _ := hrun 2 #[]
  rw [he] at hboth
  obtain ⟨o', ho', hconclusion⟩ := Option.map_eq_some_iff.1 hboth
  obtain ⟨hstop, hstate⟩ := Prod.mk.inj hconclusion
  exact ⟨o, o', ho, rfl, rfl, hreach, ho', hstop, by rw [hstate]; rfl⟩

end Machine

end TapeMachine
