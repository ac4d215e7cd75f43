import TapeMachine.Proofs.Trajectory
import TapeMachine.Session

/-!
How a run fails. An instruction that fails has done nothing yet, but that `,` may have taken a character
which then did not fit. So a failed run is left where its last completed step took it, and the fault
names that place (`failed_run_stops_at_last_step`).
-/
namespace TapeMachine.Machine

variable {settings : Settings} {code : Code} {s t : State} {strict : Bool} {i : Instruction}
  {w : Word} {f : Failure} {stop : Stop}

/-- The value that an instruction is about to write, whether it fits or not. -/
def written? (s : State) : Instruction → Option Int
  | .increment => some (s.cell + 1)
  | .decrement => some (s.cell - 1)
  | .input => s.input.remaining.head?.map fun c => (c.val : Int)
  | _ => none

/-- A fault that names the place where a state is, and the write that failed there if one did. -/
structure Names (s : State) (w : Word) (f : Fault) : Prop where
  ip_eq : f.ip = some (s.ip : Int)
  idx_eq : f.idx = some s.idx
  message_eq : f.message = "ip " ++ toString s.ip ++ ": " ++ f.cause.message
  overflow : ∀ index value bits, f.cause = .cellOverflow index value bits →
    index = s.idx ∧ bits = s.tape.format.bits ∧ ¬ s.tape.format.Fits value ∧
      ∃ i, w = .op i ∧ written? s i = some value

/-- What is left of a state in which a word failed: the same state, but for one character of the input
that `,` may have taken and could not store. -/
structure Left (s : State) (w : Word) (stop : Stop) (t : State) : Prop where
  same_but_input : t = { s with input := t.input }
  input : t.input.remaining = s.input.remaining ∨
    ∃ c, w = .op .input ∧ s.input.remaining = c :: t.input.remaining ∧
      stop = .fault (Fault.overflow s.idx c.val s.tape.format.bits (some s.ip))
  ending_eq : t.input.ending = s.input.ending
  names : ∀ f, stop = .fault f → Names s w f

/-- A fault raised at the current place, other than an overflow, names it. -/
theorem names_fault {cause : Cause} (h : ∀ index value bits, cause ≠ .cellOverflow index value bits) :
    Names s w (s.fault cause) := by
  refine ⟨rfl, rfl, rfl, ?_⟩
  intro index value bits hc
  exact absurd hc (h index value bits)

/-- The fault of a refused write names the write. -/
theorem names_overflow {v : Int} {o : Overflow} (h : s.tape.put s.idx v = .error o)
    (hv : written? s i = some v) :
    o.fault (some s.ip) = Fault.overflow s.idx v s.tape.format.bits (some s.ip) ∧
      Names s (.op i) (o.fault (some s.ip)) := by
  obtain ⟨hn, rfl⟩ := Tape.put_eq_error_iff.1 h
  refine ⟨rfl, rfl, rfl, rfl, ?_⟩
  intro index value bits hc
  cases hc
  exact ⟨rfl, rfl, (CellFormat.fit?_eq_none_iff.1 hn).2, i, rfl, hv⟩

/-- A failed instruction leaves the state it was begun in. -/
theorem left_of_refusal (h : Refusal strict code s i f) : Left s (.op i) f.stop f.state := by
  cases h with
  | shift i d o delta refused =>
    have hv : written? s i = some (s.cell + d) := by
      obtain ⟨rfl, rfl⟩ | ⟨rfl, rfl⟩ := delta <;> rfl
    refine ⟨rfl, .inl rfl, rfl, ?_⟩
    rintro _ ⟨⟩
    exact (names_overflow refused hv).2
  | output invalid =>
    refine ⟨rfl, .inl rfl, rfl, ?_⟩
    rintro _ ⟨⟩
    exact names_fault (by simp)
  | store c o read refused =>
    have hr := Source.remaining_of_read_some read
    have hv : written? s .input = some (c.val : Int) := by simp [written?, hr]
    obtain ⟨ho, hn⟩ := names_overflow refused hv
    refine ⟨rfl, .inr ⟨c, rfl, hr, congrArg Stop.fault ho⟩, s.input.read_eq.2.2, ?_⟩
    rintro _ ⟨⟩
    exact hn
  | exhausted read =>
    obtain ⟨h₁, h₂⟩ := Source.remaining_of_read_ne_some (s := s.input) (by simp [read])
    refine ⟨rfl, .inl (h₂.trans h₁.symm), s.input.read_eq.2.2, ?_⟩
    rintro _ ⟨⟩
    exact names_fault (by simp)
  | undecodable e read =>
    obtain ⟨h₁, h₂⟩ := Source.remaining_of_read_ne_some (s := s.input) (by simp [read])
    refine ⟨rfl, .inl (h₂.trans h₁.symm), s.input.read_eq.2.2, ?_⟩
    rintro _ ⟨⟩
  | unmatchedOpen mode zero missing =>
    refine ⟨rfl, .inl rfl, rfl, ?_⟩
    rintro _ ⟨⟩
    exact names_fault (by simp)
  | unmatchedClose empty =>
    refine ⟨rfl, .inl rfl, rfl, ?_⟩
    rintro _ ⟨⟩
    exact names_fault (by simp)

/-- A run that ends early ends at a word that fails, and leaves the state in which that word was begun. -/
theorem left_of_halt? (hw : settings.trace = false ∨ ∃ p : Program, code = p.code)
    (h : halt? settings code s = some (some stop, t)) :
    ∃ w, code[s.ip]? = some w ∧ step settings.strictLoops code s w = .error ⟨stop, t⟩ ∧
      Left s w stop t := by
  obtain ⟨-, hs, -⟩ | ⟨w, hc, rfl, hs⟩ | ⟨i, f, hi, he, hs, rfl⟩ := halt?_cases h
  · cases hs
  · -- A word that is no instruction is executed, since nothing is logged before.
    have hstop : stop = .unhandled w := by
      obtain ht | ⟨p, rfl⟩ := hw
      · simpa [halt?, advance, hc, logged, step, ht, eq_comm] using h
      · exact absurd hc (p.getElem?_code_ne_foreign _ w)
    subst hstop
    exact ⟨.foreign w, hc, rfl, rfl, .inl rfl, rfl, by rintro _ ⟨⟩⟩
  · cases hs
    exact ⟨.op i, hi, by simp [step, he, Except.map], left_of_refusal (refusal_of_execute he)⟩

/-- A run that fails has completed exactly the steps it counts. The word after them fails, and leaves
tape, position, index, open loops and output as those steps made them. -/
theorem failed_run_stops_at_last_step (session session' : Session) (code : Code) (fuel : Nat)
    (tape : Tape) (r : SessionRun) (stop : Stop)
    (hcode : session.settings.trace = false ∨ ∃ p : Program, code = p.code)
    (hseed : ({ format := session.settings.format } : Tape).fill session.seed = .ok tape)
    (hrun : session.run code fuel = some (r, session')) (hstop : r.stop = some stop) :
    ∃ s w t,
      after session.settings code session'.lastSteps { tape, input := session.input } = some s ∧
      code[s.ip]? = some w ∧ step session.settings.strictLoops code s w = .error ⟨stop, t⟩ ∧
      Left s w stop t ∧ s.tape.format = session.settings.format ∧
      r.tape = s.tape ∧ session'.output = session.output ++ s.output ∧ session'.input = t.input := by
  obtain ⟨o, ho, rfl, rfl⟩ := (Session.run_eq_some_iff hseed).1 hrun
  obtain ⟨n, s, hs, hh⟩ := ends_of_run ho
  rw [show o.stop = some stop from hstop] at hh
  obtain ⟨w, hw, hstep, hl⟩ := left_of_halt? hcode hh
  have hsteps : o.state.steps = n := by
    rw [hl.same_but_input, steps_after hs]
    exact Nat.zero_add n
  refine ⟨s, w, o.state, hsteps.symm ▸ hs, hw, hstep, hl, ?_, ?_, ?_, rfl⟩
  · exact (format_after hs).trans (Tape.format_fill hseed)
  · rw [hl.same_but_input]
  · rw [hl.same_but_input]

/-- In `>,` with 8-bit cells that refuse, on a tape seeded at its second cell, the character U+00C8 is
taken but not stored. -/
theorem failed_run_stops_at_last_step_unstored :
    let session : Session :=
      { settings := { cellBits := 8, overflow := .trap }, seed := [(1, 5)],
        input := Source.ofText [⟨0xC8, by decide⟩] }
    let tape : Tape := ⟨session.settings.format, Std.ExtTreeMap.empty.insert 1 5⟩
    let code : Code := #[.op .moveRight, .op .input]
    let stop : Stop := .fault (Fault.overflow 1 0xC8 8 (some 1))
    ∃ r session' s w t, session.run code 2 = some (r, session') ∧ r.stop = some stop ∧
      session'.lastSteps = 1 ∧ session'.input.remaining = [] ∧
      after session.settings code 1 { tape, input := session.input } = some s ∧
      Left s w stop t ∧ r.tape = s.tape := by
  intro session tape code stop
  obtain ⟨r, session', hrun, hstop, hsteps, hin⟩ :
      ∃ r session', session.run code 2 = some (r, session') ∧ r.stop = some stop ∧
        session'.lastSteps = 1 ∧ session'.input.remaining = [] := by
    refine ⟨_, _, rfl, rfl, rfl, rfl⟩
  obtain ⟨s, w, t, hs, -, -, hl, -, ht, -⟩ :=
    failed_run_stops_at_last_step session session' code 2 tape r stop (.inl rfl) rfl hrun hstop
  exact ⟨r, session', s, w, t, hrun, hstop, hsteps, hin, hsteps ▸ hs, hl, ht⟩

end TapeMachine.Machine
