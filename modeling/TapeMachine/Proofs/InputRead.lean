import TapeMachine.Proofs.Trajectory

/-!
What a run takes from its input. Only `,` reads, and only one character, so a run cannot tell what lies
behind the characters it has taken. Two inputs that begin alike give the same run, until the shorter one
is at its end (`run_sees_only_what_it_reads`).
-/
namespace TapeMachine

namespace Source

variable {a b : Source} {v : Text}

/-- One source holds what another one holds, and then `v`. If nothing is added, they also end alike. -/
structure Extends (v : Text) (a b : Source) : Prop where
  remaining_eq : b.remaining = a.remaining ++ v
  ending_eq : v = [] → b.ending = a.ending

/-- While the shorter source is not at its end, both give the same code point. -/
theorem Extends.read (h : Extends v a b) (hv : v = [] ∨ a.remaining ≠ []) :
    b.read.1 = a.read.1 ∧ Extends v a.read.2 b.read.2 := by
  obtain ⟨ha, ha', hae⟩ := a.read_eq
  obtain ⟨hb, hb', hbe⟩ := b.read_eq
  have hend : v = [] → b.read.2.ending = a.read.2.ending := by
    intro hv
    rw [hbe, hae, h.ending_eq hv]
  cases hr : a.remaining with
  | nil =>
    have hnil : v = [] := hv.resolve_right (not_not_intro hr)
    have hrb : b.remaining = [] := by rw [h.remaining_eq, hr, hnil]; rfl
    refine ⟨?_, ?_, hend⟩
    · rw [ha, hb, hr, hrb, h.ending_eq hnil]
    · rw [ha', hb', hr, hrb, hnil]
      rfl
  | cons c rest =>
    have hrb : b.remaining = c :: (rest ++ v) := by rw [h.remaining_eq, hr]; rfl
    refine ⟨?_, ?_, hend⟩
    · rw [ha, hb, hr, hrb]
    · rw [ha', hb', hr, hrb]
      rfl

end Source

/-- The same state with another input. -/
def State.withInput (s : State) (input : Source) : State := { s with input }

@[simp] theorem State.cell_withInput (s : State) (input : Source) :
    (s.withInput input).cell = s.cell := rfl

@[simp] theorem State.withInput_input (s : State) : s.withInput s.input = s := rfl

/-- The same outcome with another input left. -/
def Outcome.withInput (o : Outcome) (input : Source) : Outcome :=
  { o with state := o.state.withInput input }

/-- Whether a run stops because nothing more can be read. -/
def Stop.IsInputEnd : Stop → Prop
  | .fault f => f.cause = .inputExhausted
  | .undecodable _ => True
  | _ => False

namespace Machine

variable {settings : Settings} {code : Code} {p : Program} {s s' t u : State} {i : Instruction}
  {strict : Bool} {f : Failure} {v : Text} {n fuel : Nat} {log log' : Array LogEntry} {o : Outcome}
  {stop : Option Stop}

/-- What an instruction leaves of an input. -/
def inputAfter (input : Source) : Instruction → Source
  | .input => input.read.2
  | _ => input

theorem inputAfter_of_ne {input : Source} (h : i ≠ .input) : inputAfter input i = input := by
  cases i with
  | input => exact absurd rfl h
  | _ => rfl

theorem ending_inputAfter (input : Source) (i : Instruction) :
    (inputAfter input i).ending = input.ending := by
  cases i with
  | input => exact input.read_eq.2.2
  | _ => rfl

/-- The result of an instruction, with another input left. -/
def resultWithInput (input : Source) : Except Failure State → Except Failure State
  | .ok u => .ok (u.withInput input)
  | .error f => .error ⟨f.stop, f.state.withInput input⟩

/-- The input does not matter to an instruction, but for the one character that `,` reads. -/
theorem execute_withInput (strict : Bool) (code : Code) (s : State) (i : Instruction) (input : Source)
    (h : i = .input → input.read.1 = s.input.read.1) :
    execute strict code (s.withInput input) i =
      resultWithInput (inputAfter input i) (execute strict code s i) := by
  have hstored : ∀ (s : State) (r : Except Overflow Tape) (input : Source),
      stored (s.withInput input) r = resultWithInput input (stored s r) := by
    intro s r input
    cases r <;> rfl
  cases i with
  | increment | decrement => exact hstored s _ input
  | moveRight | moveLeft => rfl
  | output =>
    simp only [execute, State.cell_withInput]
    cases scalar? s.cell <;> rfl
  | input =>
    have hread : (s.withInput input).input.read.1 = s.input.read.1 := h rfl
    simp only [execute, hread]
    cases s.input.read.1 with
    | error e => rfl
    | ok c =>
      cases c with
      | none => rfl
      | some c => exact hstored { s with input := s.input.read.2 } _ input.read.2
  | loopOpen =>
    have hip : (s.withInput input).ip = s.ip := rfl
    simp only [execute, State.cell_withInput, hip]
    split
    · cases matchingClose code s.ip <;> rfl
    · rfl
  | loopClose =>
    have hstack : (s.withInput input).stack = s.stack := rfl
    simp only [execute, State.cell_withInput, hstack]
    cases s.stack with
    | nil => rfl
    | cons top below =>
      simp only
      split <;> rfl

/-- What a completed instruction leaves of the input. -/
theorem input_of_execute (h : execute strict code s i = .ok u) : u.input = inputAfter s.input i := by
  have hs := execute_withInput strict code s i s.input fun _ => rfl
  rw [State.withInput_input, h] at hs
  rw [Except.ok.inj hs]
  rfl

/-- What a failed instruction leaves of the input. -/
theorem input_of_failure (h : execute strict code s i = .error f) :
    f.state.input = inputAfter s.input i := by
  have hs := execute_withInput strict code s i s.input fun _ => rfl
  rw [State.withInput_input, h] at hs
  rw [Except.error.inj hs]
  rfl

/-- A `,` that is completed has read a character. -/
theorem read_of_execute (h : execute strict code s .input = .ok u) :
    ∃ c, s.input.read.1 = .ok (some c) := by
  simp only [execute] at h
  split at h
  next c hc => exact ⟨c, hc⟩
  next => cases h
  next => cases h

/-- What the word at the current place leaves of an input. -/
def inputPast (code : Code) (s : State) (input : Source) : Source :=
  match code[s.ip]? with
  | some (.op i) => inputAfter input i
  | _ => input

/-- A run with another input that reads alike goes on, or ends, in the same way. -/
theorem advance_withInput (settings : Settings) (code : Code) (s : State) (log : Array LogEntry)
    (input : Source) (h : code[s.ip]? = some (.op .input) → input.read.1 = s.input.read.1) :
    advance settings code (s.withInput input) log =
      (advance settings code s log).map (·.withInput (inputPast code s input))
        fun (s', log') => (s'.withInput (inputPast code s input), log') := by
  have hip : (s.withInput input).ip = s.ip := rfl
  unfold advance inputPast
  rw [hip]
  cases hw : code[s.ip]? with
  | none => rfl
  | some w =>
    cases w with
    | foreign w => cases settings.trace <;> simp [logged, step, Outcome.withInput]
    | op i =>
      have he := execute_withInput settings.strictLoops code s i input (by rintro rfl; exact h hw)
      simp only [logged, step, he]
      cases execute settings.strictLoops code s i <;> rfl

/-- Two states that differ only in their inputs, where the second has `v` in addition. -/
structure Ahead (v : Text) (s t : State) : Prop where
  same_but_input : t = s.withInput t.input
  input : Source.Extends v s.input t.input

/-- As long as the shorter input is not read beyond its end, two such states stay so. -/
theorem Ahead.advance (h : Ahead v s t) (settings : Settings) (code : Code) (log : Array LogEntry)
    (hv : code[s.ip]? = some (.op .input) → v = [] ∨ s.input.remaining ≠ []) :
    (∃ s' t' log', advance settings code s log = .inr (s', log') ∧
      advance settings code t log = .inr (t', log') ∧ Ahead v s' t') ∨
    (∃ o o', advance settings code s log = .inl o ∧ advance settings code t log = .inl o' ∧
      o'.stop = o.stop ∧ o'.log = o.log ∧ Ahead v o.state o'.state) := by
  have hpast : Source.Extends v (inputPast code s s.input) (inputPast code s t.input) := by
    unfold inputPast
    split
    next i hi =>
      by_cases hin : i = .input
      · subst hin
        exact (h.input.read (hv hi)).2
      · rw [inputAfter_of_ne hin, inputAfter_of_ne hin]
        exact h.input
    next => exact h.input
  have hs := advance_withInput settings code s log s.input fun _ => rfl
  have ht := advance_withInput settings code s log t.input fun hi => (h.input.read (hv hi)).1
  rw [State.withInput_input] at hs
  rw [← h.same_but_input] at ht
  -- Both runs give what the first gives, each with what is left of its own input.
  cases ha : Machine.advance settings code s log with
  | inl o =>
    rw [ha] at hs ht
    refine .inr ⟨_, _, hs, ht, rfl, rfl, rfl, hpast⟩
  | inr q =>
    rw [ha] at hs ht
    refine .inl ⟨_, _, _, hs, ht, rfl, hpast⟩

/-- A `,` that is completed finds a character. -/
theorem remaining_ne_nil_of_next? (hw : code[s.ip]? = some (.op .input))
    (h : next? settings code s = some s') : s.input.remaining ≠ [] := by
  obtain ⟨i, u, hi, he, -⟩ := next?_eq_some_iff.1 h
  rw [hw] at hi
  cases hi
  obtain ⟨c, hc⟩ := read_of_execute he
  simp [Source.remaining_of_read_some hc]

/-- A run that stops at a `,`, and not because of the end of its input, has found a character. -/
theorem remaining_ne_nil_of_halt? (hw : code[s.ip]? = some (.op .input))
    (h : halt? settings code s = some (stop, t)) (hno : ∀ e ∈ stop, ¬ e.IsInputEnd) :
    s.input.remaining ≠ [] := by
  obtain ⟨hc, -, -⟩ | ⟨w, hc, -, -⟩ | ⟨i, f, hi, he, rfl, -⟩ := halt?_cases h
  · rw [hw] at hc
    cases hc
  · rw [hw] at hc
    cases hc
  · rw [hw] at hi
    cases hi
    cases refusal_of_execute he with
    | shift i d o delta refused => obtain ⟨hi, -⟩ | ⟨hi, -⟩ := delta <;> cases hi
    | store c o read refused => simp [Source.remaining_of_read_some read]
    | exhausted read => exact absurd rfl (hno _ rfl)
    | undecodable e read => exact absurd trivial (hno _ rfl)

theorem Ahead.next? (h : Ahead v s t) (hn : next? settings code s = some s') :
    ∃ t', next? settings code t = some t' ∧ Ahead v s' t' := by
  have hv : code[s.ip]? = some (.op .input) → v = [] ∨ s.input.remaining ≠ [] :=
    fun hw => .inr (remaining_ne_nil_of_next? hw hn)
  obtain ⟨r, r', log', hs, ht, hR⟩ | ⟨o, o', hs, -, -⟩ := h.advance settings code #[] hv
  · simp only [Machine.next?, hs, Option.some.injEq] at hn
    exact ⟨r', by simp [Machine.next?, ht], hn ▸ hR⟩
  · simp [Machine.next?, hs] at hn

theorem Ahead.after (h : Ahead v s t) (ha : after settings code n s = some s') :
    ∃ t', after settings code n t = some t' ∧ Ahead v s' t' :=
  after_related (fun _ _ _ hR hn => hR.next? hn) h ha

/-- A run that is not stopped by the end of its input is the same run on a longer input, and leaves
unread what was added. -/
theorem Ahead.run (h : Ahead v s t) (hr : run settings code fuel s log = some o)
    (hno : v = [] ∨ ∀ e ∈ o.stop, ¬ e.IsInputEnd) :
    ∃ o', run settings code fuel t log = some o' ∧ o'.stop = o.stop ∧ o'.log = o.log ∧
      Ahead v o.state o'.state := by
  induction fuel generalizing s t log with
  | zero => simp [Machine.run] at hr
  | succ fuel ih =>
    unfold Machine.run at hr ⊢
    have hv : code[s.ip]? = some (.op .input) → v = [] ∨ s.input.remaining ≠ [] := by
      intro hw
      obtain ⟨s', log', hn, -, -⟩ | ⟨o', -, hh, ha⟩ := advance_cases settings code s log
      · exact .inr (remaining_ne_nil_of_next? hw hn)
      · rw [ha] at hr
        cases Option.some.inj hr
        exact hno.imp id (remaining_ne_nil_of_halt? hw hh)
    obtain ⟨s', t', log', hs, ht, hR⟩ | ⟨o₁, o₂, hs, ht, hstop, hlog, hR⟩ :=
      h.advance settings code log hv
    · rw [hs] at hr
      rw [ht]
      exact ih hR hr
    · rw [hs] at hr
      rw [ht]
      cases Option.some.inj hr
      exact ⟨o₂, rfl, hstop, hlog, hR⟩

/-- Only a completed `,` takes a character, and it takes one. -/
theorem remaining_of_next? (hi : code[s.ip]? = some (.op i)) (hn : next? settings code s = some s') :
    ∃ taken : Text, s.input.remaining = taken ++ s'.input.remaining ∧
      taken.length = [i].count .input := by
  obtain ⟨j, u, hj, he, rfl⟩ := next?_eq_some_iff.1 hn
  rw [hi] at hj
  cases hj
  have hu : u.input = inputAfter s.input i := input_of_execute he
  have hadvance : u.advance.input = u.input := rfl
  by_cases hin : i = .input
  · subst hin
    obtain ⟨c, hc⟩ := read_of_execute he
    refine ⟨[c], ?_, rfl⟩
    rw [hadvance, hu]
    exact Source.remaining_of_read_some hc
  · refine ⟨[], ?_, ?_⟩
    · rw [hadvance, hu, inputAfter_of_ne hin]
      rfl
    · simp [hin]

/-- A run has taken as many characters as it has completed `,`. -/
theorem remaining_after (h : after settings code n s = some t) :
    ∃ taken : Text, s.input.remaining = taken ++ t.input.remaining ∧
      taken.length = (executed settings code n s).count .input := by
  induction n generalizing s with
  | zero => exact ⟨[], Option.some.inj h ▸ rfl, rfl⟩
  | succ n ih =>
    obtain ⟨s', hn, hr⟩ := Option.bind_eq_some_iff.1 h
    obtain ⟨i, -, hi, -, -⟩ := next?_eq_some_iff.1 hn
    obtain ⟨first, hfirst, hlen⟩ := remaining_of_next? hi hn
    obtain ⟨rest, hrest, hlen'⟩ := ih hr
    refine ⟨first ++ rest, ?_, ?_⟩
    · rw [hfirst, hrest, List.append_assoc]
    · rw [List.length_append, hlen, hlen', executed, hi, hn, ← List.count_append]
      rfl

/-- How many characters the word at which a run stops has taken: one, if it is a `,` and the character
did not fit into the cell. -/
def takenAtStop (code : Code) (stop : Option Stop) (t : State) : Nat :=
  match stop, code[t.ip]? with
  | some (.fault ⟨.cellOverflow .., _, _⟩), some (.op .input) => 1
  | _, _ => 0

/-- Where a run ends, only the input may still have changed. -/
theorem same_but_input_of_halt? (h : halt? settings code s = some (stop, t)) :
    t = s.withInput t.input := by
  obtain ⟨-, -, rfl⟩ | ⟨w, -, rfl, -⟩ | ⟨i, f, -, he, -, rfl⟩ := halt?_cases h
  · rfl
  · rfl
  · cases refusal_of_execute he <;> rfl

/-- A run that ends has counted the words it completed, and only those. -/
theorem steps_of_ends (h : Ends settings code n s stop t) : t.steps = s.steps + n := by
  obtain ⟨u, hu, hh⟩ := h
  have ht : t.steps = u.steps := by
    rw [same_but_input_of_halt? hh]
    rfl
  rw [ht, steps_after hu]

theorem remaining_of_halt? (h : halt? settings code s = some (stop, t)) :
    ∃ taken : Text, s.input.remaining = taken ++ t.input.remaining ∧
      taken.length = takenAtStop code stop t := by
  obtain ⟨-, rfl, rfl⟩ | ⟨w, -, rfl, rfl | rfl⟩ | ⟨i, f, hi, he, rfl, rfl⟩ := halt?_cases h
  · exact ⟨[], rfl, rfl⟩
  · exact ⟨[], rfl, rfl⟩
  · exact ⟨[], rfl, rfl⟩
  · cases refusal_of_execute he with
    | shift i d o delta refused =>
      refine ⟨[], rfl, ?_⟩
      obtain ⟨rfl, -⟩ | ⟨rfl, -⟩ := delta <;> simp [takenAtStop, hi]
    | store c o read refused =>
      refine ⟨[c], Source.remaining_of_read_some read, ?_⟩
      simp [takenAtStop, hi, Overflow.fault, Fault.overflow]
    | exhausted read =>
      obtain ⟨h₁, h₂⟩ := Source.remaining_of_read_ne_some (s := s.input) (by simp [read])
      exact ⟨[], h₁.trans h₂.symm, by simp [takenAtStop, State.fault]⟩
    | undecodable e read =>
      obtain ⟨h₁, h₂⟩ := Source.remaining_of_read_ne_some (s := s.input) (by simp [read])
      exact ⟨[], h₁.trans h₂.symm, by simp [takenAtStop]⟩
    | output | unmatchedOpen | unmatchedClose => exact ⟨[], rfl, by simp [takenAtStop, State.fault]⟩

/-- A source never ends in any other way than it did at first. -/
theorem ending_after (h : after settings code n s = some t) : t.input.ending = s.input.ending := by
  refine after_invariant (P := fun u => u.input.ending = s.input.ending) ?_ rfl h
  intro r r' hr hn
  obtain ⟨i, u, -, he, rfl⟩ := next?_eq_some_iff.1 hn
  have hu : u.advance.input.ending = r.input.ending := by
    rw [← ending_inputAfter r.input i, ← input_of_execute he]
    rfl
  exact hu.trans hr

theorem ending_of_run (h : run settings code fuel s log = some o) :
    o.state.input.ending = s.input.ending := by
  obtain ⟨n, u, hu, hh⟩ := ends_of_run h
  rw [← ending_after hu]
  obtain ⟨-, -, ht⟩ | ⟨w, -, ht, -⟩ | ⟨i, f, -, he, -, ht⟩ := halt?_cases hh
  · rw [ht]
  · rw [ht]
  · rw [ht, input_of_failure he, ending_inputAfter]

/-- Input that can be decoded is never refused as undecodable. -/
theorem stop_ne_undecodable (hs : s.input.ending = .exhausted)
    (h : halt? settings code s = some (stop, t)) (e : Utf8.DecodeError) :
    stop ≠ some (.undecodable e) := by
  rintro rfl
  obtain ⟨-, hstop, -⟩ | ⟨w, -, -, hstop⟩ | ⟨i, f, -, he, hstop, -⟩ := halt?_cases h
  · cases hstop
  · rcases hstop with hstop | hstop <;> cases hstop
  · cases refusal_of_execute he with
    | shift | store | output | exhausted | unmatchedOpen | unmatchedClose => cases hstop
    | undecodable e' read =>
      -- What is read here is a code point or the end, neither of which is an error.
      rw [s.input.read_eq.1, hs] at read
      split at read <;> cases read

/-- A run sees of its input only what it has read. On a longer input it goes through the same states,
and ends in the same way unless the shorter one was exhausted, with the addition unread. At every point
it has taken one character for each `,`. -/
theorem run_sees_only_what_it_reads (settings : Settings) (code : Code) (tape : Tape) (u w : Source)
    (v : Text) (hu : u.ending = .exhausted) (hw : w.ending = .exhausted)
    (hv : w.remaining = u.remaining ++ v) :
    (∀ n s, after settings code n { tape, input := u } = some s →
      (∃ s', after settings code n { tape, input := w } = some s' ∧
        s' = { s with input := s'.input } ∧ s'.input.remaining = s.input.remaining ++ v) ∧
      ∃ taken : Text, u.remaining = taken ++ s.input.remaining ∧
        taken.length = (executed settings code n { tape, input := u }).count .input) ∧
    ∀ fuel o, start settings code tape u fuel = some o →
      (∃ taken : Text, u.remaining = taken ++ o.state.input.remaining ∧
        taken.length =
          (executed settings code o.state.steps { tape, input := u }).count .input +
            takenAtStop code o.stop o.state) ∧
      ((∀ f, o.stop = some (.fault f) → f.cause ≠ .inputExhausted) →
        ∃ o', start settings code tape w fuel = some o' ∧ o'.stop = o.stop ∧ o'.log = o.log ∧
          o'.state = { o.state with input := o'.state.input } ∧
          o'.state.input.remaining = o.state.input.remaining ++ v) := by
  have h₀ : Ahead v { tape, input := u } { tape, input := w } :=
    ⟨rfl, hv, fun _ => hw.trans hu.symm⟩
  refine ⟨?_, ?_⟩
  · intro n s hs
    obtain ⟨s', hs', hR⟩ := h₀.after hs
    exact ⟨⟨s', hs', hR.same_but_input, hR.input.remaining_eq⟩, remaining_after hs⟩
  · intro fuel o ho
    obtain ⟨n, s, hs, hh⟩ := ends_of_run ho
    refine ⟨?_, ?_⟩
    · have hsteps : o.state.steps = n := by
        rw [same_but_input_of_halt? hh]
        exact (steps_after hs).trans (Nat.zero_add n)
      obtain ⟨taken, htaken, hlen⟩ := remaining_after hs
      obtain ⟨last, hlast, hlen'⟩ := remaining_of_halt? hh
      refine ⟨taken ++ last, ?_, ?_⟩
      · rw [List.append_assoc, ← hlast]
        exact htaken
      · rw [List.length_append, hlen, hlen', hsteps]
    · intro hno
      have hend : ∀ e ∈ o.stop, ¬ e.IsInputEnd := by
        intro e he hin
        cases e with
        | fault f => exact hno f he hin
        | undecodable e => exact stop_ne_undecodable ((ending_after hs).trans hu) hh e he
        | unhandled | unnamed | unprintable => exact hin
      obtain ⟨o', ho', hstop, hlog, hR⟩ := h₀.run ho (.inr hend)
      exact ⟨o', ho', hstop, hlog, hR.same_but_input, hR.input.remaining_eq⟩

/-- In `,,` with 8-bit cells that refuse, the second character of `aÈb` is taken and does not fit; the
third is never looked at. -/
theorem run_sees_only_what_it_reads_unfit :
    let code : Code := #[.op .input, .op .input]
    let settings : Settings := { cellBits := 8, overflow := .trap }
    let tape : Tape := { format := settings.format }
    let u : Source := ⟨[[⟨0x61, by decide⟩], [], [⟨0xC8, by decide⟩]], .exhausted⟩
    let w : Source := Source.ofText [⟨0x61, by decide⟩, ⟨0xC8, by decide⟩, ⟨0x62, by decide⟩]
    ∃ o o', start settings code tape u 2 = some o ∧ start settings code tape w 2 = some o' ∧
      o.stop = some (.fault (Fault.overflow 0 0xC8 8 (some 1))) ∧ o'.stop = o.stop ∧
      o'.state.input.remaining = [⟨0x62, by decide⟩] ∧ takenAtStop code o.stop o.state = 1 := by
  intro code settings tape u w
  obtain ⟨o, ho, hstop, hrest, htaken⟩ : ∃ o, start settings code tape u 2 = some o ∧
      o.stop = some (.fault (Fault.overflow 0 0xC8 8 (some 1))) ∧ o.state.input.remaining = [] ∧
      takenAtStop code o.stop o.state = 1 := by
    refine ⟨_, rfl, ?_, ?_, ?_⟩ <;> rfl
  have hno : ∀ f, o.stop = some (.fault f) → f.cause ≠ .inputExhausted := by
    intro f hf
    rw [hstop] at hf
    cases hf
    exact Cause.noConfusion
  obtain ⟨o', ho', hstop', -, -, hleft⟩ :=
    ((run_sees_only_what_it_reads settings code tape u w [⟨0x62, by decide⟩] rfl rfl rfl).2 2 o ho).2 hno
  exact ⟨o, o', ho, ho', hstop, hstop', by rw [hleft, hrest]; rfl, htaken⟩

end Machine

end TapeMachine
