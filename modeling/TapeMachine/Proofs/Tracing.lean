import TapeMachine.Proofs.InputRead
import TapeMachine.Session

/-!
What the log of a run tells. To trace a run changes nothing but its log; and the log of a traced run has
one line for every instruction that is begun, which shows the state that the completed steps have led to
(`Session.tracing_only_observes`).
-/
namespace TapeMachine

/-- The same settings with tracing on or off. -/
def Settings.withTrace (settings : Settings) (trace : Bool) : Settings := { settings with trace }

/-- The same session with tracing on or off. -/
def Session.withTrace (s : Session) (trace : Bool) : Session :=
  { s with settings := s.settings.withTrace trace }

namespace Machine

variable {settings : Settings} {code : Code} {p : Program} {s t : State} {stop : Option Stop}
  {fuel n : Nat} {log : Array LogEntry} {o : Outcome} {lines : List LogEntry}

section Observing

variable (settings) (trace : Bool) (p : Program) (s : State)

/-- Every word of a program can be logged, so tracing decides nothing. -/
theorem advance_withTrace (log : Array LogEntry) :
    (∃ s' log₁ log₂, advance settings p.code s log = .inr (s', log₁) ∧
      advance (settings.withTrace trace) p.code s log = .inr (s', log₂)) ∨
    (∃ o₁ o₂, advance settings p.code s log = .inl o₁ ∧
      advance (settings.withTrace trace) p.code s log = .inl o₂ ∧
      o₂.stop = o₁.stop ∧ o₂.state = o₁.state) := by
  have hstrict : (settings.withTrace trace).strictLoops = settings.strictLoops := rfl
  unfold advance
  cases hw : p.code[s.ip]? with
  | none => simp
  | some w =>
    cases w with
    | foreign w => exact absurd hw (p.getElem?_code_ne_foreign s.ip w)
    | op i =>
      simp only [logged, hstrict]
      cases step settings.strictLoops p.code s (.op i) <;> simp

theorem next?_withTrace : next? (settings.withTrace trace) p.code s = next? settings p.code s := by
  unfold next?
  obtain ⟨s', log₁, log₂, h₁, h₂⟩ | ⟨o₁, o₂, h₁, h₂, -, -⟩ := advance_withTrace settings trace p s #[]
  · rw [h₁, h₂]
  · rw [h₁, h₂]

theorem halt?_withTrace : halt? (settings.withTrace trace) p.code s = halt? settings p.code s := by
  unfold halt?
  obtain ⟨s', log₁, log₂, h₁, h₂⟩ | ⟨o₁, o₂, h₁, h₂, hstop, hstate⟩ :=
    advance_withTrace settings trace p s #[]
  · rw [h₁, h₂]
  · rw [h₁, h₂]
    simp only [hstop, hstate]

theorem after_withTrace (n : Nat) :
    after (settings.withTrace trace) p.code n s = after settings p.code n s := by
  induction n generalizing s with
  | zero => rfl
  | succ n ih =>
    rw [after_succ, after_succ, next?_withTrace]
    cases next? settings p.code s with
    | none => rfl
    | some s' => exact ih s'

theorem ends_withTrace_iff :
    Ends (settings.withTrace trace) p.code n s stop t ↔ Ends settings p.code n s stop t := by
  simp only [Ends, after_withTrace, halt?_withTrace]

/-- With the same fuel, a run comes to the same end whether it is traced or not. -/
theorem run_withTrace (log log' : Array LogEntry) :
    (run (settings.withTrace trace) p.code fuel s log').map (fun o => (o.stop, o.state)) =
      (run settings p.code fuel s log).map fun o => (o.stop, o.state) := by
  apply Option.ext
  rintro ⟨stop, t⟩
  simp only [Option.map_eq_some_iff, Prod.mk.injEq, run_iff_ends, ends_withTrace_iff]

end Observing

/-- The line for the word that a run begins at a state, if that word is an instruction. -/
def lineAt? (code : Code) (s : State) : Option LogEntry :=
  match code[s.ip]? with
  | some (.op i) => some (LogEntry.ofState s i)
  | _ => none

/-- Lines that recount a run: one for every instruction begun, and each for the state after as many
completed words as there are lines before it. -/
def Recounts (settings : Settings) (code : Code) (s : State) (lines : List LogEntry) : Prop :=
  ∀ k, lines[k]? = (after settings code k s).bind (lineAt? code)

theorem recounts_of_halt? {p : Option Stop × State} (h : halt? settings code s = some p) :
    Recounts settings code s (lineAt? code s).toList := by
  intro k
  cases k with
  | zero => cases hl : lineAt? code s <;> simp [hl]
  | succ k =>
    rw [after_succ, next?_eq_none_of_halt? h]
    cases lineAt? code s <;> simp

theorem Recounts.cons {line : LogEntry} (hn : next? settings code s = some t)
    (hl : lineAt? code s = some line) (h : Recounts settings code t lines) :
    Recounts settings code s (line :: lines) := by
  intro k
  cases k with
  | zero => simp [hl]
  | succ k =>
    rw [List.getElem?_cons_succ, h k, after_succ, hn]
    rfl

/-- What is logged at the end of a run: that it has finished, if it has. -/
def closing (stop : Option Stop) (t : State) : List LogEntry :=
  if stop = none then [LogEntry.ofEnd t] else []

/-- At the end of a run, the log has got the line of the word that failed, or has been closed. -/
theorem log_of_advance_inl (h : advance settings p.code s log = .inl o) :
    o.log.toList = log.toList ++ (if settings.trace then (lineAt? p.code s).toList else []) ++
        closing o.stop o.state ∧
      o.state.steps + (if o.stop = none then 0 else 1) = s.steps + (lineAt? p.code s).toList.length := by
  unfold advance at h
  unfold lineAt?
  cases hw : p.code[s.ip]? with
  | none =>
    rw [hw] at h
    cases Sum.inl.inj h
    simp [closing]
  | some w =>
    cases w with
    | foreign w => exact absurd hw (p.getElem?_code_ne_foreign s.ip w)
    | op i =>
      simp only [hw, logged] at h
      split at h
      next f hf =>
        cases Sum.inl.inj h
        have hstate : f.state.steps = s.steps := by
          cases he : execute settings.strictLoops p.code s i with
          | ok u => simp [step, he, Except.map] at hf
          | error f' =>
            have hff : f' = f := by simpa [step, he, Except.map] using hf
            subst hff
            cases refusal_of_execute he <;> rfl
        cases settings.trace <;> simp [closing, hstate]
      next => cases h

/-- Where a run goes on, the log has got the line of the word that was completed. -/
theorem log_of_advance_inr {log' : Array LogEntry}
    (h : advance settings p.code s log = .inr (t, log')) :
    ∃ line, lineAt? p.code s = some line ∧ next? settings p.code s = some t ∧
      t.steps = s.steps + 1 ∧
      log'.toList = log.toList ++ (if settings.trace then [line] else []) := by
  have hn : next? settings p.code s = some t := by
    obtain ⟨s', log'', hn, -, ha⟩ | ⟨o, -, -, ha⟩ := advance_cases settings p.code s log
    · rw [h] at ha
      cases ha
      exact hn
    · rw [h] at ha
      cases ha
  have hsteps := steps_after (after_one hn)
  obtain ⟨i, u, hi, he, -⟩ := next?_eq_some_iff.1 hn
  refine ⟨LogEntry.ofState s i, by rw [lineAt?, hi], hn, hsteps, ?_⟩
  simp only [advance, hi, logged, step, he, Except.map, Sum.inr.injEq, Prod.mk.injEq] at h
  rw [← h.2]
  cases settings.trace <;> simp

/-- What a run adds to its log: if it is traced, the lines that recount it; and that it has finished, if
it has. There is one line for every completed word, and one for the word that failed. -/
theorem log_of_run_program (h : run settings p.code fuel s log = some o) :
    ∃ lines, Recounts settings p.code s lines ∧
      o.state.steps + (if o.stop = none then 0 else 1) = s.steps + lines.length ∧
      o.log.toList =
        log.toList ++ (if settings.trace then lines else []) ++ closing o.stop o.state := by
  induction fuel generalizing s log with
  | zero => simp [run] at h
  | succ fuel ih =>
    unfold run at h
    split at h
    next o' ha =>
      cases Option.some.inj h
      obtain ⟨s', log', -, -, ha'⟩ | ⟨o', -, hh, -⟩ := advance_cases settings p.code s log
      · rw [ha] at ha'
        cases ha'
      · obtain ⟨hlog, hsteps⟩ := log_of_advance_inl ha
        exact ⟨_, recounts_of_halt? hh, hsteps, hlog⟩
    next s' log' ha =>
      obtain ⟨line, hline, hn, hsteps, hlog⟩ := log_of_advance_inr ha
      obtain ⟨lines, hlines, hcount, hrest⟩ := ih h
      refine ⟨line :: lines, hlines.cons hn hline, ?_, ?_⟩
      · rw [hcount, hsteps, List.length_cons]
        omega
      · rw [hrest, hlog]
        cases settings.trace <;> simp

/-- Each line shows the number of completed steps, and what the state after them holds. -/
theorem Recounts.step {k : Nat} {line : LogEntry} (h : Recounts settings p.code s lines)
    (hk : lines[k]? = some line) :
    ∃ t i, after settings p.code k s = some t ∧ p.instructions[t.ip]? = some i ∧
      line = .step (s.steps + k) t.ip i t.idx t.cell := by
  rw [h k] at hk
  obtain ⟨t, ht, hline⟩ := Option.bind_eq_some_iff.1 hk
  unfold lineAt? at hline
  split at hline
  next i hi =>
    refine ⟨t, i, ht, ?_, ?_⟩
    · simpa [Program.getElem?_code] using hi
    · rw [← Option.some.inj hline, LogEntry.ofState, steps_after ht]
  next => cases hline

/-- The whole log of a run from the beginning, and the state in which the run ends. -/
theorem log_of_start {tape : Tape} {input : Source} {trace : Bool}
    (h : start (settings.withTrace trace) p.code tape input fuel = some o) :
    ∃ final lines, after settings p.code o.state.steps { tape, input } = some final ∧
      o.state.stack = final.stack ∧
      o.log.toList = .start p.size settings.strictLoops ::
        (if trace then lines else []) ++ closing o.stop o.state ∧
      lines.length = o.state.steps + (if o.stop = none then 0 else 1) ∧
      ∀ k line, lines[k]? = some line →
        ∃ s i, after settings p.code k { tape, input } = some s ∧ p.instructions[s.ip]? = some i ∧
          line = .step k s.ip i s.idx s.cell := by
  obtain ⟨lines, hlines, hcount, hlog⟩ := log_of_run_program h
  obtain ⟨n, final, hfinal, hh⟩ := ends_of_run h
  have hsteps : o.state.steps = n := by
    rw [same_but_input_of_halt? hh]
    exact (steps_after hfinal).trans (Nat.zero_add n)
  rw [after_withTrace] at hfinal
  refine ⟨final, lines, hsteps ▸ hfinal, ?_, ?_, ?_, ?_⟩
  · rw [same_but_input_of_halt? hh]
    rfl
  · rw [hlog, p.size_code]
    rfl
  · exact (hcount.trans (Nat.zero_add _)).symm
  · intro k line hk
    obtain ⟨s, i, hs, hi, hline⟩ := hlines.step hk
    rw [after_withTrace] at hs
    exact ⟨s, i, hs, hi, by simpa using hline⟩

end Machine

namespace Session

open Machine

/-- Tracing only observes, and tells the truth. A run ends, stops, prints, reads, counts and writes alike
with tracing on or off. If its tape can be seeded, the log of a traced run that ends has a start; then one
line for every instruction begun, which shows the state that the steps before it have led to; then, exactly
if the run reached the end of the program, a finish. Without tracing, the lines are left out. A run whose
tape cannot be seeded does not begin: it ends with the overflow of the first cell that does not fit, or, if
that would have to name a number too long to be written, with this; it changes nothing and logs nothing. -/
theorem tracing_only_observes (p : Program) (session : Session) (fuel : Nat) :
    let traced := session.withTrace true
    let silent := session.withTrace false
    let blank : Tape := { format := session.settings.format }
    (traced.run p.code fuel = none ↔ silent.run p.code fuel = none) ∧
    ∀ r last, traced.run p.code fuel = some (r, last) →
      ∃ r' last', silent.run p.code fuel = some (r', last') ∧ r'.stop = r.stop ∧ r'.tape = r.tape ∧
        last'.output = last.output ∧ last'.input = last.input ∧ last'.lastSteps = last.lastSteps ∧
        (∀ e tape, blank.fill session.seed = .error (e, tape) →
          last = traced ∧ last' = silent ∧ r.tape = tape ∧ r.log = #[] ∧ r'.log = #[] ∧
          ∃ earlier i v later, session.seed = earlier ++ (i, v) :: later ∧
            blank.fill earlier = .ok tape ∧ session.settings.overflow = .trap ∧
            ¬ session.settings.format.Fits v ∧
            r.stop = some (if Integer.Printable v ∧ Integer.Printable i then
              .fault (Fault.overflow i v session.settings.cellBits none) else .unprintable)) ∧
        ∀ tape, blank.fill session.seed = .ok tape →
          let first : State := { tape, input := session.input }
          let opening := LogEntry.start p.size session.settings.strictLoops
          ∃ (final : State) (lines closing : List LogEntry),
            after session.settings p.code last.lastSteps first = some final ∧
            closing = (if r.stop = none then
              [.finish last.lastSteps r.tape.size final.stack.length] else []) ∧
            r.log.toList = opening :: lines ++ closing ∧ r'.log.toList = opening :: closing ∧
            lines.length = last.lastSteps + (if r.stop = none then 0 else 1) ∧
            ∀ k line, lines[k]? = some line →
              ∃ s i, after session.settings p.code k first = some s ∧
                p.instructions[s.ip]? = some i ∧ line = .step k s.ip i s.idx s.cell := by
  intro traced silent blank
  cases hseed : blank.fill session.seed with
  | error refusal =>
    have htraced : traced.run p.code fuel = _ := run_of_fill_error p.code fuel hseed
    have hsilent : silent.run p.code fuel = _ := run_of_fill_error p.code fuel hseed
    refine ⟨by rw [htraced, hsilent]; simp, ?_⟩
    intro r last hr
    rw [htraced] at hr
    cases hr
    refine ⟨_, _, hsilent, rfl, rfl, rfl, rfl, rfl, ?_, by simp⟩
    rintro e tape ⟨⟩
    obtain ⟨earlier, i, v, later, hcells, hfill, hfit, rfl⟩ := Tape.fill_eq_error hseed
    obtain ⟨htrap, hfits⟩ := CellFormat.fit?_eq_none_iff.1 hfit
    exact ⟨rfl, rfl, rfl, rfl, rfl, earlier, i, v, later, hcells, hfill, htrap, hfits,
      congrArg some (Overflow.stop_raised _)⟩
  | ok tape =>
    have hsame : (Machine.start silent.settings p.code tape session.input fuel).map
          (fun o => (o.stop, o.state)) =
        (Machine.start traced.settings p.code tape session.input fuel).map
          fun o => (o.stop, o.state) :=
      (run_withTrace session.settings false p _ _ _).trans
        (run_withTrace session.settings true p _ #[] _).symm
    refine ⟨?_, ?_⟩
    · have hnone : Machine.start traced.settings p.code tape session.input fuel = none ↔
          Machine.start silent.settings p.code tape session.input fuel = none := by
        simpa using congrArg (· = none) hsame.symm
      rw [run_eq_none_iff (s := traced) hseed, run_eq_none_iff (s := silent) hseed]
      exact hnone
    · intro r last hr
      obtain ⟨o, ho, rfl, rfl⟩ := (run_eq_some_iff (s := traced) hseed).1 hr
      obtain ⟨o', ho', heq⟩ : ∃ o', Machine.start silent.settings p.code tape session.input fuel =
          some o' ∧ (o'.stop, o'.state) = (o.stop, o.state) := by
        apply Option.map_eq_some_iff.1
        exact hsame.trans (Option.map_eq_some_iff.2 ⟨o, ho, rfl⟩)
      obtain ⟨hstop, hstate⟩ := Prod.mk.inj heq
      refine ⟨_, _, (run_eq_some_iff (s := silent) hseed).2 ⟨o', ho', rfl, rfl⟩, hstop, by rw [hstate],
        by rw [hstate]; rfl, by rw [hstate], by rw [hstate], by simp, ?_⟩
      rintro _ ⟨⟩
      obtain ⟨final, lines, hfinal, hstack, hlog, hlength, hlines⟩ := log_of_start ho
      obtain ⟨_, _, -, -, hlog', -⟩ := log_of_start ho'
      refine ⟨final, lines, closing o.stop o.state, hfinal, ?_, hlog, ?_, hlength, hlines⟩
      · rw [closing, LogEntry.ofEnd, hstack]
      · rw [hlog', hstop, hstate]
        rfl

/-- `->]` on a tape whose first cell is 5 fails at its third instruction, which has got its line. -/
theorem tracing_only_observes_refusal :
    let session : Session := { settings := {}, seed := [(0, 5)], input := Source.ofText [] }
    let p : Program := ⟨#[.decrement, .moveRight, .loopClose]⟩
    ∃ r last r' last', (session.withTrace true).run p.code 3 = some (r, last) ∧
      (session.withTrace false).run p.code 3 = some (r', last') ∧ r'.stop = r.stop ∧
      r.stop = some (.fault ⟨.unmatchedClose, some 2, some 1⟩) ∧ last'.lastSteps = 2 ∧
      r.log.toList.map LogEntry.message =
        ["run start: 3 instructions, strict_loops=False", "step 0 ip=0 - idx=0 cell=5",
          "step 1 ip=1 > idx=0 cell=4", "step 2 ip=2 ] idx=1 cell=0"] ∧
      r'.log.toList = [.start 3 false] := by
  intro session p
  let tape : Tape := ⟨session.settings.format, Std.ExtTreeMap.empty.insert 0 5⟩
  have hview : ((session.withTrace true).run p.code 3).map
      (fun x => (x.1.stop, x.2.lastSteps, x.1.log.toList.map LogEntry.message)) =
      some (some (.fault ⟨.unmatchedClose, some 2, some 1⟩), 2,
        ["run start: 3 instructions, strict_loops=False", "step 0 ip=0 - idx=0 cell=5",
          "step 1 ip=1 > idx=0 cell=4", "step 2 ip=2 ] idx=1 cell=0"]) := by
    decide +kernel
  obtain ⟨⟨r, last⟩, hrun, hview⟩ := Option.map_eq_some_iff.1 hview
  obtain ⟨hstop, hsteps, hmessages⟩ := by simpa using hview
  obtain ⟨r', last', hrun', hstop', -, -, -, hsteps', -, htold⟩ :=
    (tracing_only_observes p session 3).2 r last hrun
  obtain ⟨final, lines, closing, -, hclosing, -, hlog', -⟩ := htold tape rfl
  have hnil : closing = [] := by rw [hclosing, if_neg (by simp [hstop])]
  refine ⟨r, last, r', last', hrun, hrun', hstop', hstop, hsteps'.trans hsteps, hmessages, ?_⟩
  rw [hlog', hnil]
  rfl

/-- A seed that does not fit ends the run before anything is logged, its start included. -/
theorem unseeded_run_logs_nothing :
    let session : Session :=
      { settings := { cellBits := 8, overflow := .trap, trace := true }, seed := [(0, 128)],
        input := Source.ofText [] }
    let p : Program := ⟨#[.increment]⟩
    ∃ r last, session.run p.code 1 = some (r, last) ∧ last.lastSteps = 0 ∧
      r.stop = some (.fault (Fault.overflow 0 128 8 none)) ∧ LogEntry.start 1 false ∉ r.log.toList := by
  intro session p
  have hrefusal : ({ format := session.settings.format } : Tape).fill session.seed =
      .error (Overflow.raised ⟨0, 128, 8⟩, { format := session.settings.format }) := rfl
  have hraised : Overflow.raised ⟨0, 128, 8⟩ = .overflow ⟨0, 128, 8⟩ := by decide
  rw [hraised] at hrefusal
  refine ⟨_, _, run_of_fill_error p.code 1 hrefusal, rfl, rfl, ?_⟩
  simp

end Session

end TapeMachine
