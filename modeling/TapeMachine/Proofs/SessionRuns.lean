import TapeMachine.Proofs.InputRead
import TapeMachine.Session

/-!
Runs in a session. The machine of a session keeps nothing from one run to the next: after any history, a
run is that of a new machine on the text that is still unread (`run_eq_fresh_run`).
-/
namespace TapeMachine

theorem Source.Extends.symm {a b : Source} (h : Extends [] a b) : Extends [] b a :=
  ⟨by rw [h.remaining_eq, List.append_nil, List.append_nil], fun _ => (h.ending_eq rfl).symm⟩

namespace Machine

variable {settings : Settings} {code : Code} {s t : State} {fuel : Nat} {log : Array LogEntry}

theorem Ahead.symm (h : Ahead [] s t) : Ahead [] t s :=
  ⟨by rw [h.same_but_input]; rfl, h.input.symm⟩

/-- Runs on inputs that hold the same end alike, or both go on. -/
theorem Ahead.run_eq_none_iff (h : Ahead [] s t) :
    Machine.run settings code fuel s log = none ↔ Machine.run settings code fuel t log = none := by
  have himp : ∀ {s t : State}, Ahead [] s t → Machine.run settings code fuel t log = none →
      Machine.run settings code fuel s log = none := by
    intro s t h ht
    cases hs : Machine.run settings code fuel s log with
    | none => rfl
    | some o =>
      obtain ⟨o', ho', -⟩ := h.run hs (.inl rfl)
      rw [ht] at ho'
      cases ho'
  exact ⟨himp h.symm, himp h⟩

end Machine

namespace Session

variable {s s' first : Session} {fuel : Nat} {code : Code} {r : SessionRun}

/-- What no operation of a session changes: its settings, and how its input will end. -/
structure Continues (first s : Session) : Prop where
  settings_eq : s.settings = first.settings
  ending_eq : s.input.ending = first.input.ending

theorem continues_of_run (h : s.run code fuel = some (r, s')) : Continues s s' := by
  cases hseed : ({ format := s.settings.format } : Tape).fill s.seed with
  | error e =>
    simp only [run, hseed, Option.some.injEq, Prod.mk.injEq] at h
    exact h.2 ▸ ⟨rfl, rfl⟩
  | ok tape =>
    obtain ⟨o, ho, -, rfl⟩ := (run_eq_some_iff hseed).1 h
    exact ⟨rfl, Machine.ending_of_run ho⟩

theorem continues_of_perform {op : Operation} {answer : Answer}
    (h : s.perform fuel op = some (answer, s')) : Continues s s' := by
  cases op with
  | run code =>
    obtain ⟨⟨r, after⟩, hr, he⟩ := Option.map_eq_some_iff.1 h
    cases he
    exact continues_of_run hr
  | seed cells =>
    cases Option.some.inj h
    exact ⟨rfl, rfl⟩
  | read =>
    cases Option.some.inj h
    exact ⟨rfl, s.input.read_eq.2.2⟩
  | write text =>
    cases Option.some.inj h
    exact ⟨rfl, rfl⟩

theorem continues_of_performAll {ops : List Operation} {answers : List Answer}
    (h : first.performAll fuel ops = some (answers, s)) : Continues first s := by
  induction ops generalizing first answers with
  | nil =>
    cases Option.some.inj h
    exact ⟨rfl, rfl⟩
  | cons op ops ih =>
    obtain ⟨⟨answer, after⟩, hop, hrest⟩ := Option.bind_eq_some_iff.1 h
    obtain ⟨⟨more, last⟩, hops, he⟩ := Option.bind_eq_some_iff.1 hrest
    cases Option.some.inj he
    have hfirst := continues_of_perform hop
    have hlater := ih hops
    exact ⟨hlater.settings_eq.trans hfirst.settings_eq, hlater.ending_eq.trans hfirst.ending_eq⟩

/-- A new session with the settings and the seed of another, on the text that is unread there. -/
def fresh (s : Session) : Session :=
  { settings := s.settings, seed := s.seed,
    input := { chunks := [s.input.remaining], ending := s.input.ending } }

/-- A new machine on the unread text begins as the old one does. -/
theorem ahead_fresh (s : Session) (tape : Tape) :
    Machine.Ahead [] { tape, input := s.input } { tape, input := s.fresh.input } := by
  refine ⟨rfl, ?_, fun _ => rfl⟩
  simp [fresh, Source.remaining]

theorem run_eq_none_iff_fresh (s : Session) (code : Code) (fuel : Nat) :
    s.run code fuel = none ↔ s.fresh.run code fuel = none := by
  cases hseed : ({ format := s.settings.format } : Tape).fill s.seed with
  | error e =>
    have hfresh : s.fresh.settings = s.settings ∧ s.fresh.seed = s.seed := ⟨rfl, rfl⟩
    simp [run, hfresh, hseed]
  | ok tape =>
    rw [run_eq_none_iff hseed, run_eq_none_iff (s := s.fresh) hseed]
    exact (ahead_fresh s tape).run_eq_none_iff

/-- A run whose tape can be seeded is that of a new machine on the unread text. What it prints is added
to the output, and it leaves unread what that machine leaves. -/
theorem run_fresh {tape : Tape} (hseed : ({ format := s.settings.format } : Tape).fill s.seed = .ok tape)
    (h : s.run code fuel = some (r, s')) :
    ∃ last, s.fresh.run code fuel = some (r, last) ∧ s'.lastSteps = last.lastSteps ∧
      s'.output = s.output ++ last.output ∧ s'.input.remaining = last.input.remaining ∧
      s'.seed = s.seed := by
  obtain ⟨o, ho, rfl, rfl⟩ := (run_eq_some_iff hseed).1 h
  obtain ⟨o', ho', hstop, hlog, hR⟩ := (ahead_fresh s tape).run ho (.inl rfl)
  have hstate := hR.same_but_input
  have hrun : s.fresh.run code fuel = some (⟨o.stop, o.state.tape, o.log⟩, _) :=
    (run_eq_some_iff (s := s.fresh) hseed).2 ⟨o', ho', by rw [hstop, hlog, hstate]; rfl, rfl⟩
  have hleft : o'.state.input.remaining = o.state.input.remaining := by
    rw [hR.input.remaining_eq, List.append_nil]
  refine ⟨_, hrun, ?_, ?_, hleft.symm, rfl⟩
  · rw [hstate]
    rfl
  · rw [hstate]
    simp [fresh, State.withInput]

/-- Runs in a session do not depend on each other but through the streams they share. After any
operations, failed runs among them, a run whose tape can be seeded is that of a new machine with the same
settings and seed on the text that is still unread, and it ends at all only if that one does. -/
theorem run_eq_fresh_run (first s : Session) (before : List Operation) (answers : List Answer) (n : Nat)
    (hbefore : first.performAll n before = some (answers, s)) (tape : Tape)
    (hseed : ({ format := first.settings.format } : Tape).fill s.seed = .ok tape)
    (code : Code) (fuel : Nat) :
    let new : Session :=
      { settings := first.settings, seed := s.seed,
        input := { chunks := [s.input.remaining], ending := first.input.ending } }
    (s.run code fuel = none ↔ new.run code fuel = none) ∧
    ∀ r s', s.run code fuel = some (r, s') →
      ∃ last, new.run code fuel = some (r, last) ∧ s'.lastSteps = last.lastSteps ∧
        s'.output = s.output ++ last.output ∧ s'.input.remaining = last.input.remaining ∧
        s'.settings = first.settings ∧ s'.seed = s.seed := by
  intro new
  have hs := continues_of_performAll hbefore
  have hnew : new = s.fresh := by
    simp only [new, fresh, hs.settings_eq, hs.ending_eq]
  refine ⟨hnew ▸ run_eq_none_iff_fresh s code fuel, ?_⟩
  intro r s' hrun
  rw [hnew]
  obtain ⟨last, hlast, hsteps, hout, hin, hseed'⟩ := run_fresh (hs.settings_eq ▸ hseed) hrun
  exact ⟨last, hlast, hsteps, hout, hin, (continues_of_run hrun).settings_eq.trans hs.settings_eq, hseed'⟩

/-- A session that has failed at a `]`, been given a seed, read and written: `,.` then runs as if nothing
had been there before. -/
theorem run_eq_fresh_run_history :
    let first : Session :=
      { settings := { cellBits := 8, overflow := .trap },
        input := { chunks := [Text.ofString "xy", [], Text.ofString "z"] } }
    let before : List Operation :=
      [.run #[.op .input, .op .loopClose], .seed [(0, 5)], .read, .write "out"]
    let new : Session :=
      { settings := first.settings, seed := [(0, 5)], input := Source.ofText (Text.ofString "z") }
    let code : Code := #[.op .input, .op .output]
    ∃ answers s, first.performAll 3 before = some (answers, s) ∧ s.lastSteps = 1 ∧
      ∃ r s' last, s.run code 3 = some (r, s') ∧ r.stop = none ∧ new.run code 3 = some (r, last) ∧
        s'.lastSteps = last.lastSteps ∧ s'.output = "out" ++ last.output ∧
        s'.input.remaining = last.input.remaining := by
  intro first before new code
  let tape : Tape := ⟨first.settings.format, Std.ExtTreeMap.empty.insert 0 5⟩
  let s : Session :=
    { settings := first.settings, seed := [(0, 5)], input := { chunks := [[], [], Text.ofString "z"] },
      output := "out", lastSteps := 1 }
  obtain ⟨answers, hs⟩ : ∃ answers, first.performAll 3 before = some (answers, s) := ⟨_, rfl⟩
  obtain ⟨r, s', hrun, hstop⟩ : ∃ r s', s.run code 3 = some (r, s') ∧ r.stop = none :=
    ⟨_, _, rfl, rfl⟩
  obtain ⟨last, hlast, hsteps, hout, hin, -⟩ :=
    (run_eq_fresh_run first s before answers 3 hs tape rfl code 3).2 r s' hrun
  exact ⟨answers, s, hs, rfl, r, s', last, hrun, hstop, hlast, hsteps, hout, hin⟩

end Session

end TapeMachine
