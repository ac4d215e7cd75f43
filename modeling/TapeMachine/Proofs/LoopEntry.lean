import TapeMachine.Proofs.InputRead

/-!
The two rules for entering a loop. They part only at a `[` on a cell that holds zero: as long as a run
under one rule meets none, the run under the other rule goes through the same states, and ends where it
ends (`entry_rules_part_only_on_zero`).
-/
namespace TapeMachine

/-- The same settings with a given rule for entering loops. -/
def Settings.withStrict (settings : Settings) (strict : Bool) : Settings :=
  { settings with strictLoops := strict }

namespace Machine

variable {settings settings' : Settings} {code : Code} {s t : State} {stop : Option Stop} {n k : Nat}

/-- Whether a `[` on a cell that holds zero is to be executed next. -/
def EntryOnZero (code : Code) (s : State) : Prop :=
  code[s.ip]? = some (.op .loopOpen) ∧ s.cell = 0

instance (code : Code) (s : State) : Decidable (EntryOnZero code s) :=
  inferInstanceAs (Decidable (_ ∧ _))

/-- Whether the first `n` words of a run, completed or not, are no `[` on a cell that holds zero. -/
def AvoidsEntryOnZero (settings : Settings) (code : Code) (n : Nat) (s : State) : Prop :=
  ∀ k < n, ∀ t ∈ after settings code k s, ¬ EntryOnZero code t

instance (settings : Settings) (code : Code) (n : Nat) (s : State) :
    Decidable (AvoidsEntryOnZero settings code n s) :=
  inferInstanceAs (Decidable (∀ k < n, ∀ t ∈ after settings code k s, ¬ EntryOnZero code t))

theorem AvoidsEntryOnZero.head (h : AvoidsEntryOnZero settings code (n + 1) s) :
    ¬ EntryOnZero code s := h 0 (by omega) s rfl

theorem AvoidsEntryOnZero.tail (h : AvoidsEntryOnZero settings code (n + 1) s)
    (hn : next? settings code s = some t) : AvoidsEntryOnZero settings code n t := by
  intro k hk u hu
  apply h (k + 1) (by omega) u
  rw [after_succ, hn]
  exact hu

/-- The rule matters to no instruction but a `[` on a cell that holds zero. -/
theorem execute_eq_of_not_entryOnZero {i : Instruction} (hi : code[s.ip]? = some (.op i))
    (hs : ¬ EntryOnZero code s) (strict strict' : Bool) :
    execute strict code s i = execute strict' code s i := by
  cases i with
  | loopOpen =>
    have hcell : (s.cell == 0) = false := by simpa [EntryOnZero, hi] using hs
    simp [execute, hcell]
  | _ => rfl

theorem advance_eq_of_not_entryOnZero (htrace : settings'.trace = settings.trace)
    (hs : ¬ EntryOnZero code s) (log : Array LogEntry) :
    advance settings' code s log = advance settings code s log := by
  unfold advance
  cases hw : code[s.ip]? with
  | none => rfl
  | some w =>
    cases w with
    | foreign w =>
      rw [htrace]
      rfl
    | op i =>
      have he := execute_eq_of_not_entryOnZero hw hs settings'.strictLoops settings.strictLoops
      simp only [htrace, step, he]

theorem next?_eq_of_not_entryOnZero (htrace : settings'.trace = settings.trace)
    (hs : ¬ EntryOnZero code s) : next? settings' code s = next? settings code s := by
  rw [next?, next?, advance_eq_of_not_entryOnZero htrace hs]

theorem halt?_eq_of_not_entryOnZero (htrace : settings'.trace = settings.trace)
    (hs : ¬ EntryOnZero code s) : halt? settings' code s = halt? settings code s := by
  rw [halt?, halt?, advance_eq_of_not_entryOnZero htrace hs]

/-- What only one of the runs is known to avoid, both avoid: they are the same run so far. -/
theorem after_eq_of_avoidsEntryOnZero (htrace : settings'.trace = settings.trace)
    (h : AvoidsEntryOnZero settings code n s) (hk : k ≤ n) :
    after settings' code k s = after settings code k s := by
  induction k generalizing n s with
  | zero => rfl
  | succ k ih =>
    obtain ⟨m, rfl⟩ : ∃ m, n = m + 1 := ⟨n - 1, by omega⟩
    rw [after_succ, after_succ, next?_eq_of_not_entryOnZero htrace h.head]
    cases hn : next? settings code s with
    | none => rfl
    | some s' => exact ih (h.tail hn) (by omega)

theorem Ends.of_avoidsEntryOnZero (htrace : settings'.trace = settings.trace)
    (h : AvoidsEntryOnZero settings code (n + 1) s) (he : Ends settings code n s stop t) :
    Ends settings' code n s stop t := by
  obtain ⟨u, hu, hh⟩ := he
  refine ⟨u, ?_, ?_⟩
  · rw [after_eq_of_avoidsEntryOnZero htrace h (by omega), hu]
  · rw [halt?_eq_of_not_entryOnZero htrace (h n (by omega) u hu), hh]

/-- Only a `[` on a cell that holds zero can lack its `]`. -/
theorem cause_ne_unmatchedOpen {f : Fault} (hs : ¬ EntryOnZero code s)
    (h : halt? settings code s = some (some (.fault f), t)) : f.cause ≠ .unmatchedOpen := by
  obtain ⟨-, hstop, -⟩ | ⟨w, -, -, hstop | hstop⟩ | ⟨i, e, hi, he, hstop, -⟩ := halt?_cases h
  · cases hstop
  · cases hstop
  · cases hstop
  · cases refusal_of_execute he with
    | unmatchedOpen mode zero missing => exact absurd ⟨hi, zero⟩ hs
    | shift | store | exhausted | output | unmatchedClose =>
      cases hstop
      exact Cause.noConfusion
    | undecodable => cases hstop

/-- The two rules for entering loops differ only at a `[` on a cell that holds zero. If a run under
either rule meets none in its first `n` steps, the run under the other rule goes through the same states
up to there. If it ends without having met one, the other run ends in the same state and for the same
reason, which is never a `[` without its `]`. -/
theorem entry_rules_part_only_on_zero (p : Program) (settings : Settings) (strict : Bool)
    (tape : Tape) (input : Source) :
    let observed := settings.withStrict strict
    let other := settings.withStrict !strict
    (∀ n, AvoidsEntryOnZero observed p.code n { tape, input } →
      ∀ k ≤ n, after other p.code k { tape, input } = after observed p.code k { tape, input }) ∧
    ∀ fuel o, start observed p.code tape input fuel = some o →
      AvoidsEntryOnZero observed p.code (o.state.steps + 1) { tape, input } →
      ∃ o', start other p.code tape input fuel = some o' ∧ o'.stop = o.stop ∧ o'.state = o.state ∧
        ∀ f, o.stop = some (.fault f) → f.cause ≠ .unmatchedOpen := by
  intro observed other
  have htrace : other.trace = observed.trace := rfl
  refine ⟨fun n h k hk => after_eq_of_avoidsEntryOnZero htrace h hk, ?_⟩
  intro fuel o ho h
  obtain ⟨n, hlt, he⟩ := (run_iff_ends fuel _ _).1 ⟨o, ho, rfl, rfl⟩
  have hsteps : o.state.steps = n := (steps_of_ends he).trans (Nat.zero_add n)
  rw [hsteps] at h
  obtain ⟨o', ho', hstop, hstate⟩ :=
    (run_iff_ends fuel _ _).2 ⟨n, hlt, he.of_avoidsEntryOnZero htrace h⟩
  refine ⟨o', ho', hstop, hstate, ?_⟩
  intro f hf
  obtain ⟨u, hu, hh⟩ := he
  exact cause_ne_unmatchedOpen (h n (by omega) u hu) (hf ▸ hh)

/-- The loop of `+[-]` is entered on a cell that holds one, and left on one that holds zero: under both
rules the program ends after four steps. -/
theorem entry_rules_part_only_on_zero_countdown :
    let p : Program := ⟨#[.increment, .loopOpen, .decrement, .loopClose]⟩
    let strict : Settings := ({} : Settings).withStrict true
    let lenient : Settings := ({} : Settings).withStrict false
    let tape : Tape := { format := ({} : Settings).format }
    let input := Source.ofText []
    ∃ o o', start strict p.code tape input 5 = some o ∧ start lenient p.code tape input 5 = some o' ∧
      o.stop = none ∧ o.state.steps = 4 ∧ o.state.tape.cells = [(0, 0)] ∧ o'.state = o.state := by
  intro p strict lenient tape input
  have hview : (start strict p.code tape input 5).map
      (fun o => (o.stop, o.state.steps, o.state.tape.cells)) = some (none, 4, [(0, 0)]) := by
    decide +kernel
  obtain ⟨o, ho, hview⟩ := Option.map_eq_some_iff.1 hview
  obtain ⟨hstop, hsteps, hcells⟩ := by simpa using hview
  have havoids : AvoidsEntryOnZero strict p.code (o.state.steps + 1) { tape, input } := by
    rw [hsteps]
    decide +kernel
  obtain ⟨o', ho', -, hstate, -⟩ :=
    (entry_rules_part_only_on_zero p {} true tape input).2 5 o ho havoids
  exact ⟨o, o', ho, ho', hstop, hsteps, hcells, hstate⟩

end Machine

end TapeMachine
