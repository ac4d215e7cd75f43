import TapeMachine.Proofs.Trajectory

/-!
Runs that correspond. A map of states carries the runs of some code to runs of other code if it does so
with every step (`carries_of_execute`); then it does so with whole runs, however long they are and however
they end (`Carries.run_eq`).
-/
namespace TapeMachine

/-- The same reason to stop, with a fault changed. -/
def Stop.mapFault (g : Fault → Fault) : Stop → Stop
  | .fault f => .fault (g f)
  | stop => stop

/-- How a run ended, without its log. -/
def Outcome.conclusion (o : Outcome) : Option Stop × State := (o.stop, o.state)

namespace Machine

section Carries

variable {settings settings' : Settings} {code code' : Code} {f : State → State} {g : Stop → Stop}
  {s t : State} {n fuel : Nat}

/-- Whether a map of states, together with one of the reasons to stop, takes each step of the runs of some
code to a step of the runs of other code. -/
structure Carries (settings settings' : Settings) (code code' : Code) (f : State → State)
    (g : Stop → Stop) : Prop where
  next?_eq : ∀ s, next? settings' code' (f s) = (next? settings code s).map f
  halt?_eq : ∀ s, halt? settings' code' (f s) =
    (halt? settings code s).map fun e => (e.1.map g, f e.2)

/-- The result of an instruction after both maps. -/
def carried (f : State → State) (g : Stop → Stop) : Except Failure State → Except Failure State
  | .ok u => .ok (f u)
  | .error e => .error ⟨g e.stop, f e.state⟩

/-- A word with its instruction replaced. -/
def mapWord (h : Instruction → Instruction) : Word → Word
  | .op i => .op (h i)
  | .foreign t => .foreign t

theorem mapWord_id : mapWord id = id := by
  funext w
  cases w <;> rfl

/-- To carry runs over, it is enough to do so with single instructions. -/
theorem carries_of_execute (h : Instruction → Instruction) (htrace : settings'.trace = settings.trace)
    (word : ∀ w, g (.unhandled w) = .unhandled w ∧ g (.unnamed w) = .unnamed w)
    (fetch : ∀ s, code'[(f s).ip]? = code[s.ip]?.map (mapWord h))
    (advance : ∀ s, f s.advance = (f s).advance)
    (execute_eq : ∀ s i, execute settings'.strictLoops code' (f s) (h i) =
      carried f g (execute settings.strictLoops code s i)) :
    Carries settings settings' code code' f g := by
  have both : ∀ s,
      next? settings' code' (f s) = (next? settings code s).map f ∧
      halt? settings' code' (f s) =
        (halt? settings code s).map fun e => (e.1.map g, f e.2) := by
    intro s
    simp only [next?, halt?, Machine.advance, fetch s]
    cases code[s.ip]? with
    | none => simp
    | some w =>
      cases w with
      | foreign w =>
        cases ht : settings.trace <;>
          simp [mapWord, logged, step, htrace, ht, word w]
      | op i =>
        simp only [Option.map_some, mapWord, logged, step, execute_eq]
        cases execute settings.strictLoops code s i with
        | error e => simp [carried, Except.map]
        | ok u => simp [carried, Except.map, advance]
  exact ⟨fun s => (both s).1, fun s => (both s).2⟩

namespace Carries

theorem after_eq (h : Carries settings settings' code code' f g) (n : Nat) (s : State) :
    after settings' code' n (f s) = (after settings code n s).map f := by
  induction n generalizing s with
  | zero => rfl
  | succ n ih =>
    rw [after_succ, after_succ, h.next?_eq]
    cases next? settings code s with
    | none => rfl
    | some s' => exact ih s'

theorem run_eq (h : Carries settings settings' code code' f g) (fuel : Nat) (s : State)
    (log log' : Array LogEntry) :
    (run settings' code' fuel (f s) log').map Outcome.conclusion =
      (run settings code fuel s log).map fun o => (o.stop.map g, f o.state) := by
  induction fuel generalizing s log log' with
  | zero => rfl
  | succ fuel ih =>
    have hn := h.next?_eq s
    have hh := h.halt?_eq s
    unfold run
    obtain ⟨s₁, log₁, hs, hs', ha⟩ | ⟨o, hs, hs', ha⟩ := advance_cases settings code s log
    all_goals
      obtain ⟨t₁, log₂, ht, ht', hb⟩ | ⟨o', ht, ht', hb⟩ := advance_cases settings' code' (f s) log'
      all_goals
        simp only [hs, hs', ht, ht', Option.map_some, Option.map_none, reduceCtorEq,
          Option.some.injEq] at hn hh
    · subst hn
      simp only [ha, hb]
      exact ih s₁ log₁ log₂
    · simp only [ha, hb, Option.map_some, Outcome.conclusion, hh]

theorem trans {settings'' : Settings} {code'' : Code} {f' : State → State} {g' : Stop → Stop}
    (h : Carries settings settings' code code' f g)
    (h' : Carries settings' settings'' code' code'' f' g') :
    Carries settings settings'' code code'' (f' ∘ f) (g' ∘ g) := by
  constructor
  · intro s
    rw [Function.comp_apply, h'.next?_eq, h.next?_eq, Option.map_map]
  · intro s
    rw [Function.comp_apply, h'.halt?_eq, h.halt?_eq, Option.map_map]
    simp only [Function.comp_def, Option.map_map]

end Carries

end Carries

section Runs

variable {settings : Settings} {code : Code} {s t : State} {n fuel : Nat}

/-- A run whose fuel does not last has completed as many words as it was given fuel for. -/
theorem run_eq_none_iff (fuel : Nat) (s : State) (log : Array LogEntry) :
    run settings code fuel s log = none ↔ ∃ t, after settings code fuel s = some t := by
  induction fuel generalizing s log with
  | zero => simp [run]
  | succ fuel ih =>
    unfold run
    obtain ⟨s', log', hn, -, ha⟩ | ⟨o, hn, -, ha⟩ := advance_cases settings code s log
    · simp only [ha, after_succ, hn, Option.bind_some]
      exact ih s' log'
    · simp [ha, hn]

/-- After `n` completed words, a run goes on from there. -/
theorem run_of_after (h : after settings code n s = some t) (fuel : Nat) (log : Array LogEntry) :
    ∃ log', run settings code (n + fuel) s log = run settings code fuel t log' := by
  induction n generalizing s log with
  | zero =>
    cases Option.some.inj h
    exact ⟨log, by rw [Nat.zero_add]⟩
  | succ n ih =>
    obtain ⟨s', hn, hr⟩ := Option.bind_eq_some_iff.1 h
    obtain ⟨s'', log', hn', -, ha⟩ | ⟨o, hn', -, -⟩ := advance_cases settings code s log
    · cases Option.some.inj (hn.symm.trans hn')
      obtain ⟨log'', hrun⟩ := ih hr log'
      refine ⟨log'', ?_⟩
      rw [Nat.succ_add, run, ha]
      exact hrun
    · cases hn.symm.trans hn'

end Runs

end Machine

end TapeMachine
