import TapeMachine.Machine.Step
import TapeMachine.Machine.Log

/-!
Runs. A run repeats steps until it reaches the end of the code or a step fails. Since a run need not
end, it is given fuel, and has no outcome if the fuel does not last; more fuel never changes an
outcome (`run_add`).
-/
namespace TapeMachine

/-- How a run ended: why it stopped early, if it did, its last state, and its log. -/
structure Outcome where
  stop : Option Stop
  state : State
  log : Array LogEntry

namespace Machine

/-- The log after an instruction has begun, or the refusal to log a word that has no symbol. -/
def logged (trace : Bool) (s : State) (log : Array LogEntry) : Word → Except Failure (Array LogEntry)
  | .op i => .ok (if trace then log.push (LogEntry.ofState s i) else log)
  | .foreign t => if trace then .error ⟨.unnamed t, s⟩ else .ok log

/-- Goes on by one word: either to the outcome, or to the next state and the log up to there. -/
def advance (settings : Settings) (code : Code) (s : State) (log : Array LogEntry) :
    Outcome ⊕ (State × Array LogEntry) :=
  match code[s.ip]? with
  | none => .inl ⟨none, s, log.push (LogEntry.ofEnd s)⟩
  | some w =>
    match logged settings.trace s log w with
    | .error f => .inl ⟨some f.stop, f.state, log⟩
    | .ok log =>
      match step settings.strictLoops code s w with
      | .error f => .inl ⟨some f.stop, f.state, log⟩
      | .ok s' => .inr (s', log)

/-- Goes on from a state, for at most `fuel` words. -/
def run (settings : Settings) (code : Code) : Nat → State → Array LogEntry → Option Outcome
  | 0, _, _ => none
  | fuel + 1, s, log =>
    match advance settings code s log with
    | .inl o => some o
    | .inr (s', log) => run settings code fuel s' log

def start (settings : Settings) (code : Code) (tape : Tape) (input : Source) (fuel : Nat) :
    Option Outcome :=
  run settings code fuel { tape, input } #[.start code.size settings.strictLoops]

theorem run_add (settings : Settings) (code : Code) (fuel more : Nat) (s : State)
    (log : Array LogEntry) {o : Outcome} (h : run settings code fuel s log = some o) :
    run settings code (fuel + more) s log = some o := by
  induction fuel generalizing s log with
  | zero => simp [run] at h
  | succ fuel ih =>
    rw [Nat.succ_add]
    unfold run at h ⊢
    revert h
    cases advance settings code s log with
    | inl o' => exact id
    | inr p => exact ih p.1 p.2

end Machine

end TapeMachine
