import TapeMachine.Machine.Run

/-!
Sessions: several runs by one machine over one source and one output. A run starts on a fresh tape, on
which the seed of the session is written first.
-/
namespace TapeMachine

structure Session where
  settings : Settings
  seed : List (Int × Int) := []
  input : Source
  output : String := ""
  /-- The number of instructions of the latest run whose tape could be seeded. -/
  lastSteps : Nat := 0

/-- What a run in a session came to: why it stopped early, if it did, the tape at its end, and its log. -/
structure SessionRun where
  stop : Option Stop
  tape : Tape
  log : Array LogEntry

namespace Session

def read (s : Session) : Except Utf8.DecodeError (Option CodePoint) × Session :=
  let (c, input) := s.input.read
  (c, { s with input })

def write (s : Session) (text : String) : Session := { s with output := s.output ++ text }

/-- Runs code. A run whose seed does not fit never begins. -/
def run (s : Session) (code : Code) (fuel : Nat) : Option (SessionRun × Session) :=
  let blank : Tape := { format := s.settings.format }
  match blank.fill s.seed with
  | .error (e, tape) => some (⟨some e.stop, tape, #[]⟩, s)
  | .ok tape => do
    let o ← Machine.start s.settings code tape s.input fuel
    let after := { s with
      input := o.state.input
      output := s.output ++ o.state.output
      lastSteps := o.state.steps }
    return (⟨o.stop, o.state.tape, o.log⟩, after)

inductive Operation where
  | run (code : Code)
  /-- Chooses the cells that are written before later runs. -/
  | seed (cells : List (Int × Int))
  | read
  | write (text : String)

inductive Answer where
  | ran (r : SessionRun)
  | char (c : Except Utf8.DecodeError (Option CodePoint))
  | done

/-- Does one thing. A run that fails does not end the session. -/
def perform (s : Session) (fuel : Nat) : Operation → Option (Answer × Session)
  | .run code => (s.run code fuel).map fun (r, after) => (.ran r, after)
  | .seed cells => some (.done, { s with seed := cells })
  | .read => some (.char s.read.1, s.read.2)
  | .write text => some (.done, s.write text)

def performAll (s : Session) (fuel : Nat) : List Operation → Option (List Answer × Session)
  | [] => some ([], s)
  | op :: ops => do
    let (answer, after) ← s.perform fuel op
    let (answers, last) ← after.performAll fuel ops
    return (answer :: answers, last)

/-- A run that can be seeded is a run of the machine on the seeded tape. -/
theorem run_eq_some_iff {s s' : Session} {code : Code} {fuel : Nat} {tape : Tape} {r : SessionRun}
    (h : ({ format := s.settings.format } : Tape).fill s.seed = .ok tape) :
    s.run code fuel = some (r, s') ↔
      ∃ o, Machine.start s.settings code tape s.input fuel = some o ∧
        r = ⟨o.stop, o.state.tape, o.log⟩ ∧
        s' = { s with
          input := o.state.input
          output := s.output ++ o.state.output
          lastSteps := o.state.steps } := by
  simp only [run, h]
  cases Machine.start s.settings code tape s.input fuel <;> simp [eq_comm]

theorem run_eq_none_iff {s : Session} {code : Code} {fuel : Nat} {tape : Tape}
    (h : ({ format := s.settings.format } : Tape).fill s.seed = .ok tape) :
    s.run code fuel = none ↔ Machine.start s.settings code tape s.input fuel = none := by
  simp only [run, h]
  cases Machine.start s.settings code tape s.input fuel <;> simp

/-- A run that cannot be seeded changes nothing, and logs nothing. -/
theorem run_of_fill_error {s : Session} {e : WriteError} {tape : Tape} (code : Code) (fuel : Nat)
    (h : ({ format := s.settings.format } : Tape).fill s.seed = .error (e, tape)) :
    s.run code fuel = some (⟨some e.stop, tape, #[]⟩, s) := by
  simp only [run, h]

end Session

/-- What a run that reached its end gives back. -/
structure RunResult where
  output : String
  tape : Tape
  steps : Nat

def Program.run (p : Program) (input : Source) (settings : Settings) (fuel : Nat) :
    Option (Except Stop RunResult) := do
  let (r, s) ← Session.run { settings, input } p.code fuel
  match r.stop with
  | some stop => return .error stop
  | none => return .ok ⟨s.output, r.tape, s.lastSteps⟩

end TapeMachine
