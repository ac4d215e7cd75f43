import TapeMachine.Machine.State

/-!
The log of a run: how it starts, every step if steps are traced, and how it finishes.
-/
namespace TapeMachine

inductive LogEntry where
  | start (length : Nat) (strict : Bool)
  | step (number ip : Nat) (instruction : Instruction) (idx cell : Int)
  | finish (steps cells openLoops : Nat)
  deriving DecidableEq, Repr

namespace LogEntry

def message : LogEntry → String
  | start length strict =>
    let flag := if strict then "True" else "False"
    s!"run start: {length} instructions, strict_loops={flag}"
  | step number ip instruction idx cell =>
    s!"step {number} ip={ip} " ++ String.singleton instruction.symbol ++ s!" idx={idx} cell={cell}"
  | finish steps cells openLoops =>
    s!"run finished: {steps} steps, {cells} cells, {openLoops} open loops"

/-- The entry for an instruction that is about to be executed. -/
def ofState (s : State) (i : Instruction) : LogEntry := step s.steps s.ip i s.idx s.cell

/-- The entry for a run that has reached the end of its code. -/
def ofEnd (s : State) : LogEntry := finish s.steps s.tape.size s.stack.length

end LogEntry

end TapeMachine
