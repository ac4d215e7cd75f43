import TapeMachine.Program
import TapeMachine.Source
import TapeMachine.Tape
import TapeMachine.Settings.Basic

/-!
The state of a run, and what the machine executes: a sequence of words, each an instruction or a
text that is none.
-/
namespace TapeMachine

inductive Word where
  | op (i : Instruction)
  /-- A text that is no instruction, even if it looks like one. -/
  | foreign (t : Text)
  deriving DecidableEq

abbrev Code := Array Word

def Program.code (p : Program) : Code := p.instructions.map .op

@[simp] theorem Program.size_code (p : Program) : p.code.size = p.size := by
  simp [Program.code, Program.size]

theorem Program.getElem?_code (p : Program) (k : Nat) :
    p.code[k]? = p.instructions[k]?.map Word.op := by
  simp [Program.code]

theorem Program.getElem?_code_ne_foreign (p : Program) (k : Nat) (t : Text) :
    p.code[k]? ≠ some (.foreign t) := by
  simp [Program.getElem?_code]

structure State where
  tape : Tape
  ip : Nat := 0
  idx : Int := 0
  /-- Positions of the loops that are open, innermost first. -/
  stack : List Nat := []
  input : Source
  output : String := ""
  steps : Nat := 0

namespace State

def cell (s : State) : Int := s.tape.get s.idx

/-- A fault at the current position. -/
def fault (s : State) (cause : Cause) : Fault := ⟨cause, some s.ip, some s.idx⟩

def advance (s : State) : State := { s with ip := s.ip + 1, steps := s.steps + 1 }

end State

/-- Why a run ends before the end of its code. -/
inductive Stop where
  | fault (f : Fault)
  /-- A word that is no instruction was executed. -/
  | unhandled (word : Text)
  /-- A word that is no instruction was to be logged. -/
  | unnamed (word : Text)
  | undecodable (e : Utf8.DecodeError)
  | unprintable
  deriving DecidableEq

/-- The end of a run whose tape is refused before its first instruction. -/
def WriteError.stop : WriteError → Stop
  | .overflow o => .fault (o.fault none)
  | .unprintable => .unprintable

theorem Overflow.stop_raised (o : Overflow) :
    o.raised.stop = if Integer.Printable o.value ∧ Integer.Printable o.index then
      .fault (o.fault none) else .unprintable := by
  unfold raised
  split <;> rfl

end TapeMachine
