/-!
Why a run stops. A fault has a cause, and where it is known the position of the instruction and the
index of the cell that were current; `Fault.message` is its text.
-/
namespace TapeMachine

inductive Cause where
  | unmatchedClose
  /-- A `[` that had to be skipped and is never closed. -/
  | unmatchedOpen
  | inputExhausted
  /-- A `.` on a cell whose value is no character. -/
  | invalidOutput (value : Int)
  | cellOverflow (index value bits : Int)
  | note (text : String)
  deriving DecidableEq, Repr

def Cause.message : Cause → String
  | .unmatchedClose => "unmatched ']' (jump stack is empty)"
  | .unmatchedOpen => "unmatched '[' (no closing ']' to skip to)"
  | .inputExhausted => "input exhausted"
  | .invalidOutput v => s!"cell value {v} is not a valid code point"
  | .cellOverflow index v bits =>
    s!"value {v} at cell {index} does not fit in a signed {bits}-bit cell"
  | .note text => text

structure Fault where
  cause : Cause
  ip : Option Int := none
  idx : Option Int := none
  deriving DecidableEq, Repr

namespace Fault

def message (f : Fault) : String :=
  match f.ip with
  | some ip => s!"ip {ip}: " ++ f.cause.message
  | none => f.cause.message

/-- An overflow names the cell by its index. -/
def overflow (index value bits : Int) (ip : Option Int) : Fault :=
  ⟨.cellOverflow index value bits, ip, some index⟩

end Fault

end TapeMachine
