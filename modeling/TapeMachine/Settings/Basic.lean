import TapeMachine.Cell

/-!
The settings of a machine.
-/
namespace TapeMachine

/-- The settings of a machine. A width from 8 to 64 bits is part of the type. -/
structure Settings where
  /-- Whether a loop is skipped when its cell is zero on entry. Otherwise its body runs at least once. -/
  strictLoops : Bool := false
  cellBits : Nat := 64
  overflow : OverflowMode := .wrap
  trace : Bool := false
  le_cellBits : 8 ≤ cellBits := by decide
  cellBits_le : cellBits ≤ 64 := by decide
  deriving DecidableEq

namespace Settings

instance : Inhabited Settings := ⟨{}⟩

def format (s : Settings) : CellFormat :=
  ⟨s.cellBits, s.overflow, Nat.lt_of_lt_of_le (by decide) s.le_cellBits⟩

end Settings

end TapeMachine
