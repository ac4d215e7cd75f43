import TapeMachine.Instruction
import TapeMachine.Newline
import TapeMachine.Text.Quoted
import TapeMachine.Utf8

/-!
Programs are sequences of instructions. Reading a program keeps the symbols of a text and drops
everything else; writing it gives the symbols back, so reading what was written changes nothing
(`ofSource_source`).
-/
namespace TapeMachine

structure Program where
  instructions : Array Instruction := #[]
  deriving DecidableEq

/-- A text that is the symbol of no instruction, where one was required. -/
structure UnknownSymbol where
  symbol : Text
  deriving DecidableEq

def UnknownSymbol.message (e : UnknownSymbol) : String :=
  e.symbol.quoted ++ " is not a valid Instruction"

namespace Program

/-- Reads a program piece by piece. A piece counts only if it is exactly one symbol. -/
def ofPieces (pieces : List Text) : Program := ⟨(pieces.filterMap Instruction.ofText?).toArray⟩

def ofSource (source : Text) : Program :=
  ⟨(source.filterMap Instruction.ofCodePoint?).toArray⟩

/-- Reads a program from the bytes of a file. Bytes that are not UTF-8 can only be comment. -/
def ofBytes (bytes : List UInt8) : Program :=
  ofSource ((unifyNewlines (Utf8.repair bytes)).map CodePoint.ofChar)

/-- Builds a program from symbols, each of which has to be one. -/
def ofSymbols (symbols : List Text) : Except UnknownSymbol Program := do
  let instructions ← symbols.mapM fun t =>
    match Instruction.ofText? t with
    | some i => .ok i
    | none => .error ⟨t⟩
  return ⟨instructions.toArray⟩

def size (p : Program) : Nat := p.instructions.size

def source (p : Program) : String := String.ofList (p.instructions.toList.map Instruction.symbol)

/-- The instruction at a position; negative positions count from the end. -/
def at? (p : Program) (i : Int) : Option Instruction :=
  let k := if i < 0 then i + p.size else i
  if k < 0 then none else p.instructions[k.toNat]?

def append (p q : Program) : Program := ⟨p.instructions ++ q.instructions⟩

instance : Append Program := ⟨append⟩

theorem ofSource_source (p : Program) : ofSource (Text.ofString p.source) = p := by
  cases p with
  | mk is =>
    simp [ofSource, source, Text.ofString, List.filterMap_map, Function.comp_def]

end Program

end TapeMachine
