import TapeMachine.Text.CodePoint

/-!
The eight instructions, their symbols and their names.
-/
namespace TapeMachine

inductive Instruction where
  | increment | decrement | moveRight | moveLeft | loopOpen | loopClose | output | input
  deriving DecidableEq, Repr

namespace Instruction

/-- All instructions, in the order in which they are documented. -/
def all : List Instruction :=
  [increment, decrement, moveRight, moveLeft, loopOpen, loopClose, output, input]

def symbol : Instruction → Char
  | increment => '+'
  | decrement => '-'
  | moveRight => '>'
  | moveLeft => '<'
  | loopOpen => '['
  | loopClose => ']'
  | output => '.'
  | input => ','

def name : Instruction → String
  | increment => "INCREMENT"
  | decrement => "DECREMENT"
  | moveRight => "MOVE_RIGHT"
  | moveLeft => "MOVE_LEFT"
  | loopOpen => "LOOP_OPEN"
  | loopClose => "LOOP_CLOSE"
  | output => "OUTPUT"
  | input => "INPUT"

/-- The instruction whose symbol is this code point; any other code point is comment. -/
def ofCodePoint? (c : CodePoint) : Option Instruction := all.find? fun i => c.is i.symbol

/-- The instruction whose symbol is the whole text. -/
def ofText? : Text → Option Instruction
  | [c] => ofCodePoint? c
  | _ => none

@[simp] theorem ofCodePoint?_symbol (i : Instruction) :
    ofCodePoint? (CodePoint.ofChar i.symbol) = some i := by
  cases i <;> decide

end Instruction

end TapeMachine
