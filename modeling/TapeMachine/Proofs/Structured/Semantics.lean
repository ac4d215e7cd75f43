import TapeMachine.Proofs.Structured.Tree

/-!
What a tree of loops does, without positions to jump to and without a jump stack. `DoWhile` runs the
body of a loop before it looks at the cell, `While` looks first. Positions occur only because a fault
names the one it arose at. A tree that runs for ever has no exit.
-/
namespace TapeMachine

/-- What a run works on. -/
structure Config where
  tape : Tape
  idx : Int
  input : Source
  output : String

/-- How a tree is left: why it was left early, if it was, and with what. -/
structure Exit where
  stop : Option Stop
  config : Config

namespace Config

/-- The value of the current cell. -/
def cell (c : Config) : Int := c.tape.get c.idx

/-- A fault at a position. -/
def fault (c : Config) (pos : Nat) (cause : Cause) : Stop × Config :=
  (.fault ⟨cause, some pos, some c.idx⟩, c)

/-- Replaces the tape by the result of a write. -/
def written (c : Config) (pos : Nat) : Except Overflow Tape → Except (Stop × Config) Config
  | .ok tape => .ok { c with tape }
  | .error o => .error (.fault (o.fault (some pos)), c)

end Config

/-- Executes a simple instruction that stands at a position. -/
def Simple.exec (pos : Nat) (c : Config) : Simple → Except (Stop × Config) Config
  | .increment => c.written pos (c.tape.add c.idx 1)
  | .decrement => c.written pos (c.tape.add c.idx (-1))
  | .moveRight => .ok { c with idx := c.idx + 1 }
  | .moveLeft => .ok { c with idx := c.idx - 1 }
  | .output =>
    match Machine.scalar? c.cell with
    | some ch => .ok { c with output := c.output.push ch }
    | none => .error (c.fault pos (.invalidOutput c.cell))
  | .input =>
    let c' := { c with input := c.input.read.2 }
    match c.input.read.1 with
    | .ok (some ch) => c'.written pos (c.tape.put c.idx ch.val)
    | .ok none => .error (c'.fault pos .inputExhausted)
    | .error e => .error (.undecodable e, c')

/-- Loops that run their body once and then repeat it while the cell is not zero. -/
inductive DoWhile : Tree → Nat → Config → Exit → Prop where
  | done {pos c} : DoWhile .done pos c ⟨none, c⟩
  | simple {i rest pos c c' e} (exec : i.exec pos c = .ok c') (next : DoWhile rest (pos + 1) c' e) :
      DoWhile (.simple i rest) pos c e
  | simpleFails {i rest pos c stop c'} (exec : i.exec pos c = .error (stop, c')) :
      DoWhile (.simple i rest) pos c ⟨some stop, c'⟩
  | bodyFails {body rest pos c stop c'} (once : DoWhile body (pos + 1) c ⟨some stop, c'⟩) :
      DoWhile (.loop body rest) pos c ⟨some stop, c'⟩
  | again {body rest pos c c' e} (once : DoWhile body (pos + 1) c ⟨none, c'⟩) (nonzero : c'.cell ≠ 0)
      (more : DoWhile (.loop body rest) pos c' e) : DoWhile (.loop body rest) pos c e
  | leave {body rest pos c c' e} (once : DoWhile body (pos + 1) c ⟨none, c'⟩) (zero : c'.cell = 0)
      (next : DoWhile rest (pos + body.size + 2) c' e) : DoWhile (.loop body rest) pos c e

/-- Loops that look at the cell before every time they run their body. -/
inductive While : Tree → Nat → Config → Exit → Prop where
  | done {pos c} : While .done pos c ⟨none, c⟩
  | simple {i rest pos c c' e} (exec : i.exec pos c = .ok c') (next : While rest (pos + 1) c' e) :
      While (.simple i rest) pos c e
  | simpleFails {i rest pos c stop c'} (exec : i.exec pos c = .error (stop, c')) :
      While (.simple i rest) pos c ⟨some stop, c'⟩
  | leave {body rest pos c e} (zero : c.cell = 0) (next : While rest (pos + body.size + 2) c e) :
      While (.loop body rest) pos c e
  | bodyFails {body rest pos c stop c'} (nonzero : c.cell ≠ 0)
      (once : While body (pos + 1) c ⟨some stop, c'⟩) : While (.loop body rest) pos c ⟨some stop, c'⟩
  | again {body rest pos c c' e} (nonzero : c.cell ≠ 0) (once : While body (pos + 1) c ⟨none, c'⟩)
      (more : While (.loop body rest) pos c' e) : While (.loop body rest) pos c e

/-- The state of a machine at a position, with loops open and a number of steps done. -/
def Config.state (c : Config) (ip : Nat) (stack : List Nat) (steps : Nat) : State :=
  { tape := c.tape, ip, idx := c.idx, stack, input := c.input, output := c.output, steps }

def State.config (s : State) : Config := ⟨s.tape, s.idx, s.input, s.output⟩

@[simp] theorem Config.config_state (c : Config) (ip : Nat) (stack : List Nat) (steps : Nat) :
    (c.state ip stack steps).config = c := rfl

@[simp] theorem Config.cell_state (c : Config) (ip : Nat) (stack : List Nat) (steps : Nat) :
    (c.state ip stack steps).cell = c.cell := rfl

@[simp] theorem Config.stack_state (c : Config) (ip : Nat) (stack : List Nat) (steps : Nat) :
    (c.state ip stack steps).stack = stack := rfl

namespace Machine

variable {settings : Settings} {code : Code} {stack : List Nat} {steps ip : Nat}

/-- The machine executes a simple instruction as a tree does, and keeps its place. -/
theorem execute_simple (strict : Bool) (code : Code) (i : Simple) (c : Config) (ip : Nat)
    (stack : List Nat) (steps : Nat) :
    execute strict code (c.state ip stack steps) i.instruction =
      match i.exec ip c with
      | .ok c' => .ok (c'.state ip stack steps)
      | .error (stop, c') => .error ⟨stop, c'.state ip stack steps⟩ := by
  cases i with
  | increment =>
    simp only [Simple.instruction, Simple.exec, execute, Config.state]
    cases c.tape.add c.idx 1 <;> rfl
  | decrement =>
    simp only [Simple.instruction, Simple.exec, execute, Config.state]
    cases c.tape.add c.idx (-1) <;> rfl
  | moveRight | moveLeft => rfl
  | output =>
    simp only [Simple.instruction, Simple.exec, execute, Config.cell_state]
    cases scalar? c.cell <;> rfl
  | input =>
    simp only [Simple.instruction, Simple.exec, execute, Config.state]
    cases c.input.read.1 with
    | error e => rfl
    | ok ch =>
      cases ch with
      | none => rfl
      | some ch =>
        simp only
        cases c.tape.put c.idx ch.val <;> rfl

end Machine

end TapeMachine
