import TapeMachine.Machine.State

/-!
One step of the machine. A step either completes an instruction or fails, and a step that fails leaves
the state as it was, but for a character that `,` may have read.
-/
namespace TapeMachine

/-- A step that failed: why, and the state it left. -/
structure Failure where
  stop : Stop
  state : State

namespace Machine

/-- Looks through the next `left` words for the `]` that closes the innermost of `depth` open loops. -/
def scanClose (code : Code) : (left position depth : Nat) → Option Nat
  | 0, _, _ => none
  | left + 1, position, depth =>
    match code[position]? with
    | some (.op .loopOpen) => scanClose code left (position + 1) (depth + 1)
    | some (.op .loopClose) =>
      if depth ≤ 1 then some position else scanClose code left (position + 1) (depth - 1)
    | _ => scanClose code left (position + 1) depth

/-- The position of the `]` that closes the `[` at `openAt`. -/
def matchingClose (code : Code) (openAt : Nat) : Option Nat :=
  scanClose code (code.size - (openAt + 1)) (openAt + 1) 1

/-- The character with this number. Surrogates are no characters. -/
def scalar? (v : Int) : Option Char :=
  if v < 0 ∨ 0x10FFFF < v ∨ (0xD800 ≤ v ∧ v < 0xE000) then none else some (Char.ofNat v.toNat)

/-- Replaces the tape by the result of a write, or fails at the current position. -/
def stored (s : State) : Except Overflow Tape → Except Failure State
  | .ok tape => .ok { s with tape }
  | .error o => .error ⟨.fault (o.fault (some s.ip)), s⟩

/-- Executes one instruction. The position changes only by a jump. -/
def execute (strict : Bool) (code : Code) (s : State) : Instruction → Except Failure State
  | .increment => stored s (s.tape.add s.idx 1)
  | .decrement => stored s (s.tape.add s.idx (-1))
  | .moveRight => .ok { s with idx := s.idx + 1 }
  | .moveLeft => .ok { s with idx := s.idx - 1 }
  | .output =>
    match scalar? s.cell with
    | some c => .ok { s with output := s.output.push c }
    | none => .error ⟨.fault (s.fault (.invalidOutput s.cell)), s⟩
  | .input =>
    let (next, input) := s.input.read
    let s := { s with input }
    match next with
    | .ok (some c) => stored s (s.tape.put s.idx c.val)
    | .ok none => .error ⟨.fault (s.fault .inputExhausted), s⟩
    | .error e => .error ⟨.undecodable e, s⟩
  | .loopOpen =>
    if strict && s.cell == 0 then
      match matchingClose code s.ip with
      | some close => .ok { s with ip := close }
      | none => .error ⟨.fault (s.fault .unmatchedOpen), s⟩
    else .ok { s with stack := s.ip :: s.stack }
  | .loopClose =>
    match s.stack with
    | [] => .error ⟨.fault (s.fault .unmatchedClose), s⟩
    | top :: below =>
      if s.cell ≠ 0 then .ok { s with ip := top } else .ok { s with stack := below }

/-- Executes one word and goes on to the next. -/
def step (strict : Bool) (code : Code) (s : State) : Word → Except Failure State
  | .op i => (execute strict code s i).map State.advance
  | .foreign t => .error ⟨.unhandled t, s⟩

end Machine

end TapeMachine
