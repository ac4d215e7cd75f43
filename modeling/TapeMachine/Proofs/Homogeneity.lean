import TapeMachine.Proofs.Brackets.Search
import TapeMachine.Proofs.Composition
import TapeMachine.Session

/-!
The tape looks the same from every cell and in both directions. A placement puts the cells elsewhere: it
shifts them, or turns them round and shifts them. It takes each step of a run to a step of the run whose
moves are turned round with it, so runs depend on neither origin nor direction (`tape_is_homogeneous`).
-/
namespace TapeMachine

/-- Another place for each cell. -/
structure Placement where
  /-- Whether left and right change places. -/
  turned : Bool := false
  /-- Where the cell with index zero goes. -/
  origin : Int := 0

namespace Placement

variable {l : Placement} {i j : Int}

def index (l : Placement) (i : Int) : Int := if l.turned then l.origin - i else l.origin + i

theorem index_inj : l.index i = l.index j ↔ i = j := by
  unfold index
  split <;> omega

theorem exists_index (l : Placement) (j : Int) : ∃ i, l.index i = j := by
  unfold index
  cases l.turned with
  | false => exact ⟨j - l.origin, by grind⟩
  | true => exact ⟨l.origin - j, by grind⟩

end Placement

/-- A move in the other direction; all else as it is. -/
def Instruction.mirrored : Instruction → Instruction
  | .moveRight => .moveLeft
  | .moveLeft => .moveRight
  | i => i

def Program.mirrored (p : Program) : Program := ⟨p.instructions.map Instruction.mirrored⟩

/-- What an instruction becomes when the cells are placed elsewhere. -/
def Placement.instruction (l : Placement) (i : Instruction) : Instruction :=
  if l.turned then i.mirrored else i

theorem Placement.instruction_of_ne {l : Placement} {i : Instruction} (hright : i ≠ .moveRight)
    (hleft : i ≠ .moveLeft) : l.instruction i = i := by
  cases i with
  | moveRight => exact absurd rfl hright
  | moveLeft => exact absurd rfl hleft
  | _ => exact ite_self _

def Cause.placed (l : Placement) : Cause → Cause
  | .cellOverflow index value bits => .cellOverflow (l.index index) value bits
  | cause => cause

/-- The same fault, with each index where its cell is now. -/
def Fault.placed (l : Placement) (f : Fault) : Fault :=
  { f with cause := f.cause.placed l, idx := f.idx.map l.index }

def Overflow.placed (l : Placement) (o : Overflow) : Overflow := { o with index := l.index o.index }

def WriteError.placed (l : Placement) : WriteError → WriteError
  | .overflow o => .overflow (o.placed l)
  | .unprintable => .unprintable

theorem WriteError.stop_placed (l : Placement) (e : WriteError) :
    (e.placed l).stop = e.stop.mapFault (·.placed l) := by
  cases e <;> rfl

/-- An overflow of the mirrored cell is told if the one of the cell itself is. -/
theorem Overflow.raised_mirrored (o : Overflow) :
    (o.placed { turned := true }).raised = o.raised.placed { turned := true } := by
  have hindex : (o.placed { turned := true }).index = -o.index := Int.zero_sub o.index
  have hvalue : (o.placed { turned := true }).value = o.value := rfl
  simp only [raised, hindex, hvalue, Integer.printable_neg]
  split <;> rfl

namespace Tape

variable {t : Tape} {l : Placement} {i v : Int}

/-- A tape with the same cells elsewhere. -/
def placed (l : Placement) (t : Tape) : Tape :=
  { t with stored := .ofList (t.cells.map fun c => (l.index c.1, c.2)) }

theorem stored_placed (l : Placement) (t : Tape) (i : Int) :
    (t.placed l).stored[l.index i]? = t.stored[i]? := by
  cases h : t.stored[i]? with
  | some v =>
    refine Std.ExtTreeMap.getElem?_ofList_of_mem Std.ReflCmp.compare_self ?_
      (List.mem_map.2 ⟨(i, v), mem_cells_iff.2 h, rfl⟩)
    refine List.pairwise_map.2 (t.pairwise_cells.imp fun {a b} hlt heq => ?_)
    have := Placement.index_inj.1 (Std.LawfulEqCmp.eq_of_compare heq)
    omega
  | none =>
    refine Std.ExtTreeMap.getElem?_ofList_of_contains_eq_false ?_
    rw [Bool.eq_false_iff, ne_eq, List.contains_iff_mem]
    intro hmem
    obtain ⟨c, hc, hci⟩ := List.mem_map.1 hmem
    obtain ⟨b, hb, rfl⟩ := List.mem_map.1 hc
    have hbi : b.1 = i := Placement.index_inj.1 hci
    have hstored : t.stored[b.1]? = some b.2 := mem_cells_iff.1 hb
    rw [hbi, h] at hstored
    cases hstored

@[simp] theorem get_placed (l : Placement) (t : Tape) (i : Int) :
    (t.placed l).get (l.index i) = t.get i := by
  rw [get, get, stored_placed]

/-- A tape is placed as soon as each of its cells is. -/
theorem eq_placed {t' : Tape} (hformat : t'.format = t.format)
    (h : ∀ i, t'.stored[l.index i]? = t.stored[i]?) : t' = t.placed l := by
  obtain ⟨format, stored⟩ := t'
  obtain rfl : format = t.format := hformat
  rw [placed, mk.injEq]
  refine ⟨rfl, Std.ExtTreeMap.ext_getElem? fun j => ?_⟩
  obtain ⟨i, rfl⟩ := l.exists_index j
  exact (h i).trans (stored_placed l t i).symm

theorem placed_blank (l : Placement) (f : CellFormat) :
    ({ format := f } : Tape).placed l = { format := f } :=
  (eq_placed rfl fun i => by simp).symm

/-- The result of a write where the cells are now. -/
def placedWrite (l : Placement) : Except Overflow Tape → Except Overflow Tape
  | .ok t => .ok (t.placed l)
  | .error o => .error (o.placed l)

theorem put_placed (l : Placement) (t : Tape) (i v : Int) :
    (t.placed l).put (l.index i) v = placedWrite l (t.put i v) := by
  have hformat : (t.placed l).format = t.format := rfl
  unfold put
  rw [hformat]
  cases t.format.fit? v with
  | none => rfl
  | some w =>
    refine congrArg Except.ok (eq_placed rfl fun j => ?_)
    simp only [Std.ExtTreeMap.getElem?_insert, stored_placed, Std.LawfulEqCmp.compare_eq_iff_eq,
      Placement.index_inj]

theorem add_placed (l : Placement) (t : Tape) (i d : Int) :
    (t.placed l).add (l.index i) d = placedWrite l (t.add i d) := by
  rw [add, add, get_placed, put_placed]

/-- Cells that are mirrored before they are written come to the same as cells mirrored afterwards. -/
theorem fill_mirrored (t : Tape) (cells : List (Int × Int)) :
    (t.placed { turned := true }).fill (cells.map fun c => (-c.1, c.2)) =
      match t.fill cells with
      | .ok t' => .ok (t'.placed { turned := true })
      | .error e => .error (e.1.placed { turned := true }, e.2.placed { turned := true }) := by
  induction cells generalizing t with
  | nil => rfl
  | cons c rest ih =>
    have hindex : ({ turned := true } : Placement).index c.1 = -c.1 := Int.zero_sub c.1
    have hput := put_placed { turned := true } t c.1 c.2
    rw [hindex] at hput
    simp only [List.map_cons, fill, set, hput]
    cases t.put c.1 c.2 with
    | error o => simp only [placedWrite, Overflow.raised_mirrored]
    | ok t' => exact ih t'

/-- The cells of a tape are the only ascending list of them. -/
theorem cells_eq {cells : List (Int × Int)} (hcells : cells.Pairwise fun a b => a.1 < b.1)
    (hmem : ∀ c, c ∈ t.cells ↔ c ∈ cells) : t.cells = cells := by
  have hne : ∀ {a b : Int × Int}, a.1 < b.1 → a ≠ b := by
    rintro a _ hlt rfl
    omega
  refine List.Perm.eq_of_pairwise ?_ t.pairwise_cells hcells
    ((List.perm_ext_iff_of_nodup (t.pairwise_cells.imp hne) (hcells.imp hne)).2 hmem)
  intro a b _ _ hab hba
  omega

theorem mem_cells_placed (l : Placement) (t : Tape) (c : Int × Int) :
    c ∈ (t.placed l).cells ↔ c ∈ t.cells.map fun c => (l.index c.1, c.2) := by
  obtain ⟨j, v⟩ := c
  obtain ⟨i, rfl⟩ := l.exists_index j
  rw [mem_cells_iff, stored_placed, ← mem_cells_iff]
  simp [Placement.index_inj]

theorem cells_mirrored (t : Tape) :
    (t.placed { turned := true }).cells = (t.cells.map fun c => (-c.1, c.2)).reverse := by
  apply cells_eq
  · rw [List.pairwise_reverse, List.pairwise_map]
    exact t.pairwise_cells.imp fun h => Int.neg_lt_neg h
  · intro c
    rw [mem_cells_placed, List.mem_reverse]
    simp [Placement.index]

theorem cells_shifted (t : Tape) (origin : Int) :
    (t.placed { origin }).cells = t.cells.map fun c => (c.1 + origin, c.2) := by
  apply cells_eq
  · rw [List.pairwise_map]
    exact t.pairwise_cells.imp fun h => Int.add_lt_add_right h origin
  · intro c
    rw [mem_cells_placed]
    simp [Placement.index, Int.add_comm]

end Tape

/-- The same state with the cells elsewhere. -/
def State.placed (l : Placement) (s : State) : State :=
  { s with tape := s.tape.placed l, idx := l.index s.idx }

@[simp] theorem State.cell_placed (l : Placement) (s : State) : (s.placed l).cell = s.cell :=
  s.tape.get_placed l s.idx

namespace Machine

variable {settings : Settings} {strict : Bool} {code : Code} {s t : State} {l : Placement} {n fuel : Nat}

/-- Brackets are where they were. -/
theorem sameBrackets_placed (l : Placement) (code : Code) :
    code.SameBrackets (code.map (mapWord l.instruction)) := by
  refine ⟨Array.size_map, ?_⟩
  intro k w hw
  have hkept : ∀ v, mapWord l.instruction v = w ↔ v = w := by
    intro v
    cases v with
    | foreign t => rfl
    | op i =>
      rcases hw with rfl | rfl <;> cases hl : l.turned <;> cases i <;>
        simp [mapWord, Placement.instruction, Instruction.mirrored, hl]
  rw [Array.getElem?_map]
  cases code[k]? with
  | none => rfl
  | some v => simp only [Option.map_some, Option.some.injEq, hkept]

theorem matchingClose_placed (l : Placement) (code : Code) (j : Nat) :
    matchingClose (code.map (mapWord l.instruction)) j = matchingClose code j :=
  matchingClose_congr (sameBrackets_placed l code) j

theorem stored_placed (l : Placement) (s : State) (r : Except Overflow Tape) :
    stored (s.placed l) (Tape.placedWrite l r) =
      carried (·.placed l) (Stop.mapFault (·.placed l)) (stored s r) := by
  cases r <;> rfl

/-- A move goes on to the place of the next cell, whichever side that is. -/
theorem execute_move_placed (l : Placement) (strict : Bool) (code code' : Code) (s : State)
    {i : Instruction} (hi : i = .moveRight ∨ i = .moveLeft) :
    execute strict code' (s.placed l) (l.instruction i) =
      carried (·.placed l) (Stop.mapFault (·.placed l)) (execute strict code s i) := by
  obtain ⟨turned, origin⟩ := l
  rcases hi with rfl | rfl <;> cases turned <;>
    simp [execute, carried, Placement.instruction, Instruction.mirrored, State.placed,
      Placement.index] <;>
    omega

/-- Where the cells are elsewhere, an instruction does there what it did here. -/
theorem execute_placed (l : Placement) (strict : Bool) (code : Code) (s : State) (i : Instruction) :
    execute strict (code.map (mapWord l.instruction)) (s.placed l) (l.instruction i) =
      carried (·.placed l) (Stop.mapFault (·.placed l)) (execute strict code s i) := by
  have htape : (s.placed l).tape = s.tape.placed l := rfl
  have hidx : (s.placed l).idx = l.index s.idx := rfl
  by_cases hmove : i = .moveRight ∨ i = .moveLeft
  · exact execute_move_placed l strict code _ s hmove
  rw [not_or] at hmove
  rw [Placement.instruction_of_ne hmove.1 hmove.2]
  cases i with
  | moveRight => exact absurd rfl hmove.1
  | moveLeft => exact absurd rfl hmove.2
  | increment | decrement =>
    simp only [execute, htape, hidx, Tape.add_placed]
    exact stored_placed l s _
  | output =>
    simp only [execute, State.cell_placed]
    cases scalar? s.cell <;> rfl
  | input =>
    have hin : (s.placed l).input = s.input := rfl
    simp only [execute, hin, htape, hidx, Tape.put_placed]
    cases s.input.read.1 with
    | error e => rfl
    | ok c =>
      cases c with
      | none => rfl
      | some c => exact stored_placed l { s with input := s.input.read.2 } _
  | loopOpen =>
    have hip : (s.placed l).ip = s.ip := rfl
    simp only [execute, State.cell_placed, hip, matchingClose_placed]
    split
    · cases matchingClose code s.ip <;> rfl
    · rfl
  | loopClose =>
    have hstack : (s.placed l).stack = s.stack := rfl
    simp only [execute, State.cell_placed, hstack]
    cases s.stack with
    | nil => rfl
    | cons top below =>
      dsimp only
      split <;> rfl

/-- Code with its moves turned round as the cells are runs as before. -/
theorem carries_placed (settings : Settings) (code : Code) (l : Placement) :
    Carries settings settings code (code.map (mapWord l.instruction)) (·.placed l)
      (Stop.mapFault (·.placed l)) := by
  refine carries_of_execute l.instruction rfl (fun w => ⟨rfl, rfl⟩) ?_ ?_ ?_
  · intro s
    exact Array.getElem?_map
  · intro s
    rfl
  · exact fun s i => execute_placed l settings.strictLoops code s i

theorem code_mirrored (p : Program) :
    p.mirrored.code = p.code.map (mapWord ({ turned := true } : Placement).instruction) := by
  simp [Program.code, Program.mirrored, Function.comp_def, mapWord, Placement.instruction]

/-- Moves in one direction end as far from the first cell as there are moves, and do nothing else. -/
theorem after_moves {i : Instruction} {d : Int}
    (hi : (i = .moveRight ∧ d = 1) ∨ (i = .moveLeft ∧ d = -1)) (settings : Settings) (code : Code)
    (tape : Tape) (input : Source) {k n : Nat} (hn : n ≤ k) :
    after settings (Program.code ⟨Array.replicate k i⟩ ++ code) n { tape, input } =
      some { tape, input, ip := n, idx := n * d, steps := n } := by
  induction n with
  | zero => simp
  | succ n ih =>
    have hfetch : (Program.code ⟨Array.replicate k i⟩ ++ code)[n]? = some (.op i) := by
      have hlt : n < k := hn
      rw [Array.getElem?_append_left (by simpa [Program.size] using hlt), Program.getElem?_code]
      simp [hlt]
    have hexecute : ∀ s, execute settings.strictLoops (Program.code ⟨Array.replicate k i⟩ ++ code) s i =
        .ok { s with idx := s.idx + d } := by
      intro s
      rcases hi with ⟨rfl, rfl⟩ | ⟨rfl, rfl⟩ <;> rfl
    refine after_join (ih (by omega)) (after_one (next?_eq_some_iff.2 ⟨i, _, hfetch, hexecute _, ?_⟩))
    simp [State.advance, Int.add_mul]

/-- Code that is reached by moves in one direction runs as it does at the beginning, but for where its
positions and its cells are counted from. -/
theorem carries_moves (settings : Settings) (p : Program) (i : Instruction) (k : Nat) (d : Int) :
    Carries settings settings p.code (Program.code ⟨Array.replicate k i⟩ ++ p.code)
      (fun s => (s.placed { origin := d }).displaced k k)
      (Stop.mapFault fun f => (f.placed { origin := d }).displaced k) := by
  have hsize : (Program.code ⟨Array.replicate k i⟩).size = k := by simp [Program.size]
  have hcode : p.code.map (mapWord ({ origin := d } : Placement).instruction) = p.code := by
    simp [Program.code, Function.comp_def, mapWord, Placement.instruction]
  have hplaced := carries_placed settings p.code { origin := d }
  have hdisplaced := carries_displaced settings (Program.code ⟨Array.replicate k i⟩) p.code k
  rw [hcode] at hplaced
  rw [hsize] at hdisplaced
  have hstop : Stop.mapFault (·.displaced k) ∘ Stop.mapFault (·.placed { origin := d }) =
      Stop.mapFault fun f => (f.placed { origin := d }).displaced k := by
    funext stop
    cases stop <;> rfl
  rw [← hstop]
  exact hplaced.trans hdisplaced

/-- On a blank tape, moves in one direction lead to the first state of what follows them, placed there. -/
theorem after_moves_blank {i : Instruction} {d : Int} {k : Nat}
    (hi : (i = .moveRight ∧ d = k) ∨ (i = .moveLeft ∧ d = -k)) (settings : Settings) (code : Code)
    (f : CellFormat) (input : Source) :
    let first : State := { tape := { format := f }, input }
    after settings (Program.code ⟨Array.replicate k i⟩ ++ code) k first =
      some ((first.placed { origin := d }).displaced k k) := by
  intro first
  have hfirst : (first.placed { origin := d }).displaced k k =
      { tape := { format := f }, input, ip := k, idx := d, steps := k } := by
    simp [first, State.placed, State.displaced, Tape.placed_blank, Placement.index]
  rw [hfirst]
  rcases hi with ⟨rfl, rfl⟩ | ⟨rfl, rfl⟩
  · simpa using after_moves (.inl ⟨rfl, rfl⟩) settings code { format := f } input (Nat.le_refl k)
  · simpa using after_moves (.inr ⟨rfl, rfl⟩) settings code { format := f } input (Nat.le_refl k)

end Machine

namespace Session

/-- How a run of a session ended, without its log. -/
structure Conclusion where
  stop : Option Stop
  cells : List (Int × Int)
  output : String
  input : Source
  steps : Nat
  deriving DecidableEq

def conclusion (e : SessionRun × Session) : Conclusion :=
  ⟨e.1.stop, e.1.tape.cells, e.2.output, e.2.input, e.2.lastSteps⟩

/-- A run on a tape that could be seeded concludes as the run of the machine does. -/
theorem run_map_conclusion {s : Session} {tape : Tape}
    (h : ({ format := s.settings.format } : Tape).fill s.seed = .ok tape) (code : Code) (fuel : Nat) :
    (s.run code fuel).map conclusion =
      ((Machine.start s.settings code tape s.input fuel).map Outcome.conclusion).map fun e =>
        ⟨e.1, e.2.tape.cells, s.output ++ e.2.output, e.2.input, e.2.steps⟩ := by
  simp only [run, h]
  cases Machine.start s.settings code tape s.input fuel <;> rfl

/-- The tape is the same everywhere and in both directions. A program with all moves turned round, on the
mirrored seed, does the same step by step, with every index negated. A program behind `k` moves in one
direction does on a fresh tape what it does alone, with every index shifted by `k` in that direction, and
with every position and the number of steps greater by `k`. -/
theorem tape_is_homogeneous (p : Program) (session : Session) :
    let mirror : Placement := { turned := true }
    let mirrored : Session := { session with seed := session.seed.map fun c => (-c.1, c.2) }
    let fresh : Session := { session with seed := [] }
    let first (tape : Tape) : State := { tape, input := session.input }
    (∀ fuel, (mirrored.run p.mirrored.code fuel).map conclusion =
      ((session.run p.code fuel).map conclusion).map fun c =>
        { c with
          stop := c.stop.map (Stop.mapFault (·.placed mirror))
          cells := (c.cells.map fun c => (-c.1, c.2)).reverse }) ∧
    (∀ tape n, Machine.after session.settings p.mirrored.code n (first (tape.placed mirror)) =
      (Machine.after session.settings p.code n (first tape)).map (·.placed mirror)) ∧
    ∀ (k : Nat) (i : Instruction) (d : Int), (i = .moveRight ∧ d = k) ∨ (i = .moveLeft ∧ d = -k) →
      let moves : Program := ⟨Array.replicate k i⟩
      let blank : Tape := { format := session.settings.format }
      (∀ fuel, (fresh.run (moves ++ p).code (k + fuel)).map conclusion =
        ((fresh.run p.code fuel).map conclusion).map fun c =>
          { c with
            stop := c.stop.map (Stop.mapFault fun f => (f.placed { origin := d }).displaced k)
            cells := c.cells.map fun c => (c.1 + d, c.2)
            steps := c.steps + k }) ∧
      ∀ n, Machine.after session.settings (moves ++ p).code (k + n) (first blank) =
        (Machine.after session.settings p.code n (first blank)).map fun s =>
          (s.placed { origin := d }).displaced k k := by
  intro mirror mirrored fresh first
  have hmirror := Machine.carries_placed session.settings p.code mirror
  rw [← Machine.code_mirrored] at hmirror
  refine ⟨?_, ?_, ?_⟩
  · intro fuel
    have hseed := Tape.fill_mirrored { format := session.settings.format } session.seed
    rw [Tape.placed_blank] at hseed
    cases hfill : ({ format := session.settings.format } : Tape).fill session.seed with
    | error e =>
      rw [hfill] at hseed
      rw [run_of_fill_error _ _ hseed, run_of_fill_error _ _ hfill]
      simp only [Option.map_some, conclusion, mirror, Tape.cells_mirrored, WriteError.stop_placed]
      rfl
    | ok tape =>
      rw [hfill] at hseed
      have hrun : (Machine.start session.settings p.mirrored.code (tape.placed mirror) session.input
            fuel).map Outcome.conclusion = _ :=
        hmirror.run_eq fuel (first tape) #[.start p.code.size session.settings.strictLoops] _
      rw [run_map_conclusion hseed, run_map_conclusion hfill, hrun, Machine.start]
      simp only [Option.map_map, Function.comp_def, State.placed, Outcome.conclusion, mirror,
        Tape.cells_mirrored]
      rfl
  · intro tape n
    exact hmirror.after_eq n (first tape)
  · intro k i d hi moves blank
    have hmoves := Machine.carries_moves session.settings p i k d
    have hreach := Machine.after_moves_blank hi session.settings p.code session.settings.format
      session.input
    rw [Program.code_append]
    refine ⟨?_, ?_⟩
    · intro fuel
      obtain ⟨log, hrun⟩ := Machine.run_of_after hreach fuel
        #[.start (moves.code ++ p.code).size session.settings.strictLoops]
      have hcarried := hmoves.run_eq fuel (first blank)
        #[.start p.code.size session.settings.strictLoops] log
      have hseed : blank.fill fresh.seed = .ok blank := rfl
      rw [run_map_conclusion hseed, run_map_conclusion hseed, Machine.start, hrun, hcarried,
        Machine.start]
      simp only [Option.map_map, Function.comp_def, State.placed, State.displaced, Outcome.conclusion,
        Tape.cells_shifted]
      rfl
    · intro n
      rw [Machine.after_add, hreach, Option.bind_some]
      exact hmoves.after_eq n (first blank)

/-- In cells of 8 bits that refuse, `<-` fails on a seed of -128 at -1, and so its mirror image fails on
one at 1. Since `<]` fails on a fresh tape, it also fails behind three moves to the right. -/
theorem tape_is_homogeneous_fault :
    let session : Session :=
      { settings := { cellBits := 8, overflow := .trap }, input := Source.ofText [] }
    let p : Program := ⟨#[.moveLeft, .decrement]⟩
    let q : Program := ⟨#[.moveLeft, .loopClose]⟩
    p.mirrored = ⟨#[.moveRight, .decrement]⟩ ∧
    (({ session with seed := [(1, -128)] } : Session).run p.mirrored.code 2).map conclusion =
      some ⟨some (.fault ⟨.cellOverflow 1 (-129) 8, some 1, some 1⟩), [(1, -128)], "",
        Source.ofText [], 1⟩ ∧
    (session.run (⟨Array.replicate 3 .moveRight⟩ ++ q).code 5).map conclusion =
      some ⟨some (.fault ⟨.unmatchedClose, some 4, some 2⟩), [], "", Source.ofText [], 4⟩ := by
  intro session p q
  let seeded : Session := { session with seed := [(-1, -128)] }
  have hseeded : (seeded.run p.code 2).map conclusion =
      some ⟨some (.fault ⟨.cellOverflow (-1) (-129) 8, some 1, some (-1)⟩), [(-1, -128)], "",
        Source.ofText [], 1⟩ := by decide +kernel
  have hfresh : (session.run q.code 2).map conclusion =
      some ⟨some (.fault ⟨.unmatchedClose, some 1, some (-1)⟩), [], "", Source.ofText [], 1⟩ := by
    decide +kernel
  obtain ⟨hmirror, -, -⟩ := tape_is_homogeneous p seeded
  obtain ⟨-, -, hmoves⟩ := tape_is_homogeneous q session
  refine ⟨by decide +kernel, (hmirror 2).trans ?_,
    ((hmoves 3 .moveRight 3 (.inl ⟨rfl, rfl⟩)).1 2).trans ?_⟩
  · rw [hseeded]
    rfl
  · exact congrArg (Option.map _) hfresh

end Session

end TapeMachine
