import Std.Data.ExtTreeMap
import TapeMachine.Cell
import TapeMachine.Fault
import TapeMachine.Number.Integer
import TapeMachine.Text.Quoted

/-!
The tape: cells addressed by integers, without end in both directions. A cell is kept once it has
been written, also if it holds zero; every other cell reads as zero.
-/
namespace TapeMachine

structure Tape where
  format : CellFormat
  stored : Std.ExtTreeMap Int Int compare := ∅

inductive TapeError where
  | widthNotPositive
  | unknownMode (name : Text)
  deriving DecidableEq

def TapeError.message : TapeError → String
  | .widthNotPositive => "cell_bits must be positive"
  | .unknownMode name => name.quoted ++ " is not a valid OverflowMode"

/-- A value that a cell cannot hold. -/
structure Overflow where
  index : Int
  value : Int
  bits : Nat
  deriving DecidableEq

def Overflow.fault (o : Overflow) (ip : Option Int) : Fault :=
  Fault.overflow o.index o.value o.bits ip

/-- What a refused write ends with. -/
inductive WriteError where
  | overflow (o : Overflow)
  /-- The overflow would have to name a number that is too long to be written out. -/
  | unprintable
  deriving DecidableEq

def WriteError.message : WriteError → String
  | .overflow o => (o.fault none).message
  | .unprintable =>
    s!"Exceeds the limit ({Integer.maxLength} digits) for integer string conversion; " ++
      "use sys.set_int_max_str_digits() to increase the limit"

/-- An overflow is told with its value and its index. The width goes without saying: it has fewer digits
than a value that does not fit into it. -/
def Overflow.raised (o : Overflow) : WriteError :=
  if Integer.Printable o.value ∧ Integer.Printable o.index then .overflow o else .unprintable

theorem Overflow.raised_eq_overflow_iff {o : Overflow} :
    o.raised = .overflow o ↔ Integer.Printable o.value ∧ Integer.Printable o.index := by
  unfold raised
  split <;> simp [*]

theorem Overflow.raised_eq_unprintable_iff {o : Overflow} :
    o.raised = .unprintable ↔ ¬ (Integer.Printable o.value ∧ Integer.Printable o.index) := by
  unfold raised
  split <;> simp [*]

namespace Tape

/-- The empty tape of a width and a mode given by name. The width is looked at first. -/
def make (bits : Int) (mode : Text) : Except TapeError Tape :=
  if h : 1 ≤ bits then
    match mode.toString?.bind OverflowMode.ofName? with
    | some m => .ok { format := ⟨bits.toNat, m, by omega⟩ }
    | none => .error (.unknownMode mode)
  else .error .widthNotPositive

def get (t : Tape) (i : Int) : Int := t.stored[i]?.getD 0

/-- Stores a value in a cell. -/
def put (t : Tape) (i v : Int) : Except Overflow Tape :=
  match t.format.fit? v with
  | some w => .ok { t with stored := t.stored.insert i w }
  | none => .error ⟨i, v, t.format.bits⟩

def add (t : Tape) (i d : Int) : Except Overflow Tape := t.put i (t.get i + d)

/-- Writes a cell. An overflow is raised. -/
def set (t : Tape) (i v : Int) : Except WriteError Tape :=
  match t.put i v with
  | .ok t' => .ok t'
  | .error o => .error o.raised

def shift (t : Tape) (i d : Int) : Except WriteError Tape := t.set i (t.get i + d)

def getItem (t : Tape) (i : Int) : Int := t.get i

def setItem (t : Tape) (i v : Int) : Except WriteError Tape := t.set i v

/-- Adds to a cell by subscript: the cell is read, and then the sum is written. -/
def addItem (t : Tape) (i d : Int) : Except WriteError Tape := t.setItem i (t.getItem i + d)

/-- Writes cells one after another. On a refusal the tape so far comes with it. -/
def fill (t : Tape) : List (Int × Int) → Except (WriteError × Tape) Tape
  | [] => .ok t
  | (i, v) :: rest =>
    match t.set i v with
    | .ok t' => t'.fill rest
    | .error e => .error (e, t)

def contains (t : Tape) (i : Int) : Bool := t.stored.contains i

def size (t : Tape) : Nat := t.stored.size

/-- The cells that are kept, by ascending index. -/
def cells (t : Tape) : List (Int × Int) := t.stored.toList

def indices (t : Tape) : List Int := t.stored.keys

/-- A description in one line, unless a number in it is too long to be written out. -/
def describe (t : Tape) : Except WriteError String :=
  let items := t.cells.map fun (i, v) => s!"{i}: {v}"
  if t.cells.all fun c => Integer.Printable c.1 && Integer.Printable c.2 then
    .ok ("Tape(cells=\x7b" ++ ", ".intercalate items ++ "\x7d, cell_bits=" ++ toString t.format.bits ++
      ", overflow='" ++ t.format.overflow.name ++ "')")
  else .error .unprintable

inductive Operation where
  | get (i : Int)
  | set (i v : Int)
  | shift (i d : Int)
  | getItem (i : Int)
  | setItem (i v : Int)
  | addItem (i d : Int)
  deriving DecidableEq

/-- The answer to a write. A tape that refuses it stays as it is. -/
def written (t : Tape) : Except WriteError Tape → Except WriteError (Option Int) × Tape
  | .ok t' => (.ok none, t')
  | .error e => (.error e, t)

/-- Does one thing. Reading gives the value back, writing gives nothing back or is refused. -/
def perform (t : Tape) : Operation → Except WriteError (Option Int) × Tape
  | .get i => (.ok (some (t.get i)), t)
  | .set i v => t.written (t.set i v)
  | .shift i d => t.written (t.shift i d)
  | .getItem i => (.ok (some (t.getItem i)), t)
  | .setItem i v => t.written (t.setItem i v)
  | .addItem i d => t.written (t.addItem i d)

/-- Does one thing after another, whether or not one is refused. -/
def performAll (t : Tape) : List Operation → List (Except WriteError (Option Int)) × Tape
  | [] => ([], t)
  | op :: ops =>
    let (answer, after) := t.perform op
    let (answers, last) := after.performAll ops
    (answer :: answers, last)

theorem make_format (f : CellFormat) :
    make f.bits (Text.ofString f.overflow.name) = .ok { format := f } := by
  have hpos : (1 : Int) ≤ f.bits := by
    have := f.bits_pos
    omega
  simp only [make, hpos, ↓reduceDIte, Text.toString?_ofString, Option.bind_some,
    OverflowMode.ofName?_name, Int.toNat_natCast]

theorem mem_cells_iff {t : Tape} {i v : Int} : (i, v) ∈ t.cells ↔ t.stored[i]? = some v :=
  Std.ExtTreeMap.mem_toList_iff_getElem?_eq_some

/-- Cells are listed by ascending index. -/
theorem pairwise_cells (t : Tape) : t.cells.Pairwise fun a b => a.1 < b.1 :=
  Std.ExtTreeMap.ordered_keys_toList.imp fun h => Int.compare_eq_lt.1 h

theorem put_eq_ok_iff {t t' : Tape} {i v : Int} :
    t.put i v = .ok t' ↔
      ∃ w, t.format.fit? v = some w ∧ t' = { t with stored := t.stored.insert i w } := by
  unfold put
  cases t.format.fit? v with
  | none => simp
  | some w => simp [eq_comm]

theorem put_eq_error_iff {t : Tape} {i v : Int} {o : Overflow} :
    t.put i v = .error o ↔ t.format.fit? v = none ∧ o = ⟨i, v, t.format.bits⟩ := by
  unfold put
  cases t.format.fit? v with
  | none => simp [eq_comm]
  | some w => simp

theorem get_put_self {t t' : Tape} {i v : Int} (h : t.put i v = .ok t') :
    t.format.fit? v = some (t'.get i) := by
  obtain ⟨w, hw, rfl⟩ := put_eq_ok_iff.1 h
  simp [get, hw]

theorem get_put_of_ne {t t' : Tape} {i j v : Int} (h : t.put i v = .ok t') (hj : j ≠ i) :
    t'.get j = t.get j := by
  obtain ⟨w, -, rfl⟩ := put_eq_ok_iff.1 h
  simp [get, Std.ExtTreeMap.getElem?_insert, Ne.symm hj]

theorem format_put {t t' : Tape} {i v : Int} (h : t.put i v = .ok t') : t'.format = t.format := by
  obtain ⟨w, -, rfl⟩ := put_eq_ok_iff.1 h
  rfl

theorem set_eq_ok_iff {t t' : Tape} {i v : Int} : t.set i v = .ok t' ↔ t.put i v = .ok t' := by
  unfold set
  cases t.put i v <;> simp

theorem set_eq_error_iff {t : Tape} {i v : Int} {e : WriteError} :
    t.set i v = .error e ↔ ∃ o, t.put i v = .error o ∧ o.raised = e := by
  unfold set
  cases t.put i v <;> simp

theorem format_fill {t t' : Tape} {cells : List (Int × Int)} (h : t.fill cells = .ok t') :
    t'.format = t.format := by
  induction cells generalizing t with
  | nil => exact Except.ok.inj h ▸ rfl
  | cons cell rest ih =>
    unfold fill at h
    split at h
    · next u hu => exact (ih h).trans (format_put (set_eq_ok_iff.1 hu))
    · cases h

/-- Filling ends at the first cell that is refused, with the tape that the cells before it have led to. -/
theorem fill_eq_error {t t' : Tape} {cells : List (Int × Int)} {e : WriteError}
    (h : t.fill cells = .error (e, t')) :
    ∃ earlier i v later, cells = earlier ++ (i, v) :: later ∧ t.fill earlier = .ok t' ∧
      t.format.fit? v = none ∧ e = Overflow.raised ⟨i, v, t.format.bits⟩ := by
  induction cells generalizing t with
  | nil => cases h
  | cons cell rest ih =>
    obtain ⟨i, v⟩ := cell
    unfold fill at h
    split at h
    next u hu =>
      obtain ⟨earlier, j, w, later, hrest, hfill, hfit, he⟩ := ih h
      rw [format_put (set_eq_ok_iff.1 hu)] at hfit he
      refine ⟨(i, v) :: earlier, j, w, later, by rw [hrest, List.cons_append], ?_, hfit, he⟩
      rw [fill, hu]
      exact hfill
    next e' hset =>
      cases h
      obtain ⟨o, hput, rfl⟩ := set_eq_error_iff.1 hset
      obtain ⟨hfit, rfl⟩ := put_eq_error_iff.1 hput
      exact ⟨[], i, v, rest, rfl, rfl, hfit, rfl⟩

end Tape

end TapeMachine
