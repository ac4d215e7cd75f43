import Mathlib.Data.Int.ModEq
import TapeMachine.Proofs.Structured.Triples
import TapeMachine.Proofs.WriteHistory

/-!
Programs that count. In cells that wrap, a tape stands for numbers of which only the residues matter, so
a counter that is taken down by one in each round comes to zero from wherever it starts, if need be once
through all values of a cell. Loops that do so therefore end, and add and multiply modulo the number of
values (`counting_loops_compute`).
-/
namespace TapeMachine

open Function (update)

namespace CellFormat

variable {f : CellFormat} {x y v : Int}

/-- The value of a cell that stands for a number is that of a word of its width. -/
theorem Holds.eq_toInt (h : f.Holds x v) : v = (BitVec.ofInt f.bits x).toInt := by
  have hfits : f.Fits (BitVec.ofInt f.bits x).toInt := by
    have hlow := BitVec.le_toInt (BitVec.ofInt f.bits x)
    have hhigh := BitVec.toInt_lt (x := BitVec.ofInt f.bits x)
    have hhalf : (f.half : Int) = 2 ^ (f.bits - 1) := by simp [half, Nat.pow_eq]
    unfold Fits low high
    omega
  have hdvd : f.span ∣ (BitVec.ofInt f.bits x).toInt - x := by
    rw [span_eq, BitVec.toInt_ofInt]
    exact Int.dvd_bmod_sub_self
  exact (h.eq_iff.2 ⟨hfits, hdvd⟩).symm

/-- A cell that wraps stands for all numbers with the same residue. -/
theorem Holds.of_modEq (hwrap : f.overflow = .wrap) (h : f.Holds x v) (hxy : x ≡ y [ZMOD f.span]) :
    f.Holds y v := by
  refine ⟨h.fits, ?_, fun htrap => ?_⟩
  · have hvx : x ≡ v [ZMOD f.span] := Int.modEq_iff_dvd.2 h.dvd
    exact (hxy.symm.trans hvx).dvd
  · rw [hwrap] at htrap
    cases htrap

theorem span_pos (f : CellFormat) : 0 < f.span := by
  have := f.half_pos
  unfold span
  omega

end CellFormat

/-- A tape stands for numbers, and one of its cells is the current one. -/
structure StandsFor (f : CellFormat) (v : Int → Int) (i : Int) (c : Config) : Prop where
  format_eq : c.tape.format = f
  idx_eq : c.idx = i
  holds : ∀ j, f.Holds (v j) (c.tape.get j)

namespace StandsFor

variable {f : CellFormat} {v v' : Int → Int} {i : Int} {c : Config}

/-- A blank tape stands for zeros. -/
theorem blank (f : CellFormat) (input : Source) :
    StandsFor f (fun _ => 0) 0 ⟨{ format := f }, 0, input, ""⟩ := by
  refine ⟨rfl, rfl, fun j => ?_⟩
  have hzero : ({ format := f } : Tape).get j = 0 := by simp [Tape.get]
  rw [hzero]
  exact f.holds_zero

theorem of_modEq (hwrap : f.overflow = .wrap) (h : StandsFor f v i c)
    (hv : ∀ j, v j ≡ v' j [ZMOD f.span]) : StandsFor f v' i c :=
  ⟨h.format_eq, h.idx_eq, fun j => (h.holds j).of_modEq hwrap (hv j)⟩

theorem cell_eq_zero_iff (h : StandsFor f v i c) : c.cell = 0 ↔ v i ≡ 0 [ZMOD f.span] := by
  have hcell : c.cell = c.tape.get i := by rw [Config.cell, h.idx_eq]
  rw [hcell, eq_comm, (h.holds i).eq_iff, Int.modEq_iff_dvd]
  simp [f.fits_zero]

/-- What is added to the current cell is added to the number that it stands for. -/
theorem shift (hwrap : f.overflow = .wrap) (h : StandsFor f v i c) (d : Int) :
    ∃ tape, c.tape.add c.idx d = .ok tape ∧ StandsFor f (update v i (v i + d)) i { c with tape } := by
  obtain ⟨rfl, rfl, hholds⟩ := h
  cases hshift : c.tape.add c.idx d with
  | error o =>
    have htrap := (CellFormat.fit?_eq_none_iff.1 (Tape.put_eq_error_iff.1 hshift).1).1
    rw [hwrap] at htrap
    cases htrap
  | ok tape =>
    refine ⟨tape, rfl, Tape.format_put hshift, rfl, fun j => ?_⟩
    by_cases hj : j = c.idx
    · rw [hj, Function.update_self]
      exact (hholds c.idx).add (Tape.get_put_self hshift)
    · rw [Function.update_of_ne hj, Tape.get_put_of_ne hshift hj]
      exact hholds j

end StandsFor

namespace Tree

def single (i : Simple) : Tree := .simple i .done

/-- So many `+`. -/
def plus : Nat → Tree
  | 0 => .done
  | n + 1 => .simple .increment (plus n)

theorem instructions_plus (n : Nat) : (plus n).instructions = List.replicate n .increment := by
  induction n with
  | zero => rfl
  | succ n ih => rw [plus, instructions, ih, List.replicate_succ, Simple.instruction]

/-- `[>+<-]`, which moves a number to the next cell. -/
def transfer : Tree :=
  .loop ((single .moveRight).append ((plus 1).append
    ((single .moveLeft).append (single .decrement)))) .done

/-- So many `+`, `>`, so many `+`, and `<[>+<-]`. -/
def sum (a b : Nat) : Tree :=
  (plus a).append ((single .moveRight).append ((plus b).append ((single .moveLeft).append transfer)))

/-- So many `+`, `[>`, so many `+`, and `[>+<-]<-]`. -/
def product (a b : Nat) : Tree :=
  (plus a).append (.loop ((single .moveRight).append ((plus b).append (transfer.append
    ((single .moveLeft).append (single .decrement))))) .done)

end Tree

/-- Three numbers from the first cell on, and zeros. -/
def values (x y z : Int) (j : Int) : Int :=
  if j = 0 then x else if j = 1 then y else if j = 2 then z else 0

section Values

variable (x y z n : Int)

theorem values_zero : values 0 0 0 = fun _ => 0 := by
  funext j
  simp [values]

theorem update_values_first : update (values x y z) 0 n = values n y z := by
  funext j
  by_cases hj : j = 0
  · simp [values, hj]
  · simp [values, hj]

theorem update_values_second : update (values x y z) 1 n = values x n z := by
  funext j
  by_cases hj : j = 1
  · simp [values, hj]
  · simp [values, hj]

theorem update_values_third : update (values x y z) 2 n = values x y n := by
  funext j
  by_cases hj : j = 2
  · simp [values, hj]
  · simp [values, hj]

end Values

/-- Numbers after the current one has been added to the next. -/
def moved (v : Int → Int) (i : Int) : Int → Int := update (update v i 0) (i + 1) (v (i + 1) + v i)

namespace Machine

open TapeMachine.Tree

variable {settings : Settings} {f : CellFormat} {v : Int → Int} {i : Int} {body : Tree}

theorem turns_moveRight :
    Turns settings (single .moveRight) (StandsFor f v i) (StandsFor f v (i + 1)) := by
  refine .simple fun pos c h => ⟨_, rfl, h.format_eq, ?_, h.holds⟩
  rw [← h.idx_eq]

theorem turns_moveLeft :
    Turns settings (single .moveLeft) (StandsFor f v i) (StandsFor f v (i - 1)) := by
  refine .simple fun pos c h => ⟨_, rfl, h.format_eq, ?_, h.holds⟩
  rw [← h.idx_eq]

/-- A counter is taken down to zero, from the number of all values at most. With strict entry it must not
be zero at first. -/
theorem Turns.countdown {w : Int → Int → Int} (hcount : ∀ k, w k i = k)
    (hbody : ∀ k, Turns settings body (StandsFor f (w k) i) (StandsFor f (w (k - 1)) i))
    {n : Nat} (hn : 0 < n) (hle : n ≤ f.span)
    (hentry : settings.strictLoops = true → n < f.span) :
    Turns settings (.loop body .done) (StandsFor f (w n) i) (StandsFor f (w 0) i) := by
  have hresidue : ∀ k : Nat, k < f.span → ((k : Int) ≡ 0 [ZMOD f.span] ↔ k = 0) := by
    intro k hk
    rw [Int.ModEq, Int.emod_eq_of_lt (by omega) hk, Int.zero_emod]
    omega
  have hcell : ∀ (k : Nat) c, k < f.span → StandsFor f (w k) i c → (c.cell = 0 ↔ k = 0) := by
    intro k c hk hc
    rw [hc.cell_eq_zero_iff, hcount, hresidue k hk]
  refine Turns.loop (fun k => StandsFor f (w k) i) (fun k => ?_)
    (fun k c hk hc => hcell k c (by omega) hc) hn ?_
  · have hround := hbody (k + 1)
    rwa [show ((k : Int) + 1 - 1) = k by omega] at hround
  · intro hstrict c hc hzero
    have := (hcell n c (hentry hstrict) hc).1 hzero
    omega

section Wrap

variable (hwrap : f.overflow = .wrap)
include hwrap

theorem turns_decrement :
    Turns settings (single .decrement) (StandsFor f v i) (StandsFor f (update v i (v i - 1)) i) := by
  refine .simple fun pos c h => ?_
  obtain ⟨tape, hshift, hc⟩ := h.shift hwrap (-1)
  exact ⟨_, by rw [Simple.exec, hshift, Config.written], hc⟩

theorem turns_plus (n : Nat) :
    Turns settings (plus n) (StandsFor f v i) (StandsFor f (update v i (v i + n)) i) := by
  induction n generalizing v with
  | zero =>
    have hsame : update v i (v i + (0 : Nat)) = v := by simp
    rw [hsame]
    exact .done settings _
  | succ n ih =>
    have hone : Turns settings (single .increment) (StandsFor f v i)
        (StandsFor f (update v i (v i + 1)) i) := by
      refine .simple fun pos c h => ?_
      obtain ⟨tape, hshift, hc⟩ := h.shift hwrap 1
      exact ⟨_, by rw [Simple.exec, hshift, Config.written], hc⟩
    have hmore := hone.seq ih
    have hsum : update (update v i (v i + 1)) i (update v i (v i + 1) i + n) =
        update v i (v i + (n + 1 : Nat)) := by
      rw [Function.update_idem, Function.update_self, Int.add_assoc, Int.natCast_add, Int.add_comm 1]
      rfl
    rwa [hsum] at hmore

/-- A counter that is taken down by one in each round comes to zero from any number. If it is zero at
first, either the loop is passed over, or it goes once through all values of a cell; what depends on
the counter alone is the same then, since only the residue of the counter matters. -/
theorem Turns.drain {w : Int → Int → Int} (hcount : ∀ k, w k i = k)
    (hmod : ∀ k k' j, k ≡ k' [ZMOD f.span] → w k j ≡ w k' j [ZMOD f.span])
    (hbody : ∀ k, Turns settings body (StandsFor f (w k) i) (StandsFor f (w (k - 1)) i)) (x : Int) :
    Turns settings (.loop body .done) (StandsFor f (w x) i) (StandsFor f (w 0) i) := by
  have hspan := f.span_pos
  have hsame : ∀ k, x ≡ k [ZMOD f.span] → ∀ c, StandsFor f (w x) i c → StandsFor f (w k) i c :=
    fun k hk c hc => hc.of_modEq hwrap fun j => hmod x k j hk
  by_cases hx : x ≡ 0 [ZMOD f.span]
  · cases hstrict : settings.strictLoops with
    | true =>
      refine .skip hstrict (fun c hc => ?_) (hsame 0 hx)
      rwa [hc.cell_eq_zero_iff, hcount]
    | false =>
      have hall : x ≡ f.span.toNat [ZMOD f.span] := by
        rw [Int.toNat_of_nonneg hspan.le]
        exact hx.trans (by simp [Int.ModEq])
      refine (Turns.countdown hcount hbody ?_ ?_ ?_).imp (hsame _ hall) fun _ => id
      · omega
      · omega
      · simp [hstrict]
  · have hpos : 0 < x % f.span := by
      have hnonneg := Int.emod_nonneg x hspan.ne'
      have hne : x % f.span ≠ 0 := fun hzero => hx (by rw [Int.ModEq, hzero, Int.zero_emod])
      omega
    have hlt := Int.emod_lt_of_pos x hspan
    have hpart : x ≡ (x % f.span).toNat [ZMOD f.span] := by
      rw [Int.toNat_of_nonneg hpos.le]
      exact (Int.mod_modEq x f.span).symm
    refine (Turns.countdown hcount hbody ?_ ?_ ?_).imp (hsame _ hpart) fun _ => id
    · omega
    · omega
    · omega

/-- `[>+<-]` adds the current number to the next one and makes it zero. -/
theorem turns_transfer (v : Int → Int) (i : Int) :
    Turns settings transfer (StandsFor f v i) (StandsFor f (moved v i) i) := by
  -- What the cells stand for when the counter is still `k`.
  let w (k : Int) : Int → Int := update (update v i k) (i + 1) (v (i + 1) + v i - k)
  have hnext : i ≠ i + 1 := by omega
  have hself : ∀ k, w k i = k := by
    intro k
    simp [w, hnext]
  have hbody : ∀ k, Turns settings ((single .moveRight).append ((plus 1).append
      ((single .moveLeft).append (single .decrement)))) (StandsFor f (w k) i)
      (StandsFor f (w (k - 1)) i) := by
    intro k
    have hround : Turns settings _ (StandsFor f (w k) i) _ :=
      turns_moveRight.seq ((turns_plus hwrap 1).seq (turns_moveLeft.seq (turns_decrement hwrap)))
    have hvalues : update (update (w k) (i + 1) (w k (i + 1) + 1)) i
        (update (w k) (i + 1) (w k (i + 1) + 1) i - 1) = w (k - 1) := by
      funext j
      by_cases hj : j = i + 1
      · subst hj
        simp [w]
        omega
      · by_cases hi : j = i
        · subst hi
          simp [w, hnext]
        · simp [w, hj, hi]
    rw [Int.add_sub_cancel] at hround
    rw [← hvalues]
    exact hround
  have hmod : ∀ k k' j, k ≡ k' [ZMOD f.span] → w k j ≡ w k' j [ZMOD f.span] := by
    intro k k' j hk
    by_cases hj : j = i + 1
    · subst hj
      simpa [w] using Int.ModEq.sub_left _ hk
    · by_cases hi : j = i
      · subst hi
        simpa [hself] using hk
      · simp [w, hj, hi, Int.ModEq.refl]
  have hstart : w (v i) = v := by
    funext j
    by_cases hj : j = i + 1
    · simp [w, hj]
    · simp [w, hj]
  have hend : w 0 = moved v i := by
    simp [w, moved]
  have hdrain := Turns.drain hwrap hself hmod hbody (v i)
  rwa [hstart, hend] at hdrain

section Values

variable (settings) (x y z : Int)

theorem turns_plus_first (n : Nat) :
    Turns settings (plus n) (StandsFor f (values x y z) 0) (StandsFor f (values (x + n) y z) 0) := by
  rw [← update_values_first x y z (x + n)]
  exact turns_plus hwrap n

theorem turns_plus_second (n : Nat) :
    Turns settings (plus n) (StandsFor f (values x y z) 1) (StandsFor f (values x (y + n) z) 1) := by
  rw [← update_values_second x y z (y + n)]
  exact turns_plus hwrap n

theorem turns_decrement_first :
    Turns settings (single .decrement) (StandsFor f (values x y z) 0)
      (StandsFor f (values (x - 1) y z) 0) := by
  rw [← update_values_first x y z (x - 1)]
  exact turns_decrement hwrap

theorem turns_transfer_first :
    Turns settings transfer (StandsFor f (values x y z) 0) (StandsFor f (values 0 (y + x) z) 0) := by
  rw [← update_values_second 0 y z (y + x), ← update_values_first x y z 0]
  exact turns_transfer hwrap (values x y z) 0

theorem turns_transfer_second :
    Turns settings transfer (StandsFor f (values x y z) 1) (StandsFor f (values x 0 (z + y)) 1) := by
  rw [← update_values_third x 0 z (z + y), ← update_values_second x y z 0]
  exact turns_transfer hwrap (values x y z) 1

end Values

/-- The first number is added to the second. -/
theorem turns_sum (a b : Nat) :
    Turns settings (sum a b) (StandsFor f (values 0 0 0) 0) (StandsFor f (values 0 (b + a) 0) 0) := by
  have hfirst := turns_plus_first settings hwrap 0 0 0 a
  have hsecond := turns_plus_second settings hwrap a 0 0 b
  have htransfer := turns_transfer_first settings hwrap a b 0
  rw [Int.zero_add] at hfirst hsecond
  exact hfirst.seq (turns_moveRight.seq (hsecond.seq (turns_moveLeft.seq htransfer)))

/-- Each round adds the second factor to the third number, and leaves zero in the second. -/
theorem turns_product (a b : Nat) :
    Turns settings (product a b) (StandsFor f (values 0 0 0) 0)
      (StandsFor f (values 0 0 (a * b)) 0) := by
  let w (k : Int) : Int → Int := values k 0 ((a - k) * b)
  have hround : ∀ k, Turns settings ((single .moveRight).append ((plus b).append (transfer.append
      ((single .moveLeft).append (single .decrement))))) (StandsFor f (w k) 0)
      (StandsFor f (w (k - 1)) 0) := by
    intro k
    have hfactor := turns_plus_second settings hwrap k 0 ((a - k) * b) b
    have hmoved := turns_transfer_second settings hwrap k b ((a - k) * b)
    have hcount := turns_decrement_first settings hwrap k 0 ((a - k) * b + b)
    have hproduct : ((a : Int) - (k - 1)) * b = (a - k) * b + b := by
      rw [show (a : Int) - (k - 1) = a - k + 1 by omega, Int.add_mul, Int.one_mul]
    rw [Int.zero_add] at hfactor
    simp only [w, hproduct]
    exact turns_moveRight.seq (hfactor.seq (hmoved.seq (turns_moveLeft.seq hcount)))
  have hmod : ∀ k k' j, k ≡ k' [ZMOD f.span] → w k j ≡ w k' j [ZMOD f.span] := by
    intro k k' j hk
    simp only [w, values]
    split
    · exact hk
    · split
      · rfl
      · split
        · exact (Int.ModEq.sub_left _ hk).mul_right _
        · rfl
  have hstart := turns_plus_first settings hwrap 0 0 0 a
  have hloop := Turns.drain hwrap (fun _ => rfl) hmod hround a
  have hfull : w a = values (0 + a) 0 0 := by simp [w]
  have hempty : w 0 = values 0 0 (a * b) := by simp [w]
  rw [hfull, hempty] at hloop
  exact hstart.seq hloop

end Wrap

end Machine

/-- The text of the program that adds. -/
def sumText (a b : Nat) : String :=
  String.ofList (List.replicate a '+' ++ ['>'] ++ List.replicate b '+' ++
    ['<', '[', '>', '+', '<', '-', ']'])

/-- The text of the program that multiplies. -/
def productText (a b : Nat) : String :=
  String.ofList (List.replicate a '+' ++ ['[', '>'] ++ List.replicate b '+' ++
    ['[', '>', '+', '<', '-', ']', '<', '-', ']'])

example : sumText 2 3 = "++>+++<[>+<-]" := rfl

theorem instructions_sum (a b : Nat) :
    (Tree.sum a b).instructions =
      (Program.ofSource (Text.ofString (sumText a b))).instructions.toList := by
  apply Tree.instructions_ofSource
  simp [Tree.sum, Tree.transfer, Tree.single, Tree.instructions_append, Tree.instructions_plus,
    Tree.instructions, Simple.instruction, Instruction.symbol]

theorem instructions_product (a b : Nat) :
    (Tree.product a b).instructions =
      (Program.ofSource (Text.ofString (productText a b))).instructions.toList := by
  apply Tree.instructions_ofSource
  simp [Tree.product, Tree.transfer, Tree.single, Tree.instructions_append, Tree.instructions_plus,
    Tree.instructions, Simple.instruction, Instruction.symbol]

namespace Machine

/-- Counting loops add and multiply modulo the number of values of a cell, and always end. In cells that
wrap, whatever the width and the rule of loop entry, the program that adds ends with zero in the first
cell and the sum in the second, and the program that multiplies with zero in the first two and the
product in the third, each as a signed word of the width has it. -/
theorem counting_loops_compute (a b : Nat) (settings : Settings) (input : Source)
    (hwrap : settings.overflow = .wrap) :
    (∃ fuel result,
      (Program.ofSource (Text.ofString (sumText a b))).run input settings fuel = some (.ok result) ∧
      result.tape.get 0 = 0 ∧
      result.tape.get 1 = (BitVec.ofNat settings.cellBits (a + b)).toInt) ∧
    ∃ fuel result,
      (Program.ofSource (Text.ofString (productText a b))).run input settings fuel = some (.ok result) ∧
      result.tape.get 0 = 0 ∧ result.tape.get 1 = 0 ∧
      result.tape.get 2 = (BitVec.ofNat settings.cellBits (a * b)).toInt := by
  have hblank : StandsFor settings.format (values 0 0 0) 0
      ⟨{ format := settings.format }, 0, input, ""⟩ := by
    rw [values_zero]
    exact .blank settings.format input
  have hzero : ∀ {v : Int}, settings.format.Holds 0 v → v = 0 := by
    intro v hv
    simpa using hv.eq_toInt
  have hvalue : ∀ {n : Nat} {v : Int}, settings.format.Holds n v →
      v = (BitVec.ofNat settings.cellBits n).toInt := by
    intro n v hv
    rw [hv.eq_toInt, BitVec.ofInt_natCast]
    rfl
  constructor
  · obtain ⟨c, fuel, k, hc, hrun⟩ := (turns_sum hwrap a b).run (instructions_sum a b) hblank
    refine ⟨fuel, _, hrun, hzero (hc.holds 0), hvalue ?_⟩
    rw [Int.natCast_add, Int.add_comm]
    exact hc.holds 1
  · obtain ⟨c, fuel, k, hc, hrun⟩ := (turns_product hwrap a b).run (instructions_product a b) hblank
    refine ⟨fuel, _, hrun, hzero (hc.holds 0), hzero (hc.holds 1), hvalue ?_⟩
    rw [Int.natCast_mul]
    exact hc.holds 2

/-- In cells of 8 bits the first counter, 256, is zero, and the loops go through all values once; the sum
456 and the product 51200 are held as -56 and 0. -/
theorem counting_loops_compute_around :
    let settings : Settings := { cellBits := 8 }
    let input := Source.ofText []
    settings.overflow = .wrap ∧
    (∃ fuel result,
      (Program.ofSource (Text.ofString (sumText 256 200))).run input settings fuel = some (.ok result) ∧
      result.tape.get 0 = 0 ∧ result.tape.get 1 = -56) ∧
    ∃ fuel result,
      (Program.ofSource (Text.ofString (productText 256 200))).run input settings fuel =
        some (.ok result) ∧
      result.tape.get 0 = 0 ∧ result.tape.get 1 = 0 ∧ result.tape.get 2 = 0 := by
  intro settings input
  have hsum : (BitVec.ofNat 8 (256 + 200)).toInt = -56 := by decide
  have hproduct : (BitVec.ofNat 8 (256 * 200)).toInt = 0 := by decide
  obtain ⟨⟨fuel, result, hrun, hfirst, hsecond⟩, fuel', result', hrun', hfirst', hsecond', hthird'⟩ :=
    counting_loops_compute 256 200 settings input rfl
  exact ⟨rfl, ⟨fuel, result, hrun, hfirst, hsecond.trans hsum⟩, fuel', result', hrun', hfirst', hsecond',
    hthird'.trans hproduct⟩

end Machine

end TapeMachine
