import TapeMachine.Proofs.WriteHistory

/-!
What a tape keeps through any operations, refused ones among them. An operation reads, or it writes one
cell: the value itself if it fits, and else the one value that is congruent to it, or nothing at all. So
the listed cells are always those that were written, each once and with what was stored there last
(`Tape.tape_keeps_representation`). A refusal that would have to name a long number is no overflow, but
the machine never meets one (`Machine.set_of_put_error`).
-/
namespace TapeMachine

namespace Tape

variable {t : Tape} {op : Operation} {f : CellFormat} {i j v w : Int}

/-- The cell that an operation is about to write, and the value, whether it fits or not. -/
def Operation.write? (t : Tape) : Operation → Option (Int × Int)
  | .set i v | .setItem i v => some (i, v)
  | .shift i d | .addItem i d => some (i, t.get i + d)
  | .get _ | .getItem _ => none

/-- The cell that an operation writes, and the value that is stored there. -/
def Operation.store? (t : Tape) (op : Operation) : Option (Int × Int) :=
  (op.write? t).bind fun c => (t.format.fit? c.2).map fun w => (c.1, w)

/-- All that operations store, one after another. -/
def stores (t : Tape) : List Operation → List (Int × Int)
  | [] => []
  | op :: ops => (op.store? t).toList ++ (t.perform op).2.stores ops

@[simp] theorem performAll_nil (t : Tape) : t.performAll [] = ([], t) := rfl

@[simp] theorem performAll_cons (t : Tape) (op : Operation) (ops : List Operation) :
    (t.performAll (op :: ops)).2 = ((t.perform op).2.performAll ops).2 := rfl

theorem perform_of_write? (h : op.write? t = some (i, v)) : t.perform op = t.written (t.set i v) := by
  cases op <;> cases h <;> rfl

theorem perform_of_write?_none (h : op.write? t = none) : (t.perform op).2 = t := by
  cases op <;> cases h <;> rfl

theorem written_of_fit? (h : t.format.fit? v = some w) :
    t.written (t.set i v) = (.ok none, { t with stored := t.stored.insert i w }) := by
  rw [set_eq_ok_iff.2 (put_eq_ok_iff.2 ⟨w, h, rfl⟩)]
  rfl

theorem written_of_fit?_none (h : t.format.fit? v = none) :
    t.written (t.set i v) = (.error (Overflow.raised ⟨i, v, t.format.bits⟩), t) := by
  rw [set_eq_error_iff.2 ⟨_, put_eq_error_iff.2 ⟨h, rfl⟩, rfl⟩]
  rfl

/-- An operation stores what it has to, and keeps all else. -/
theorem stored_perform (t : Tape) (op : Operation) (j : Int) :
    (t.perform op).2.stored[j]? = ((op.store? t).toList.lookup j).or t.stored[j]? := by
  cases hwrite : op.write? t with
  | none =>
    rw [perform_of_write?_none hwrite]
    simp [Operation.store?, hwrite]
  | some c =>
    obtain ⟨i, v⟩ := c
    rw [perform_of_write? hwrite]
    cases hfit : t.format.fit? v with
    | none =>
      rw [written_of_fit?_none hfit]
      simp [Operation.store?, hwrite, hfit]
    | some w =>
      rw [written_of_fit? hfit, Std.ExtTreeMap.getElem?_insert]
      by_cases hij : i = j
      · subst hij
        simp [Operation.store?, hwrite, hfit]
      · have hne : (j == i) = false := beq_eq_false_iff_ne.2 (Ne.symm hij)
        simp [Operation.store?, hwrite, hfit, hij, List.lookup_cons, hne]

/-- A cell holds what was stored in it last. -/
theorem stored_performAll (t : Tape) (ops : List Operation) (j : Int) :
    (t.performAll ops).2.stored[j]? = ((t.stores ops).reverse.lookup j).or t.stored[j]? := by
  induction ops generalizing t with
  | nil => simp [stores]
  | cons op ops ih =>
    have hone : (op.store? t).toList.reverse = (op.store? t).toList := by
      cases op.store? t <;> rfl
    rw [performAll_cons, ih, stored_perform, stores, List.reverse_append, List.lookup_append, hone,
      Option.or_assoc]

theorem Reached.perform (h : Reached f t) (op : Operation) : Reached f (t.perform op).2 := by
  cases hwrite : op.write? t with
  | none => rwa [perform_of_write?_none hwrite]
  | some c =>
    rw [perform_of_write? hwrite]
    cases hset : t.set c.1 c.2 with
    | error o => exact h
    | ok t' => exact .set h hset

theorem Reached.performAll (h : Reached f t) (ops : List Operation) :
    Reached f (t.performAll ops).2 := by
  induction ops generalizing t with
  | nil => exact h
  | cons op ops ih => exact ih (h.perform op)

theorem contains_eq_isSome (t : Tape) (i : Int) : t.contains i = t.stored[i]?.isSome :=
  Std.ExtTreeMap.contains_eq_isSome_getElem?

theorem get_eq_zero (h : t.contains i = false) : t.get i = 0 := by
  rw [contains_eq_isSome, Option.isSome_eq_false_iff, Option.isNone_iff_eq_none] at h
  simp [get, h]

theorem mem_cells_iff_get : (i, v) ∈ t.cells ↔ t.contains i = true ∧ t.get i = v := by
  rw [mem_cells_iff, contains_eq_isSome, get]
  cases t.stored[i]? <;> simp

/-- A write leaves all cells but its own as they are. -/
theorem perform_of_ne (h : op.write? t = some (i, v)) (hj : j ≠ i) :
    (t.perform op).2.get j = t.get j ∧ (t.perform op).2.contains j = t.contains j := by
  have hne : (j == i) = false := beq_eq_false_iff_ne.2 hj
  have hlookup : (op.store? t).toList.lookup j = none := by
    simp only [Operation.store?, h, Option.bind_some]
    cases t.format.fit? v <;> simp [List.lookup_cons, hne]
  have hstored : (t.perform op).2.stored[j]? = t.stored[j]? := by
    rw [stored_perform, hlookup, Option.none_or]
  rw [get, get, contains_eq_isSome, contains_eq_isSome, hstored]
  exact ⟨rfl, rfl⟩

/-- In cells that wrap, every write is done. -/
theorem perform_wrap (hwrap : t.format.overflow = .wrap) (h : op.write? t = some (i, v)) :
    (t.perform op).1 = .ok none ∧ (t.perform op).2.contains i = true ∧
      t.format.Holds v ((t.perform op).2.get i) := by
  rw [perform_of_write? h]
  cases hfit : t.format.fit? v with
  | none =>
    have htrap := (CellFormat.fit?_eq_none_iff.1 hfit).1
    rw [hwrap] at htrap
    cases htrap
  | some w =>
    rw [written_of_fit? hfit]
    refine ⟨rfl, by simp [contains], ?_⟩
    have hget : ({ t with stored := t.stored.insert i w } : Tape).get i = w := by simp [get]
    rw [hget]
    exact CellFormat.holds_of_fit? hfit

/-- In all cells, a value that fits is written as it is. -/
theorem perform_fits (hfits : t.format.Fits v) (h : op.write? t = some (i, v)) :
    (t.perform op).1 = .ok none ∧ (t.perform op).2.contains i = true ∧
      (t.perform op).2.get i = v := by
  have hfit : t.format.fit? v = some v := if_pos hfits
  rw [perform_of_write? h, written_of_fit? hfit]
  exact ⟨rfl, by simp [contains], by simp [get]⟩

/-- In cells that refuse, a write of a value that does not fit does nothing. -/
theorem perform_refused (htrap : t.format.overflow = .trap) (hfits : ¬ t.format.Fits v)
    (h : op.write? t = some (i, v)) :
    t.perform op = (.error (Overflow.raised ⟨i, v, t.format.bits⟩), t) := by
  rw [perform_of_write? h, written_of_fit?_none (CellFormat.fit?_eq_none_iff.2 ⟨htrap, hfits⟩)]

/-- A tape keeps its representation through any operations, refused ones among them. All kept cells are in
range, and all others read as zero. Reading changes nothing. Writing changes no other cell: cells that
wrap always take the one value in range that is congruent to the written one, and cells that refuse take
the value itself, or else refuse it and stay as they are. A refusal is an overflow exactly if neither the
value nor the index is too long to be written. The listed cells are by ascending index and each holds what
was stored there last; indices, number and membership agree with the list. -/
theorem tape_keeps_representation (f : CellFormat) (ops : List Operation) :
    let blank : Tape := { format := f }
    let t := (blank.performAll ops).2
    let inRange (v : Int) : Prop :=
      -(Nat.pow 2 (f.bits - 1) : Nat) ≤ v ∧ v ≤ (Nat.pow 2 (f.bits - 1) : Nat) - 1
    make f.bits (Text.ofString f.overflow.name) = .ok blank ∧
    (∀ i, t.contains i = true → inRange (t.get i)) ∧
    (∀ i, t.contains i = false → t.get i = 0) ∧
    (∀ i op, op = .get i ∨ op = .getItem i → t.perform op = (.ok (some (t.get i)), t)) ∧
    (∀ op i v, op.write? t = some (i, v) →
      let answer := (t.perform op).1
      let t' := (t.perform op).2
      (f.overflow = .wrap → answer = .ok none ∧ t'.contains i = true ∧
        ∀ w, w = t'.get i ↔ inRange w ∧ ((Nat.pow 2 f.bits : Nat) : Int) ∣ w - v) ∧
      (f.overflow = .trap →
        (answer = .error (.overflow ⟨i, v, f.bits⟩) ↔
          ¬ inRange v ∧ Integer.Printable v ∧ Integer.Printable i) ∧
        (answer = .error .unprintable ↔
          ¬ inRange v ∧ ¬ (Integer.Printable v ∧ Integer.Printable i)) ∧
        (¬ inRange v → t' = t) ∧
        (inRange v → answer = .ok none ∧ t'.contains i = true ∧ t'.get i = v)) ∧
      ∀ j, j ≠ i → t'.get j = t.get j ∧ t'.contains j = t.contains j) ∧
    t.cells.Pairwise (fun a b => a.1 < b.1) ∧
    (∀ i v, (i, v) ∈ t.cells ↔ t.contains i = true ∧ t.get i = v) ∧
    (∀ i v, (i, v) ∈ t.cells ↔ (blank.stores ops).reverse.lookup i = some v) ∧
    t.indices = t.cells.map Prod.fst ∧ t.size = t.cells.length ∧
    ∀ i, i ∈ t.indices ↔ t.contains i = true := by
  intro blank t inRange
  have hreached : Reached f t := Reached.blank.performAll ops
  have hformat : t.format = f := hreached.fits.1
  refine ⟨make_format f, fun i _ => hreached.fits_get i, fun i => get_eq_zero, ?_, ?_,
    t.pairwise_cells, fun i v => mem_cells_iff_get, ?_, ?_, ?_, ?_⟩
  · rintro i op (rfl | rfl) <;> rfl
  · intro op i v hwrite answer t'
    refine ⟨fun hwrap => ?_, fun htrap => ?_, fun j hj => perform_of_ne hwrite hj⟩
    · obtain ⟨hanswer, hcontains, hholds⟩ := perform_wrap (hformat ▸ hwrap) hwrite
      rw [hformat] at hholds
      refine ⟨hanswer, hcontains, fun w => ?_⟩
      rw [hholds.eq_iff, CellFormat.span_eq]
      rfl
    · by_cases hv : f.Fits v
      · have hdone := perform_fits (hformat.symm ▸ hv) hwrite
        have hanswer : answer = .ok none := hdone.1
        have hin : inRange v := hv
        refine ⟨?_, ?_, fun hno => absurd hin hno, fun _ => hdone⟩ <;> simp [hanswer, hin]
      · have hrefused := perform_refused (hformat ▸ htrap) (hformat.symm ▸ hv) hwrite
        rw [hformat] at hrefused
        have hanswer : answer = .error (Overflow.raised ⟨i, v, f.bits⟩) := congrArg Prod.fst hrefused
        have hout : ¬ inRange v := hv
        refine ⟨?_, ?_, fun _ => congrArg Prod.snd hrefused, fun hin => absurd hin hv⟩
        · rw [hanswer, Except.error.injEq, Overflow.raised_eq_overflow_iff, and_iff_right hout]
        · rw [hanswer, Except.error.injEq, Overflow.raised_eq_unprintable_iff, and_iff_right hout]
  · intro i v
    rw [mem_cells_iff, stored_performAll]
    simp [blank]
  · exact Std.ExtTreeMap.map_fst_toList_eq_keys.symm
  · exact Std.ExtTreeMap.length_toList.symm
  · intro i
    exact Std.ExtTreeMap.mem_keys

/-- Cells of 8 bits that refuse, after a write of 100 to the cell at -3, refuse to add another 100 there
and stay as they are. The cells that are listed then are this one and one written later. -/
theorem tape_keeps_representation_refusal :
    let f : CellFormat := ⟨8, .trap, Nat.le_of_ble_eq_true rfl⟩
    let sum : Operation := .addItem (-3) 100
    let t := (({ format := f } : Tape).performAll [.set (-3) 100, sum, .shift 5 7]).2
    sum.write? t = some (-3, 200) ∧ (t.perform sum).1 = .error (.overflow ⟨-3, 200, 8⟩) ∧
      (t.perform sum).2 = t ∧ t.cells = [(-3, 100), (5, 7)] ∧ t.indices = [-3, 5] := by
  intro f sum t
  have hwrite : sum.write? t = some (-3, 200) := by decide +kernel
  have hcells : t.cells = [(-3, 100), (5, 7)] := by decide +kernel
  obtain ⟨-, -, -, -, hwrites, -, -, -, hindices, -⟩ :=
    tape_keeps_representation f [.set (-3) 100, sum, .shift 5 7]
  obtain ⟨hoverflow, -, hkeeps, -⟩ := (hwrites sum (-3) 200 hwrite).2.1 rfl
  have hrange : ¬ (-(Nat.pow 2 (8 - 1) : Nat) ≤ (200 : Int) ∧
      (200 : Int) ≤ (Nat.pow 2 (8 - 1) : Nat) - 1) := by decide
  refine ⟨hwrite, hoverflow.2 ⟨hrange, by decide, by decide⟩, hkeeps hrange, hcells, ?_⟩
  have hkeys : t.indices = t.cells.map Prod.fst := hindices
  rw [hkeys, hcells]
  rfl

/-- In cells of 14286 bits that refuse, a number of 4300 nines fits. To add as much to it again is refused,
and since the sum has one digit more, this is not told as an overflow. -/
theorem long_overflow_not_told :
    let f : CellFormat := ⟨14286, .trap, Nat.le_of_ble_eq_true rfl⟩
    let nines : Int := (Nat.pow 10 4300 : Nat) - 1
    let t := (({ format := f } : Tape).performAll [.set 0 nines]).2
    t.get 0 = nines ∧ (Nat.pow 2 (f.bits - 1) : Nat) - 1 < nines + nines ∧
      t.perform (.shift 0 nines) = (.error .unprintable, t) ∧
      (t.perform (.shift 0 nines)).1 ≠ .error (.overflow ⟨0, nines + nines, f.bits⟩) := by
  intro f nines t
  have hformat : t.format = f := (Reached.blank.performAll [.set 0 nines]).fits.1
  have htrap : t.format.overflow = .trap := congrArg CellFormat.overflow hformat
  have hget : t.get 0 = nines := by decide +kernel
  have hlarge : (Nat.pow 2 (f.bits - 1) : Nat) - 1 < nines + nines := by decide +kernel
  have hlong : ¬ Integer.Printable (nines + nines) := by
    rw [Integer.printable_iff]
    decide +kernel
  have hout : ¬ t.format.Fits (nines + nines) := by
    rw [hformat]
    exact fun h => absurd h.2 (Int.not_le.2 hlarge)
  have hwrite : (Operation.shift 0 nines).write? t = some (0, nines + nines) := by
    rw [Operation.write?, hget]
  have hraised : Overflow.raised ⟨0, nines + nines, t.format.bits⟩ = .unprintable := by
    rw [Overflow.raised_eq_unprintable_iff]
    exact fun h => hlong h.1
  have hrefused : t.perform (.shift 0 nines) = (.error .unprintable, t) := by
    rw [perform_refused htrap hout hwrite, hraised]
  refine ⟨hget, hlarge, hrefused, ?_⟩
  rw [hrefused]
  simp

end Tape

namespace Machine

variable {settings : Settings} {code : Code} {tape : Tape} {input : Source} {s : State} {i : Instruction}
  {v : Int} {o : Overflow} {n : Nat}

/-- A run is no further from its first cell than it has completed steps. -/
theorem natAbs_idx_le (h : after settings code n { tape, input } = some s) : s.idx.natAbs ≤ n := by
  have hsteps : s.steps = n := (steps_after h).trans (Nat.zero_add n)
  rw [← hsteps]
  have hfirst : ({ tape, input } : State).idx.natAbs ≤ ({ tape, input } : State).steps := Nat.le_refl 0
  refine after_invariant (P := fun u => u.idx.natAbs ≤ u.steps) ?_ hfirst h
  intro r r' hr hn
  obtain ⟨j, u, -, he, rfl⟩ := next?_eq_some_iff.1 hn
  have hidx := idx_of_execute he
  have hkept := (execute_keeps he).2
  have hadvance : u.advance.idx = u.idx ∧ u.advance.steps = u.steps + 1 := ⟨rfl, rfl⟩
  rw [hadvance.1, hadvance.2, hidx, hkept]
  split <;> split <;> omega

/-- What an instruction is about to write is one away from the value of a cell, or a character. -/
theorem natAbs_le_of_written? (hs : Tape.Reached settings.format s.tape)
    (hw : written? s i = some v) : v.natAbs ≤ 0x8000000000000001 := by
  have hcell := Settings.natAbs_le_of_fits (hs.fits_get s.idx)
  have heq : s.tape.get s.idx = s.cell := rfl
  cases i with
  | increment | decrement =>
    cases hw
    omega
  | input =>
    obtain ⟨c, -, rfl⟩ := Option.map_eq_some_iff.1 hw
    have hc := c.isLt
    omega
  | _ => cases hw

/-- What the machine cannot store is told as an overflow: the cells of a machine hold no long numbers, and
a cell with a long index is not reached in fewer steps than there are numbers that can be written. -/
theorem set_of_put_error (htape : Tape.Reached settings.format tape)
    (h : after settings code n { tape, input } = some s) (hn : n < Nat.pow 10 Integer.maxLength)
    (hw : written? s i = some v) (ho : s.tape.put s.idx v = .error o) :
    s.tape.set s.idx v = .error (.overflow o) := by
  have hvalue := natAbs_le_of_written? (reached_after htape h) hw
  have hidx := natAbs_idx_le h
  obtain ⟨-, rfl⟩ := Tape.put_eq_error_iff.1 ho
  refine Tape.set_eq_error_iff.2 ⟨_, ho, Overflow.raised_eq_overflow_iff.2 ⟨?_, ?_⟩⟩
  · have hlt : 0x8000000000000001 < Nat.pow 10 Integer.maxLength := by decide +kernel
    exact Integer.printable_iff.2 (Nat.lt_of_le_of_lt hvalue hlt)
  · exact Integer.printable_iff.2 (Nat.lt_of_le_of_lt hidx hn)

end Machine

end TapeMachine
