import TapeMachine.Proofs.CellRange
import TapeMachine.Proofs.InputRead

/-!
The tape as the history of its writes. The history of a run lists the instructions it has completed,
with the cell that each was executed at and the character that `,` read. From it and from the seed
follow the index of the current cell, which cells are kept, and what each of them holds
(`tape_tells_history`).
-/
namespace TapeMachine

namespace CellFormat

variable {f : CellFormat} {v w x d : Int}

/-- Whether a cell with the value `v` stands for `x`: it holds `x` modulo the number of values, and `x`
itself if the cell refuses what does not fit. -/
structure Holds (f : CellFormat) (x v : Int) : Prop where
  fits : f.Fits v
  dvd : f.span ∣ v - x
  exact : f.overflow = .trap → v = x

theorem span_eq (f : CellFormat) : f.span = (Nat.pow 2 f.bits : Nat) := by
  have hbits : f.bits = (f.bits - 1) + 1 := by
    have := f.bits_pos
    omega
  unfold span half
  rw [hbits, Nat.pow_eq, Nat.pow_eq, Nat.add_sub_cancel, Nat.pow_succ]
  omega

theorem dvd_wrapped_sub (f : CellFormat) (v : Int) : f.span ∣ f.wrapped v - v := by
  have hmod : f.span ∣ (v - f.low) - (v - f.low) % f.span := Int.dvd_self_sub_emod
  have heq : f.wrapped v - v = -((v - f.low) - (v - f.low) % f.span) := by
    unfold wrapped
    omega
  rw [heq]
  exact Int.dvd_neg.2 hmod

/-- Two values of a cell that are congruent are the same. -/
theorem Fits.eq_of_dvd (hv : f.Fits v) (hw : f.Fits w) (h : f.span ∣ v - w) : v = w := by
  have hlt : (v - w).natAbs < f.span.natAbs := by
    have := f.half_pos
    unfold Fits low high at hv hw
    unfold span
    omega
  have hzero := Int.eq_zero_of_dvd_of_natAbs_lt_natAbs h hlt
  omega

theorem holds_zero (f : CellFormat) : f.Holds 0 0 :=
  ⟨f.fits_zero, by simp, fun _ => rfl⟩

/-- A cell that takes a value stands for it. -/
theorem holds_of_fit? (h : f.fit? v = some w) : f.Holds v w := by
  refine ⟨fits_of_fit? h, ?_, ?_⟩
  · unfold fit? at h
    split at h
    · cases h
      simp
    · split at h
      · cases h
        exact f.dvd_wrapped_sub v
      · cases h
  · intro htrap
    unfold fit? at h
    split at h
    · exact (Option.some.inj h).symm
    · simp [htrap] at h

/-- What is added to a cell is added to what it stands for. -/
theorem Holds.add (h : f.Holds x v) (hw : f.fit? (v + d) = some w) : f.Holds (x + d) w := by
  have hnew := holds_of_fit? hw
  refine ⟨hnew.fits, ?_, ?_⟩
  · have hsum := Int.dvd_add hnew.dvd h.dvd
    have heq : w - (v + d) + (v - x) = w - (x + d) := by omega
    exact heq ▸ hsum
  · intro htrap
    rw [hnew.exact htrap, h.exact htrap]

/-- A cell stands for a number with the one value that it has for this number. -/
theorem Holds.eq_iff (h : f.Holds x v) : w = v ↔ f.Fits w ∧ f.span ∣ w - x := by
  constructor
  · rintro rfl
    exact ⟨h.fits, h.dvd⟩
  · rintro ⟨hfits, hdvd⟩
    apply hfits.eq_of_dvd h.fits
    have hdiff := Int.dvd_sub hdvd h.dvd
    have heq : w - x - (v - x) = w - v := by omega
    exact heq ▸ hdiff

end CellFormat

namespace Tape

variable {t t' : Tape} {i j v : Int}

theorem contains_put (h : t.put i v = .ok t') :
    t'.contains j = true ↔ i = j ∨ t.contains j = true := by
  obtain ⟨w, -, rfl⟩ := put_eq_ok_iff.1 h
  simp [contains]

end Tape

namespace Machine

variable {settings : Settings} {code : Code} {s s' t u : State} {i : Instruction} {n : Nat}
  {f : CellFormat} {seed : List (Int × Int)}

/-- A completed instruction, with the index of the cell it was executed at and what it read. -/
structure Event where
  instruction : Instruction
  index : Int
  read : Option CodePoint
  deriving DecidableEq

namespace Event

/-- Whether an event is a given instruction at a given cell. -/
def isAt (e : Event) (i : Instruction) (index : Int) : Bool :=
  e.instruction = i && e.index = index

/-- Whether an instruction writes to its cell. -/
def Writes (e : Event) : Prop :=
  e.instruction = .increment ∨ e.instruction = .decrement ∨ e.instruction = .input

end Event

/-- What completing an instruction in a state amounts to. -/
def eventOf (s : State) (i : Instruction) : Event :=
  ⟨i, s.idx, if i = .input then s.input.remaining.head? else none⟩

/-- The events of the first `n` completed words. -/
def history (settings : Settings) (code : Code) : Nat → State → List Event
  | 0, _ => []
  | n + 1, s =>
    match code[s.ip]?, next? settings code s with
    | some (.op i), some s' => eventOf s i :: history settings code n s'
    | _, _ => []

/-- How often an instruction was completed. -/
def completed (i : Instruction) (events : List Event) : Nat :=
  events.countP (·.instruction = i)

/-- How often an instruction was completed at a cell. -/
def completedAt (i : Instruction) (index : Int) (events : List Event) : Nat :=
  events.countP (·.isAt i index)

/-- The events after the last `,` at a cell. -/
def sinceRead (index : Int) (events : List Event) : List Event :=
  (events.reverse.takeWhile fun e => !e.isAt .input index).reverse

/-- What the last `,` at a cell read. -/
def lastRead? (index : Int) (events : List Event) : Option CodePoint :=
  (events.reverse.find? (·.isAt .input index)).bind (·.read)

/-- What a seed writes to a cell last. A cell that is not seeded holds zero. -/
def seeded (seed : List (Int × Int)) (index : Int) : Int := (seed.reverse.lookup index).getD 0

/-- The number that was put into a cell last: what `,` read, or else what was seeded. -/
def base (seed : List (Int × Int)) (index : Int) (events : List Event) : Int :=
  match lastRead? index events with
  | some c => c.val
  | none => seeded seed index

/-- The number that a cell stands for: what was put into it last, and what was added since. -/
def total (seed : List (Int × Int)) (index : Int) (events : List Event) : Int :=
  base seed index events + completedAt .increment index (sinceRead index events) -
    completedAt .decrement index (sinceRead index events)

theorem seeded_append_self (seed : List (Int × Int)) (index v : Int) :
    seeded (seed ++ [(index, v)]) index = v := by
  simp [seeded]

theorem seeded_append_of_ne {index j : Int} (h : j ≠ index) (seed : List (Int × Int)) (v : Int) :
    seeded (seed ++ [(index, v)]) j = seeded seed j := by
  have hne : (j == index) = false := beq_eq_false_iff_ne.2 h
  simp [seeded, List.lookup_cons, hne]

theorem total_nil (seed : List (Int × Int)) (index : Int) :
    total seed index [] = seeded seed index := by
  simp [total, base, lastRead?, sinceRead, completedAt]

section Append

variable {events : List Event} {e : Event} {index : Int}

theorem total_append_read {c : CodePoint} (h : e.isAt .input index = true) (hc : e.read = some c) :
    total seed index (events ++ [e]) = c.val := by
  simp [total, base, lastRead?, sinceRead, completedAt, h, hc]

theorem total_append (h : e.isAt .input index = false) :
    total seed index (events ++ [e]) =
      total seed index events + (if e.isAt .increment index then 1 else 0) -
        (if e.isAt .decrement index then 1 else 0) := by
  have hbase : base seed index (events ++ [e]) = base seed index events := by
    simp [base, lastRead?, h]
  have hsince : sinceRead index (events ++ [e]) = sinceRead index events ++ [e] := by
    simp [sinceRead, h]
  rw [total, total, hbase, hsince]
  simp only [completedAt, List.countP_append, List.countP_singleton]
  split <;> split <;> omega

theorem total_append_of_ne (h : e.index ≠ index) :
    total seed index (events ++ [e]) = total seed index events := by
  have hat : ∀ i, e.isAt i index = false := by simp [Event.isAt, h]
  rw [total_append (hat .input), hat .increment, hat .decrement]
  simp

theorem total_append_of_not_writes (h : ¬ e.Writes) :
    total seed index (events ++ [e]) = total seed index events := by
  have hat : e.isAt .increment index = false ∧ e.isAt .decrement index = false ∧
      e.isAt .input index = false := by
    simp_all [Event.isAt, Event.Writes]
  rw [total_append hat.2.2, hat.1, hat.2.1]
  simp

theorem completed_append (i : Instruction) :
    completed i (events ++ [e]) = completed i events + if e.instruction = i then 1 else 0 := by
  simp [completed, List.countP_append, List.countP_singleton]

end Append

/-- A tape and the index of its current cell are as the seed and the history of a run tell. -/
structure Tells (f : CellFormat) (seed : List (Int × Int)) (events : List Event) (tape : Tape)
    (idx : Int) : Prop where
  format_eq : tape.format = f
  idx_eq : idx = completed .moveRight events - completed .moveLeft events
  contains_iff : ∀ index, tape.contains index = true ↔
    (∃ v, (index, v) ∈ seed) ∨ ∃ e ∈ events, e.index = index ∧ e.Writes
  holds : ∀ index, f.Holds (total seed index events) (tape.get index)

theorem tells_blank (f : CellFormat) : Tells f [] [] { format := f } 0 := by
  refine ⟨rfl, rfl, ?_, ?_⟩
  · intro index
    simp [Tape.contains]
  · intro index
    have hzero : ({ format := f } : Tape).get index = 0 := by simp [Tape.get]
    rw [hzero]
    exact f.holds_zero

/-- A cell that is seeded is as the longer seed tells. -/
theorem Tells.seed_cell {tape tape' : Tape} {index v : Int} (h : Tells f seed [] tape 0)
    (hset : tape.put index v = .ok tape') : Tells f (seed ++ [(index, v)]) [] tape' 0 := by
  refine ⟨(Tape.format_put hset).trans h.format_eq, rfl, ?_, ?_⟩
  · intro j
    rw [Tape.contains_put hset, h.contains_iff]
    grind
  · intro j
    rw [total_nil]
    by_cases hj : j = index
    · subst hj
      rw [seeded_append_self]
      exact CellFormat.holds_of_fit? (h.format_eq ▸ Tape.get_put_self hset)
    · rw [seeded_append_of_ne hj, Tape.get_put_of_ne hset hj, ← total_nil]
      exact h.holds j

theorem Tells.fill {tape tape' : Tape} {cells : List (Int × Int)} (h : Tells f seed [] tape 0)
    (hfill : tape.fill cells = .ok tape') : Tells f (seed ++ cells) [] tape' 0 := by
  induction cells generalizing seed tape with
  | nil =>
    cases Except.ok.inj hfill
    rwa [List.append_nil]
  | cons cell rest ih =>
    unfold Tape.fill at hfill
    split at hfill
    · next u hu =>
      rw [List.append_cons]
      exact ih (h.seed_cell (Tape.set_eq_ok_iff.1 hu)) hfill
    · cases hfill

/-- What a completed instruction has done to the tape: it has added to the current cell, has put into
it what was read, or has left the tape alone. -/
theorem tape_of_execute {strict : Bool} (h : execute strict code s i = .ok u) :
    (∃ d, (i = .increment ∧ d = 1 ∨ i = .decrement ∧ d = -1) ∧
      s.tape.add s.idx d = .ok u.tape) ∨
    (∃ c, i = .input ∧ (eventOf s i).read = some c ∧ s.tape.put s.idx c.val = .ok u.tape) ∨
    ¬ (eventOf s i).Writes ∧ u.tape = s.tape := by
  cases effect_of_execute h with
  | add i d tape delta stored => exact .inl ⟨d, delta, stored⟩
  | store c tape read stored =>
    exact .inr (.inl ⟨c, rfl, by simp [eventOf, Source.remaining_of_read_some read], stored⟩)
  | move i d delta =>
    exact .inr (.inr ⟨by obtain ⟨rfl, -⟩ | ⟨rfl, -⟩ := delta <;> simp [Event.Writes, eventOf], rfl⟩)
  | output | enter | skip | back | leave =>
    exact .inr (.inr ⟨by simp [Event.Writes, eventOf], rfl⟩)

theorem idx_of_execute {strict : Bool} (h : execute strict code s i = .ok u) :
    u.idx = s.idx + (if i = .moveRight then 1 else 0) - (if i = .moveLeft then 1 else 0) := by
  cases effect_of_execute h with
  | move i d delta => obtain ⟨rfl, rfl⟩ | ⟨rfl, rfl⟩ := delta <;> simp <;> rfl
  | add i d tape delta => obtain ⟨rfl, -⟩ | ⟨rfl, -⟩ := delta <;> simp
  | output | store | enter | skip | back | leave => simp

/-- The cells after a write are as the longer history tells, if the written cell is. -/
theorem Tells.cells_of_put {events : List Event} {e : Event} {tape tape' : Tape} {idx v : Int}
    (hs : Tells f seed events tape idx) (hw : e.Writes) (hset : tape.put e.index v = .ok tape')
    (hv : f.Holds (total seed e.index (events ++ [e])) (tape'.get e.index)) (j : Int) :
    (tape'.contains j = true ↔
      (∃ v, (j, v) ∈ seed) ∨ ∃ e' ∈ events ++ [e], e'.index = j ∧ e'.Writes) ∧
    f.Holds (total seed j (events ++ [e])) (tape'.get j) := by
  constructor
  · rw [Tape.contains_put hset, hs.contains_iff]
    grind
  · by_cases hj : j = e.index
    · exact hj ▸ hv
    · rw [total_append_of_ne (Ne.symm hj), Tape.get_put_of_ne hset hj]
      exact hs.holds j

/-- A completed instruction leaves the cells as the longer history tells. -/
theorem Tells.cells_of_execute {strict : Bool} {events : List Event}
    (hs : Tells f seed events s.tape s.idx) (h : execute strict code s i = .ok u) (j : Int) :
    (u.tape.contains j = true ↔
      (∃ v, (j, v) ∈ seed) ∨ ∃ e ∈ events ++ [eventOf s i], e.index = j ∧ e.Writes) ∧
    f.Holds (total seed j (events ++ [eventOf s i])) (u.tape.get j) := by
  obtain ⟨d, hd, hset⟩ | ⟨c, rfl, hc, hset⟩ | ⟨hw, ht⟩ := tape_of_execute h
  · -- An addition is a write of the sum, and the history counts it once.
    have hw : (eventOf s i).Writes := by
      obtain ⟨rfl, -⟩ | ⟨rfl, -⟩ := hd <;> simp [Event.Writes, eventOf]
    have htotal : total seed s.idx (events ++ [eventOf s i]) = total seed s.idx events + d := by
      obtain ⟨rfl, rfl⟩ | ⟨rfl, rfl⟩ := hd
      all_goals
        rw [total_append (by simp [Event.isAt, eventOf])]
        simp [Event.isAt, eventOf]
      omega
    refine hs.cells_of_put hw hset ?_ j
    change f.Holds (total seed s.idx _) _
    rw [htotal]
    exact (hs.holds s.idx).add (hs.format_eq ▸ Tape.get_put_self hset)
  · refine hs.cells_of_put (.inr (.inr rfl)) hset ?_ j
    change f.Holds (total seed s.idx _) _
    rw [total_append_read (by simp [Event.isAt, eventOf]) hc]
    exact CellFormat.holds_of_fit? (hs.format_eq ▸ Tape.get_put_self hset)
  · rw [ht, total_append_of_not_writes hw, hs.contains_iff]
    exact ⟨by grind, hs.holds j⟩

/-- A completed instruction leaves tape and index as the longer history tells. -/
theorem Tells.of_execute {strict : Bool} {events : List Event}
    (hs : Tells f seed events s.tape s.idx) (h : execute strict code s i = .ok u) :
    Tells f seed (events ++ [eventOf s i]) u.tape u.idx := by
  refine ⟨(execute_keeps h).1.trans hs.format_eq, ?_, fun j => (hs.cells_of_execute h j).1,
    fun j => (hs.cells_of_execute h j).2⟩
  have hi : (eventOf s i).instruction = i := rfl
  rw [idx_of_execute h, hs.idx_eq, completed_append, completed_append, hi]
  split <;> split <;> omega

/-- Every state of a run is as its history tells. -/
theorem Tells.of_after {events : List Event} (hs : Tells f seed events s.tape s.idx)
    (h : after settings code n s = some t) :
    Tells f seed (events ++ history settings code n s) t.tape t.idx := by
  induction n generalizing s events with
  | zero =>
    cases Option.some.inj h
    simpa [history] using hs
  | succ n ih =>
    obtain ⟨s', hn, hr⟩ := Option.bind_eq_some_iff.1 h
    obtain ⟨i, u, hi, he, rfl⟩ := next?_eq_some_iff.1 hn
    have hhistory : history settings code (n + 1) s =
        eventOf s i :: history settings code n u.advance := by
      simp [history, hi, hn]
    have hu := hs.of_execute he
    rw [hhistory, List.append_cons]
    exact ih (s := u.advance) hu hr

/-- The tape is the history of its writes. In every state that a run can reach, the index of the
current cell is the number of `>` less that of `<`. The cells that are kept are those that were seeded
or at which a `+`, a `-` or a `,` was completed, and no other instruction changes the tape. A cell holds
what was put into it last, by `,` or by the seed, plus the `+` and less the `-` completed there since:
modulo the number of its values if it wraps, and exactly if it refuses what does not fit. -/
theorem tape_tells_history (p : Program) (settings : Settings) (seed : List (Int × Int)) (tape : Tape)
    (input : Source) (n : Nat) (t : State)
    (hseed : ({ format := settings.format } : Tape).fill seed = .ok tape)
    (h : after settings p.code n { tape, input } = some t) :
    let events := history settings p.code n { tape, input }
    t.idx = completed .moveRight events - completed .moveLeft events ∧
    (∀ index, t.tape.contains index = true ↔
      (∃ v, (index, v) ∈ seed) ∨ ∃ e ∈ events, e.index = index ∧
        (e.instruction = .increment ∨ e.instruction = .decrement ∨ e.instruction = .input)) ∧
    (∀ i t', p.code[t.ip]? = some (.op i) → next? settings p.code t = some t' →
      i ≠ .increment → i ≠ .decrement → i ≠ .input → t'.tape = t.tape) ∧
    ∀ index,
      let since := sinceRead index events
      let sum := base seed index events + completedAt .increment index since -
        completedAt .decrement index since
      (settings.overflow = .wrap → ∀ v, v = t.tape.get index ↔
        -(Nat.pow 2 (settings.cellBits - 1) : Nat) ≤ v ∧
          v ≤ (Nat.pow 2 (settings.cellBits - 1) : Nat) - 1 ∧
          ((Nat.pow 2 settings.cellBits : Nat) : Int) ∣ v - sum) ∧
      (settings.overflow = .trap → t.tape.get index = sum) := by
  intro events
  have htells : Tells settings.format seed events t.tape t.idx := by
    have hstart := (tells_blank settings.format).fill hseed
    exact hstart.of_after (s := { tape, input }) h
  refine ⟨htells.idx_eq, htells.contains_iff, ?_, ?_⟩
  · intro i t' hi hn hinc hdec hin
    obtain ⟨j, u, hj, he, rfl⟩ := next?_eq_some_iff.1 hn
    cases hi.symm.trans hj
    obtain ⟨d, hd, -⟩ | ⟨c, hc, -⟩ | ⟨-, ht⟩ := tape_of_execute he
    · obtain ⟨rfl, -⟩ | ⟨rfl, -⟩ := hd
      · exact absurd rfl hinc
      · exact absurd rfl hdec
    · exact absurd hc hin
    · exact ht
  · intro index since sum
    have hholds := htells.holds index
    refine ⟨?_, hholds.exact⟩
    intro _ v
    rw [hholds.eq_iff, CellFormat.span_eq]
    exact and_assoc

/-- In `++>,+<` with 8-bit cells that wrap, a cell seeded with 127 comes to stand for 129, and one that
has read `a` for 98; a seeded cell that is never visited is kept. -/
theorem tape_tells_history_wrapped :
    let p : Program := ⟨#[.increment, .increment, .moveRight, .input, .increment, .moveLeft]⟩
    let settings : Settings := { cellBits := 8 }
    let tape : Tape :=
      ⟨settings.format, (Std.ExtTreeMap.empty.insert 0 127).insert 5 3⟩
    let input := Source.ofText (Text.ofString "a")
    ∃ t, ({ format := settings.format } : Tape).fill [(0, 127), (5, 3)] = .ok tape ∧
      after settings p.code 6 { tape, input } = some t ∧ t.idx = 0 ∧ t.tape.get 0 = -127 ∧
      t.tape.get 1 = 98 ∧ t.tape.contains 5 = true ∧ t.tape.contains 2 = false := by
  intro p settings tape input
  have hsome : (after settings p.code 6 { tape, input }).isSome = true := by decide +kernel
  obtain ⟨t, ht⟩ := Option.isSome_iff_exists.1 hsome
  have hevents : history settings p.code 6 { tape, input } =
      [⟨.increment, 0, none⟩, ⟨.increment, 0, none⟩, ⟨.moveRight, 0, none⟩,
        ⟨.input, 1, some (CodePoint.ofChar 'a')⟩, ⟨.increment, 1, none⟩, ⟨.moveLeft, 1, none⟩] := by
    decide +kernel
  obtain ⟨hidx, hkept, -, hcells⟩ :=
    tape_tells_history p settings [(0, 127), (5, 3)] tape input 6 t rfl ht
  rw [hevents] at hidx hkept hcells
  refine ⟨t, rfl, ht, hidx, ?_, ?_, ?_, ?_⟩
  · exact (((hcells 0).1 rfl (-127)).2 (by decide)).symm
  · exact (((hcells 1).1 rfl 98).2 (by decide)).symm
  · exact (hkept 5).2 (by simp)
  · rw [← Bool.not_eq_true, hkept]
    simp

end Machine

end TapeMachine
