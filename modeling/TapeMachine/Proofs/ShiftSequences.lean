import Mathlib.Data.List.Dedup
import TapeMachine.Proofs.TapeOperations

/-!
Sequences of shifts. A cell that is shifted several times holds what one shift by the sum would have
stored, since bringing a value back into range does not change what can be added to it later. So what a
sequence leaves depends only on which cells it touches and on the sum for each of them
(`shifts_fuse_and_commute`).
-/
namespace TapeMachine

namespace CellFormat

variable {f : CellFormat} {v w x : Int}

/-- Congruent values are stored alike in cells that wrap. -/
theorem wrapped_eq_of_dvd (h : f.span ∣ v - w) : f.wrapped v = f.wrapped w := by
  apply (f.fits_wrapped v).eq_of_dvd (f.fits_wrapped w)
  have hv := f.dvd_wrapped_sub v
  have hw := f.dvd_wrapped_sub w
  have heq : f.wrapped v - f.wrapped w = (f.wrapped v - v) + (v - w) - (f.wrapped w - w) := by omega
  rw [heq]
  exact Int.dvd_sub (Int.dvd_add hv h) hw

theorem fit?_of_wrap (h : f.overflow = .wrap) (v : Int) : f.fit? v = some (f.wrapped v) := by
  unfold fit?
  split
  · next hv => rw [wrapped_of_fits hv]
  · rw [h]

/-- To add to what was stored is to add to what was written. -/
theorem fit?_add (h : f.fit? v = some w) (x : Int) : f.fit? (w + x) = f.fit? (v + x) := by
  have hholds := holds_of_fit? h
  cases hmode : f.overflow with
  | trap => rw [hholds.exact hmode]
  | wrap =>
    rw [fit?_of_wrap hmode, fit?_of_wrap hmode, wrapped_eq_of_dvd]
    have heq : w + x - (v + x) = w - v := by omega
    exact heq ▸ hholds.dvd

end CellFormat

namespace Tape

variable {t t' : Tape} {i j d w : Int} {l l' single : List (Int × Int)}

/-- Shifts as operations, each of them a cell and what is added to it. -/
def shifts (l : List (Int × Int)) : List Operation := l.map fun s => .shift s.1 s.2

/-- The cells that shifts touch. -/
def touched (l : List (Int × Int)) : List Int := l.map (·.1)

/-- The sum of what shifts add to a cell. -/
def sumAt (i : Int) : List (Int × Int) → Int
  | [] => 0
  | s :: l => (if s.1 = i then s.2 else 0) + sumAt i l

/-- The tape after shifts. -/
def shifted (t : Tape) (l : List (Int × Int)) : Tape := (t.performAll (shifts l)).2

/-- Whether none of the shifts is refused. -/
def Completes (t : Tape) (l : List (Int × Int)) : Prop :=
  ∀ answer ∈ (t.performAll (shifts l)).1, answer.isOk = true

instance (t : Tape) (l : List (Int × Int)) : Decidable (t.Completes l) :=
  inferInstanceAs (Decidable (∀ answer ∈ (t.performAll (shifts l)).1, answer.isOk = true))

/-- Two sequences of shifts that touch the same cells and add the same to each of them in all. -/
structure SameSums (l l' : List (Int × Int)) : Prop where
  touched_iff : ∀ i, i ∈ touched l ↔ i ∈ touched l'
  sumAt_eq : ∀ i, sumAt i l = sumAt i l'

/-- A sequence that has one shift, by the sum, for each cell that another one touches. -/
structure Fuses (single l : List (Int × Int)) : Prop where
  nodup : (touched single).Nodup
  same : SameSums single l

/-- One shift by the sum for each cell that is touched. -/
def fused (l : List (Int × Int)) : List (Int × Int) := (touched l).dedup.map fun i => (i, sumAt i l)

theorem sumAt_cons_self (i d : Int) (l : List (Int × Int)) : sumAt i ((i, d) :: l) = d + sumAt i l := by
  simp [sumAt]

theorem sumAt_cons_of_ne (h : j ≠ i) (d : Int) (l : List (Int × Int)) :
    sumAt j ((i, d) :: l) = sumAt j l := by
  simp [sumAt, Ne.symm h]

theorem nodup_touched_cons {s : Int × Int} :
    (touched (s :: l)).Nodup ↔ s.1 ∉ touched l ∧ (touched l).Nodup :=
  List.nodup_cons

theorem mem_touched (h : (i, d) ∈ l) : i ∈ touched l := List.mem_map.2 ⟨(i, d), h, rfl⟩

theorem sumAt_eq_zero (h : i ∉ touched l) : sumAt i l = 0 := by
  induction l with
  | nil => rfl
  | cons s l ih =>
    obtain ⟨hne, hl⟩ := not_or.1 fun hs => h (List.mem_cons.2 hs)
    rw [sumAt_cons_of_ne hne, ih hl]

/-- A cell that is touched once gets what that shift adds. -/
theorem sumAt_of_mem (hnodup : (touched l).Nodup) (h : (i, d) ∈ l) : sumAt i l = d := by
  induction l with
  | nil => cases h
  | cons s l ih =>
    obtain ⟨hs, hl⟩ := nodup_touched_cons.1 hnodup
    rcases List.mem_cons.1 h with rfl | hmem
    · rw [sumAt_cons_self, sumAt_eq_zero hs, Int.add_zero]
    · have hne : i ≠ s.1 := fun he => hs (he ▸ mem_touched hmem)
      rw [sumAt_cons_of_ne hne, ih hl hmem]

theorem SameSums.symm (h : SameSums l l') : SameSums l' l :=
  ⟨fun i => (h.touched_iff i).symm, fun i => (h.sumAt_eq i).symm⟩

theorem SameSums.trans {l'' : List (Int × Int)} (h : SameSums l l') (h' : SameSums l' l'') :
    SameSums l l'' :=
  ⟨fun i => (h.touched_iff i).trans (h'.touched_iff i), fun i => (h.sumAt_eq i).trans (h'.sumAt_eq i)⟩

/-- The order of shifts does not matter to their sums. -/
theorem SameSums.of_perm (h : l.Perm l') : SameSums l l' := by
  refine ⟨fun i => (h.map _).mem_iff, fun i => ?_⟩
  induction h with
  | nil => rfl
  | cons s _ ih => simp only [sumAt, ih]
  | swap s s' l =>
    simp only [sumAt]
    omega
  | trans _ _ ih ih' => exact ih.trans ih'

/-- Two shifts of one cell add what one shift by their sum adds. -/
theorem SameSums.fuse (i d d' : Int) (l : List (Int × Int)) :
    SameSums ((i, d) :: (i, d') :: l) ((i, d + d') :: l) := by
  constructor
  · intro j
    simp [touched]
  · intro j
    by_cases hj : j = i
    · subst hj
      rw [sumAt_cons_self, sumAt_cons_self, sumAt_cons_self, Int.add_assoc]
    · rw [sumAt_cons_of_ne hj, sumAt_cons_of_ne hj, sumAt_cons_of_ne hj]

theorem touched_fused (l : List (Int × Int)) : touched (fused l) = (touched l).dedup := by
  simp [touched, fused, Function.comp_def]

theorem fuses_fused (l : List (Int × Int)) : Fuses (fused l) l := by
  have hnodup : (touched (fused l)).Nodup := touched_fused l ▸ List.nodup_dedup _
  have hmem : ∀ i, i ∈ touched (fused l) ↔ i ∈ touched l := by
    intro i
    rw [touched_fused, List.mem_dedup]
  refine ⟨hnodup, hmem, fun i => ?_⟩
  by_cases hi : i ∈ touched l
  · exact sumAt_of_mem hnodup (List.mem_map.2 ⟨i, List.mem_dedup.2 hi, rfl⟩)
  · rw [sumAt_eq_zero hi, sumAt_eq_zero fun hi' => hi ((hmem i).1 hi')]

/-- A sum is stored if the cell takes it. -/
theorem add_of_fit? (h : t.format.fit? (t.get i + d) = some w) :
    t.add i d = .ok { t with stored := t.stored.insert i w } :=
  put_eq_ok_iff.2 ⟨w, h, rfl⟩

theorem shift_eq_ok_iff : t.shift i d = .ok t' ↔ t.add i d = .ok t' := set_eq_ok_iff

/-- After a shift that is not refused, the others go on from its tape. -/
theorem shifted_cons (h : t.add i d = .ok t') (l : List (Int × Int)) :
    t.shifted ((i, d) :: l) = t'.shifted l := by
  have hcons : t.shifted ((i, d) :: l) = (t.written (t.shift i d)).2.shifted l := rfl
  rw [hcons, shift_eq_ok_iff.2 h]
  rfl

theorem completes_cons_iff :
    t.Completes ((i, d) :: l) ↔ ∃ t', t.add i d = .ok t' ∧ t'.Completes l := by
  have hcons : (t.performAll (shifts ((i, d) :: l))).1 =
      (t.written (t.shift i d)).1 :: ((t.written (t.shift i d)).2.performAll (shifts l)).1 := rfl
  simp only [Completes, hcons, List.forall_mem_cons, ← shift_eq_ok_iff]
  cases hshift : t.shift i d with
  | error e => simp [written, Except.isOk, Except.toBool]
  | ok t' => simp [written, Except.isOk, Except.toBool]

theorem completes_nil (t : Tape) : t.Completes [] := List.forall_mem_nil _

/-- In cells that wrap, no shift is refused. -/
theorem completes_of_wrap (h : t.format.overflow = .wrap) (l : List (Int × Int)) : t.Completes l := by
  induction l generalizing t with
  | nil => exact t.completes_nil
  | cons s l ih => exact completes_cons_iff.2 ⟨_, add_of_fit? (CellFormat.fit?_of_wrap h _), ih h⟩

/-- After shifts, a cell that was touched holds what one shift by the sum stores, and all others are as
they were. -/
theorem stored_shifted (h : t.Completes l) (j : Int) :
    (j ∈ touched l → ∃ w, t.format.fit? (t.get j + sumAt j l) = some w ∧
      (t.shifted l).stored[j]? = some w) ∧
    (j ∉ touched l → (t.shifted l).stored[j]? = t.stored[j]?) := by
  induction l generalizing t with
  | nil => exact ⟨fun hj => absurd hj List.not_mem_nil, fun _ => rfl⟩
  | cons s l ih =>
    obtain ⟨i, d⟩ := s
    obtain ⟨t', hadd, hrest⟩ := completes_cons_iff.1 h
    obtain ⟨htouched, huntouched⟩ := ih hrest
    rw [format_put hadd] at htouched
    rw [shifted_cons hadd]
    have hi := get_put_self hadd
    by_cases hj : j = i
    · subst hj
      refine ⟨fun _ => ?_, fun hnot => absurd List.mem_cons_self hnot⟩
      rw [sumAt_cons_self, ← Int.add_assoc, ← CellFormat.fit?_add hi]
      by_cases hl : j ∈ touched l
      · exact htouched hl
      · -- The cell is not touched again, and holds what was just stored.
        refine ⟨t'.get j, ?_, ?_⟩
        · rw [sumAt_eq_zero hl, CellFormat.fit?_add hi, Int.add_zero, hi]
        · obtain ⟨w, hw, rfl⟩ := put_eq_ok_iff.1 hadd
          rw [huntouched hl]
          simp [get]
    · have hget : t'.get j = t.get j := get_put_of_ne hadd hj
      have hstored : t'.stored[j]? = t.stored[j]? := by
        obtain ⟨w, -, rfl⟩ := put_eq_ok_iff.1 hadd
        simp [Std.ExtTreeMap.getElem?_insert, Ne.symm hj]
      rw [sumAt_cons_of_ne hj, ← hget, ← hstored]
      have hmem : j ∈ touched ((i, d) :: l) ↔ j ∈ touched l := by simp [touched, hj]
      rw [hmem]
      exact ⟨htouched, huntouched⟩

theorem format_shifted (h : t.Completes l) : (t.shifted l).format = t.format := by
  induction l generalizing t with
  | nil => rfl
  | cons s l ih =>
    obtain ⟨t', hadd, hrest⟩ := completes_cons_iff.1 h
    rw [shifted_cons hadd, ih hrest, format_put hadd]

/-- Shifts with the same sums that are not refused leave the same tape. -/
theorem shifted_eq (hsums : SameSums l l') (h : t.Completes l) (h' : t.Completes l') :
    t.shifted l = t.shifted l' := by
  have hstored : (t.shifted l).stored = (t.shifted l').stored := by
    apply Std.ExtTreeMap.ext_getElem?
    intro j
    obtain ⟨htouched, huntouched⟩ := stored_shifted h j
    obtain ⟨htouched', huntouched'⟩ := stored_shifted h' j
    by_cases hj : j ∈ touched l
    · obtain ⟨w, hfit, hw⟩ := htouched hj
      obtain ⟨w', hfit', hw'⟩ := htouched' ((hsums.touched_iff j).1 hj)
      rw [hsums.sumAt_eq j, hfit'] at hfit
      rw [hw, hw', hfit]
    · rw [huntouched hj, huntouched' fun hj' => hj ((hsums.touched_iff j).2 hj')]
  have hformat : (t.shifted l).format = (t.shifted l').format :=
    (format_shifted h).trans (format_shifted h').symm
  calc t.shifted l = ⟨(t.shifted l).format, (t.shifted l).stored⟩ := rfl
    _ = t.shifted l' := by rw [hformat, hstored]

/-- Shifts of different cells are done if each of them is done alone. -/
theorem completes_of_nodup (hnodup : (touched l).Nodup)
    (h : ∀ s ∈ l, ∃ w, t.format.fit? (t.get s.1 + s.2) = some w) : t.Completes l := by
  induction l generalizing t with
  | nil => exact t.completes_nil
  | cons s l ih =>
    obtain ⟨hs, hl⟩ := nodup_touched_cons.1 hnodup
    obtain ⟨⟨w, hw⟩, hrest⟩ := List.forall_mem_cons.1 h
    have hadd := add_of_fit? hw
    refine completes_cons_iff.2 ⟨_, hadd, ih hl ?_⟩
    intro s' hs'
    have hne : s'.1 ≠ s.1 := fun he => hs (he ▸ mem_touched hs')
    rw [get_put_of_ne hadd hne]
    exact hrest s' hs'

/-- One shift for each cell is done if any shifts with the same sums are. -/
theorem Fuses.completes (h : Fuses single l) (hl : t.Completes l) : t.Completes single := by
  apply completes_of_nodup h.nodup
  intro s hs
  have htouched : s.1 ∈ touched l := (h.same.touched_iff s.1).1 (mem_touched hs)
  obtain ⟨w, hw, -⟩ := (stored_shifted hl s.1).1 htouched
  rw [← h.same.sumAt_eq, sumAt_of_mem h.nodup hs] at hw
  exact ⟨w, hw⟩

/-- Shifts fuse and commute. If two sequences touch the same cells and add the same to each of them in
all, they leave the same tape: in cells that wrap always, and in cells that refuse if none of the shifts
of either is refused. One shift by the sum for each cell, in any order, is not refused if there is any
sequence with these sums that is not. -/
theorem shifts_fuse_and_commute (t : Tape) (l l' : List (Int × Int)) (h : SameSums l l') :
    (t.format.overflow = .wrap → t.Completes l ∧ t.Completes l' ∧ t.shifted l = t.shifted l') ∧
    (t.format.overflow = .trap → t.Completes l → t.Completes l' → t.shifted l = t.shifted l') ∧
    Fuses (fused l) l ∧
    ∀ single, Fuses single l → t.Completes l' → t.Completes single ∧ t.shifted single = t.shifted l' := by
  refine ⟨?_, ?_, fuses_fused l, ?_⟩
  · intro hwrap
    have hl := completes_of_wrap hwrap l
    have hl' := completes_of_wrap hwrap l'
    exact ⟨hl, hl', shifted_eq h hl hl'⟩
  · intro _ hl hl'
    exact shifted_eq h hl hl'
  · intro single hfuses hl'
    have hsums := hfuses.same.trans h
    have hsingle : t.Completes single := Fuses.completes ⟨hfuses.nodup, hsums⟩ hl'
    exact ⟨hsingle, shifted_eq hsums hsingle hl'⟩

/-- In cells of 8 bits that refuse, 100 can be added to a cell twice and 150 taken away only in an order
in which the second 100 comes last. One shift by 50 does the same. -/
theorem shifts_fuse_and_commute_order :
    let t : Tape := { format := ⟨8, .trap, Nat.le_of_ble_eq_true rfl⟩ }
    let early := [(0, 100), (0, 100), (0, -150), (5, 3)]
    let late := [(0, 100), (0, -150), (0, 100), (5, 3)]
    let single := [(0, 50), (5, 3)]
    SameSums early late ∧ Fuses single early ∧ ¬ t.Completes early ∧ t.Completes late ∧
      t.Completes single ∧ t.shifted single = t.shifted late ∧
      (t.shifted single).cells = [(0, 50), (5, 3)] := by
  intro t early late single
  have hsums : SameSums early late := .of_perm (by decide)
  have hfuses : Fuses single early := by
    have hfirst : SameSums late [(0, -50), (0, 100), (5, 3)] := SameSums.fuse 0 100 (-150) _
    have hsecond : SameSums [(0, -50), (0, 100), (5, 3)] single := SameSums.fuse 0 (-50) 100 _
    exact ⟨by decide, (hsums.trans (hfirst.trans hsecond)).symm⟩
  have hlate : t.Completes late := by decide +kernel
  obtain ⟨hsingle, heq⟩ := (shifts_fuse_and_commute t early late hsums).2.2.2 single hfuses hlate
  exact ⟨hsums, hfuses, by decide +kernel, hlate, hsingle, heq, by decide +kernel⟩

end Tape

end TapeMachine
