import TapeMachine.Proofs.LastStep

/-!
What the cells of a run hold. A tape that is filled by writes holds only values that fit into its cells,
and a run only ever writes; so every cell that a run reads fits (`Machine.reached_after`).
-/
namespace TapeMachine

theorem CellFormat.fits_zero (f : CellFormat) : f.Fits 0 := by
  have hh := f.half_pos
  unfold Fits low high
  omega

/-- The cells of a machine have no more than 64 bits. -/
theorem Settings.natAbs_le_of_fits {s : Settings} {v : Int} (h : s.format.Fits v) :
    v.natAbs ≤ 0x8000000000000000 := by
  have hbits := s.cellBits_le
  have hhalf : s.format.half ≤ 2 ^ 63 :=
    Nat.pow_le_pow_right (by decide) (by simp only [Settings.format]; omega)
  have hlow := h.1
  have hhigh := h.2
  unfold CellFormat.low at hlow
  unfold CellFormat.high at hhigh
  omega

namespace Tape

/-- Tapes of a format that are filled by writes. To add to a cell is to write it. -/
inductive Reached (f : CellFormat) : Tape → Prop where
  | blank : Reached f { format := f }
  | set {t t' : Tape} {i v : Int} (before : Reached f t) (write : t.set i v = .ok t') : Reached f t'

variable {f : CellFormat} {t : Tape}

/-- What is stored in a cell fits into it. -/
theorem Reached.fits (h : Reached f t) : t.format = f ∧ ∀ c ∈ t.cells, f.Fits c.2 := by
  induction h with
  | blank =>
    refine ⟨rfl, fun c hc => ?_⟩
    rw [mem_cells_iff] at hc
    simp at hc
  | set before write ih =>
    obtain ⟨w, hw, rfl⟩ := put_eq_ok_iff.1 (set_eq_ok_iff.1 write)
    refine ⟨ih.1, fun c hc => ?_⟩
    rw [mem_cells_iff, Std.ExtTreeMap.getElem?_insert] at hc
    split at hc
    · exact Option.some.inj hc ▸ CellFormat.fits_of_fit? (ih.1 ▸ hw)
    · exact ih.2 c (mem_cells_iff.2 hc)

theorem Reached.fits_get (h : Reached f t) (i : Int) : f.Fits (t.get i) := by
  unfold get
  cases hi : t.stored[i]? with
  | none => exact f.fits_zero
  | some v => exact h.fits.2 (i, v) (mem_cells_iff.2 hi)

end Tape

namespace Machine

variable {settings : Settings} {code : Code} {s t u : State} {strict : Bool} {i : Instruction}
  {f : CellFormat} {n : Nat}

/-- A completed instruction writes the value it was about to write, and nothing else. -/
theorem execute_writes (h : execute strict code s i = .ok u) :
    (written? s i = none ∧ u.tape = s.tape) ∨
      ∃ v, written? s i = some v ∧ s.tape.put s.idx v = .ok u.tape := by
  cases effect_of_execute h with
  | add i d tape delta stored =>
    obtain ⟨rfl, rfl⟩ | ⟨rfl, rfl⟩ := delta <;> exact .inr ⟨_, rfl, stored⟩
  | store c tape read stored =>
    exact .inr ⟨c.val, by simp [written?, Source.remaining_of_read_some read], stored⟩
  | move i d delta => obtain ⟨rfl, -⟩ | ⟨rfl, -⟩ := delta <;> exact .inl ⟨rfl, rfl⟩
  | output | enter | skip | back | leave => exact .inl ⟨rfl, rfl⟩

theorem reached_after (hs : Tape.Reached f s.tape) (h : after settings code n s = some t) :
    Tape.Reached f t.tape := by
  refine after_invariant (P := fun u => Tape.Reached f u.tape) ?_ hs h
  intro r r' hr hn
  obtain ⟨i, u, -, he, rfl⟩ := next?_eq_some_iff.1 hn
  have hadvance : u.advance.tape = u.tape := rfl
  rw [hadvance]
  obtain ⟨-, hu⟩ | ⟨v, -, hu⟩ := execute_writes he
  · exact hu ▸ hr
  · exact .set hr (Tape.set_eq_ok_iff.2 hu)

end Machine

end TapeMachine
