import TapeMachine.Proofs.Trajectory

/-!
Runs in cells of different formats. As long as no value is refused, cells that refuse what does not fit
hold what wrapping cells of that width, or wider cells of either kind, would hold. A run in them is
therefore the run in those, up to its first overflow (`trap_agrees_until_overflow`).
-/
namespace TapeMachine

namespace CellFormat

variable {f g : CellFormat} {v w : Int}

/-- Whether a format refuses what does not fit, and the other one is at least as wide. -/
structure Within (f g : CellFormat) : Prop where
  trap : f.overflow = .trap
  bits_le : f.bits ≤ g.bits

theorem half_le (h : f.bits ≤ g.bits) : f.half ≤ g.half :=
  Nat.pow_le_pow_right (by decide) (by omega)

theorem Fits.of_bits_le (hv : f.Fits v) (h : f.bits ≤ g.bits) : g.Fits v := by
  have hh := half_le h
  unfold Fits low high at *
  omega

/-- What a refusing cell takes, it takes as it is, and so does a wider one. -/
theorem Within.fit?_eq (h : f.Within g) (hv : f.fit? v = some w) : g.fit? v = some w := by
  unfold fit? at hv
  split at hv
  next hf =>
    rw [fit?, if_pos (hf.of_bits_le h.bits_le)]
    exact hv
  next => simp [h.trap] at hv

end CellFormat

/-- The same cells in another format. -/
def Tape.recast (t : Tape) (g : CellFormat) : Tape := { t with format := g }

/-- The same state, but for the format of the cells. -/
def State.recast (s : State) (g : CellFormat) : State := { s with tape := s.tape.recast g }

@[simp] theorem State.cell_recast (s : State) (g : CellFormat) : (s.recast g).cell = s.cell := rfl

theorem Tape.put_recast {t t' : Tape} {g : CellFormat} {i v : Int} (hw : t.format.Within g)
    (h : t.put i v = .ok t') : (t.recast g).put i v = .ok (t'.recast g) := by
  obtain ⟨w, hv, rfl⟩ := Tape.put_eq_ok_iff.1 h
  exact Tape.put_eq_ok_iff.2 ⟨w, hw.fit?_eq hv, rfl⟩

/-- Whether a run stops because a value did not fit. -/
def Stop.IsOverflow (stop : Stop) : Prop :=
  ∃ index value bits ip idx, stop = .fault ⟨.cellOverflow index value bits, ip, idx⟩

namespace Machine

variable {settings settings' : Settings} {code : Code} {p : Program} {s t u : State} {g : CellFormat}
  {i : Instruction} {strict : Bool} {n : Nat} {stop : Option Stop}

/-- The result of an instruction in cells of another format. -/
def recastResult (g : CellFormat) : Except Failure State → Except Failure State
  | .ok u => .ok (u.recast g)
  | .error e => .error ⟨e.stop, e.state.recast g⟩

theorem isOverflow_fault (o : Overflow) (ip : Option Int) : (Stop.fault (o.fault ip)).IsOverflow :=
  ⟨_, _, _, _, _, rfl⟩

/-- A write that is not refused goes the same way in a wider format. -/
theorem stored_recast {v : Int} (hw : s.tape.format.Within g)
    (hno : ∀ e, stored s (s.tape.put s.idx v) = .error e → ¬ e.stop.IsOverflow) :
    stored (s.recast g) ((s.recast g).tape.put s.idx v) =
      recastResult g (stored s (s.tape.put s.idx v)) := by
  cases hs : s.tape.put s.idx v with
  | error o => exact absurd (isOverflow_fault o _) (hno _ (by rw [hs]; rfl))
  | ok t =>
    have ht : (s.recast g).tape.put s.idx v = .ok (t.recast g) := Tape.put_recast hw hs
    rw [ht]
    rfl

/-- An instruction that does not overflow does the same in a wider format. -/
theorem execute_recast (hw : s.tape.format.Within g)
    (hno : ∀ e, execute strict code s i = .error e → ¬ e.stop.IsOverflow) :
    execute strict code (s.recast g) i = recastResult g (execute strict code s i) := by
  cases i with
  | increment | decrement => exact stored_recast hw hno
  | moveRight | moveLeft => rfl
  | output =>
    simp only [execute, State.cell_recast]
    cases scalar? s.cell <;> rfl
  | input =>
    have hr : (s.recast g).input = s.input := rfl
    simp only [execute, hr] at hno ⊢
    cases hc : s.input.read.1 with
    | error e => rfl
    | ok c =>
      rw [hc] at hno
      cases c with
      | none => rfl
      | some c => exact stored_recast (s := { s with input := s.input.read.2 }) hw hno
  | loopOpen =>
    have hr : (s.recast g).ip = s.ip := rfl
    simp only [execute, State.cell_recast, hr]
    split
    · cases matchingClose code s.ip <;> rfl
    · rfl
  | loopClose =>
    have hr : (s.recast g).stack = s.stack := rfl
    simp only [execute, State.cell_recast, hr]
    cases s.stack with
    | nil => rfl
    | cons top below =>
      simp only
      split <;> rfl

/-- Two states of runs in different formats that have gone the same way. -/
structure Recast (g : CellFormat) (s t : State) : Prop where
  within : s.tape.format.Within g
  eq_recast : t = s.recast g

/-- A completed instruction is also completed in a wider format. -/
theorem Recast.of_next? (hs : settings'.strictLoops = settings.strictLoops) (h : Recast g s t)
    (hn : next? settings code s = some u) :
    ∃ u', next? settings' code t = some u' ∧ Recast g u u' := by
  obtain ⟨hw, rfl⟩ := h
  obtain ⟨i, v, hi, he, rfl⟩ := next?_eq_some_iff.1 hn
  have hr : execute settings'.strictLoops code (s.recast g) i = .ok (v.recast g) := by
    rw [hs, execute_recast hw (by simp [he]), he]
    rfl
  refine ⟨(v.recast g).advance, next?_eq_some_iff.2 ⟨i, v.recast g, hi, hr, rfl⟩, ?_, rfl⟩
  exact (execute_keeps he).1.symm ▸ hw

/-- A run that ends, and not by an overflow, ends alike in a wider format. -/
theorem Recast.halt?_eq (hs : settings'.strictLoops = settings.strictLoops) (h : Recast g s t)
    (hh : halt? settings p.code s = some (stop, u)) (hno : ∀ e ∈ stop, ¬ e.IsOverflow) :
    halt? settings' p.code t = some (stop, u.recast g) := by
  obtain ⟨hw, rfl⟩ := h
  obtain ⟨hc, rfl, rfl⟩ | ⟨w, hc, -, -⟩ | ⟨i, e, hi, he, rfl, rfl⟩ := halt?_cases hh
  · exact halt?_end hc
  · exact absurd hc (p.getElem?_code_ne_foreign _ w)
  · have hr : execute settings'.strictLoops p.code (s.recast g) i =
        .error ⟨e.stop, e.state.recast g⟩ := by
      rw [hs, execute_recast hw (by simpa [he] using hno), he]
      rfl
    exact halt?_op_error (s := s.recast g) hi hr

/-- Cells that refuse what does not fit and cells that are at least as wide, of either kind, make no
difference before the first overflow: the runs go through the same states, and a run that ends in any
other way ends so in both. -/
theorem trap_agrees_until_overflow (p : Program) (settings settings' : Settings)
    (htrap : settings.overflow = .trap) (hbits : settings.cellBits ≤ settings'.cellBits)
    (hstrict : settings'.strictLoops = settings.strictLoops)
    (stored : Std.ExtTreeMap Int Int compare) (input : Source) :
    let tape : Tape := { format := settings.format, stored }
    let tape' : Tape := { format := settings'.format, stored }
    (∀ n s, after settings p.code n { tape, input } = some s →
      ∃ s', after settings' p.code n { tape := tape', input } = some s' ∧
        s'.ip = s.ip ∧ s'.idx = s.idx ∧ s'.stack = s.stack ∧ s'.tape.cells = s.tape.cells ∧
        s'.output = s.output ∧ s'.input = s.input ∧ s'.steps = s.steps) ∧
    ∀ fuel o, start settings p.code tape input fuel = some o →
      (∀ stop ∈ o.stop, ¬ stop.IsOverflow) →
      ∃ o', start settings' p.code tape' input fuel = some o' ∧ o'.stop = o.stop ∧
        o'.state.output = o.state.output ∧ o'.state.tape.cells = o.state.tape.cells ∧
        o'.state.steps = o.state.steps ∧ o'.state.input = o.state.input := by
  intro tape tape'
  have h₀ : Recast settings'.format { tape, input } { tape := tape', input } :=
    ⟨⟨htrap, hbits⟩, rfl⟩
  have hall : ∀ {n s}, after settings p.code n { tape, input } = some s →
      ∃ s', after settings' p.code n { tape := tape', input } = some s' ∧
        Recast settings'.format s s' :=
    fun h => after_related (fun _ _ _ hR hn => hR.of_next? hstrict hn) h₀ h
  refine ⟨?_, ?_⟩
  · intro n s hs
    obtain ⟨s', hs', -, rfl⟩ := hall hs
    exact ⟨_, hs', rfl, rfl, rfl, rfl, rfl, rfl, rfl⟩
  · intro fuel o ho hno
    obtain ⟨n, hlt, s, hs, hh⟩ := (run_iff_ends fuel _ _).1 ⟨o, ho, rfl, rfl⟩
    obtain ⟨s', hs', hR⟩ := hall hs
    obtain ⟨o', ho', hstop, hstate⟩ :=
      (run_iff_ends fuel _ _).2 ⟨n, hlt, s', hs', hR.halt?_eq hstrict hh hno⟩
    exact ⟨o', ho', hstop, by rw [hstate]; rfl, by rw [hstate]; rfl, by rw [hstate]; rfl,
      by rw [hstate]; rfl⟩

/-- The greatest value of an 8-bit cell is read and written alike in 8 bits and in 64. -/
theorem trap_agrees_until_overflow_limit :
    let p : Program := ⟨#[.input, .output]⟩
    let narrow : Settings := { cellBits := 8, overflow := .trap }
    let input := Source.ofText [⟨0x7F, by decide⟩]
    ∃ o o', start narrow p.code { format := narrow.format } input 3 = some o ∧
      start {} p.code { format := ({} : Settings).format } input 3 = some o' ∧
      o.stop = none ∧ o'.stop = none ∧ o'.state.output = o.state.output ∧
      o'.state.tape.cells = o.state.tape.cells := by
  intro p narrow input
  let s : State := { tape := { format := narrow.format }, input }
  let s₁ : State :=
    { tape := ⟨narrow.format, Std.ExtTreeMap.empty.insert 0 0x7F⟩, input := ⟨[[]], .exhausted⟩,
      ip := 1, steps := 1 }
  let s₂ : State := { s₁ with ip := 2, steps := 2, output := "\x7F" }
  have h₁ : next? narrow p.code s = some s₁ :=
    next?_eq_some_iff.2 ⟨.input, { s₁ with ip := 0, steps := 0 }, by decide +kernel, rfl, rfl⟩
  have h₂ : next? narrow p.code s₁ = some s₂ :=
    next?_eq_some_iff.2 ⟨.output, { s₂ with ip := 1, steps := 1 }, by decide +kernel, rfl, rfl⟩
  have he : Ends narrow p.code 2 s none s₂ :=
    ⟨s₂, by simp [h₁, h₂], halt?_end (by decide +kernel)⟩
  obtain ⟨o, ho, hstop, -⟩ := (run_iff_ends 3 s _).2 ⟨2, by decide, he⟩
  obtain ⟨o', ho', hstop', hout, hcells, -⟩ :=
    (trap_agrees_until_overflow p narrow {} rfl (by decide) rfl ∅ input).2 3 o ho (by simp [hstop])
  exact ⟨o, o', ho, ho', hstop, hstop'.trans hstop, hout, hcells⟩

end Machine

end TapeMachine
