import TapeMachine.Proofs.Brackets.JumpTable
import TapeMachine.Proofs.CellRange
import TapeMachine.Proofs.InputRead

/-!
The faults of a run. A program on a text can only end well or in one of five faults, each at an
instruction of its own kind, and an overflow has exactly the value that is one too many
(`only_documented_faults`).
-/
namespace TapeMachine

/-- The tape of a machine can always be made. -/
theorem Tape.make_settings (settings : Settings) :
    make settings.cellBits (Text.ofString settings.overflow.name) =
      .ok { format := settings.format } := make_format settings.format

namespace CellFormat

variable {f : CellFormat} {v : Int}

/-- Counting up leaves the range only just above it. -/
theorem eq_half_of_not_fits (h : f.Fits v) (h' : ¬ f.Fits (v + 1)) : v + 1 = f.half := by
  unfold Fits low high at *
  omega

/-- Counting down leaves the range only just below it. -/
theorem eq_neg_half_of_not_fits (h : f.Fits v) (h' : ¬ f.Fits (v - 1)) : v - 1 = -f.half - 1 := by
  unfold Fits low high at *
  omega

/-- A code point that does not fit is at least half the number of values. -/
theorem half_le_of_not_fits {c : Nat} (h : ¬ f.Fits c) : f.half ≤ c := by
  unfold Fits low high at h
  omega

/-- Every code point fits into cells of more than 21 bits. -/
theorem bits_le_of_half_le {c : CodePoint} (h : f.half ≤ c.val) : f.bits ≤ 21 := by
  rcases Nat.lt_or_ge 21 f.bits with hlt | hge
  · have hpow : Nat.pow 2 21 ≤ f.half := Nat.pow_le_pow_right (by decide) (by omega)
    have hc := c.isLt
    have h21 : Nat.pow 2 21 = 2097152 := rfl
    omega
  · exact hge

end CellFormat

namespace Machine

variable {settings : Settings} {p : Program} {s t : State} {stop : Stop} {n : Nat}

/-- A printed character is the one whose number is in the cell. -/
theorem toNat_of_scalar? {v : Int} {c : Char} (h : scalar? v = some c) : (c.toNat : Int) = v := by
  unfold scalar? at h
  split at h
  · cases h
  next hv =>
    have hvalid : v.toNat.isValidChar := by
      unfold Nat.isValidChar
      omega
    rw [← Option.some.inj h, CodePoint.toNat_ofNat hvalid]
    omega

/-- The faults of a program on a text, by their causes. Each belongs to an instruction of one kind. -/
inductive Documented (settings : Settings) (p : Program) (text : Text) (ip : Nat) (idx : Int) :
    Cause → Prop where
  | unmatchedClose (fetch : p.instructions[ip]? = some .loopClose) :
      Documented settings p text ip idx .unmatchedClose
  | unmatchedOpen (fetch : p.instructions[ip]? = some .loopOpen)
      (mode : settings.strictLoops = true) : Documented settings p text ip idx .unmatchedOpen
  | inputExhausted (fetch : p.instructions[ip]? = some .input) :
      Documented settings p text ip idx .inputExhausted
  | invalidOutput (v : Int) (fetch : p.instructions[ip]? = some .output)
      (invalid : scalar? v = none) : Documented settings p text ip idx (.invalidOutput v)
  | increment (fetch : p.instructions[ip]? = some .increment) (trap : settings.overflow = .trap) :
      Documented settings p text ip idx
        (.cellOverflow idx settings.format.half settings.cellBits)
  | decrement (fetch : p.instructions[ip]? = some .decrement) (trap : settings.overflow = .trap) :
      Documented settings p text ip idx
        (.cellOverflow idx (-settings.format.half - 1) settings.cellBits)
  | input (c : CodePoint) (mem : c ∈ text) (fetch : p.instructions[ip]? = some .input)
      (trap : settings.overflow = .trap) (large : settings.format.half ≤ c.val) :
      Documented settings p text ip idx (.cellOverflow idx c.val settings.cellBits)

/-- What is known of every state of a run: its place is in the program, its cells fit, and what it will
still read is part of the text. -/
structure Sound (settings : Settings) (p : Program) (text : Text) (s : State) : Prop where
  ip_le : s.ip ≤ p.size
  reached : Tape.Reached settings.format s.tape
  ending_eq : s.input.ending = .exhausted
  unread : ∀ c ∈ s.input.remaining, c ∈ text

theorem sound_after {chunks : List Text}
    (h : after settings p.code n { tape := { format := settings.format }, input := { chunks } } =
      some s) : Sound settings p chunks.flatten s := by
  refine ⟨?_, reached_after .blank h, ending_after h, ?_⟩
  · have hn := (nested_start p.code _ _).of_after h
    exact p.size_code ▸ hn.ip_le
  · obtain ⟨taken, htaken, -⟩ := remaining_after h
    intro c hc
    have htext : chunks.flatten = taken ++ s.input.remaining := htaken
    rw [htext]
    exact List.mem_append_right _ hc

/-- A refused write, in cells that refuse, of a value that does not fit. -/
theorem Sound.overflow {text : Text} {v : Int} {o : Overflow} (h : Sound settings p text s)
    (ho : s.tape.put s.idx v = .error o) :
    settings.overflow = .trap ∧ ¬ settings.format.Fits v ∧
      o.fault (some s.ip) = ⟨.cellOverflow s.idx v settings.cellBits, some s.ip, some s.idx⟩ := by
  obtain ⟨hnone, rfl⟩ := Tape.put_eq_error_iff.1 ho
  rw [h.reached.fits.1] at hnone ⊢
  obtain ⟨htrap, hfits⟩ := CellFormat.fit?_eq_none_iff.1 hnone
  exact ⟨htrap, hfits, rfl⟩

/-- Where a run stops early, it stops with a documented fault. -/
theorem Sound.documented {text : Text} (h : Sound settings p text s)
    (hh : halt? settings p.code s = some (some stop, t)) :
    ∃ cause, stop = .fault ⟨cause, some s.ip, some s.idx⟩ ∧
      Documented settings p text s.ip s.idx cause := by
  obtain ⟨-, hs, -⟩ | ⟨w, hw, -, -⟩ | ⟨i, f, hi, he, hs, -⟩ := halt?_cases hh
  · cases hs
  · exact absurd hw (p.getElem?_code_ne_foreign _ w)
  · have fetch : p.instructions[s.ip]? = some i := by
      simpa [Program.getElem?_code] using hi
    have hcell : settings.format.Fits s.cell := h.reached.fits_get s.idx
    cases refusal_of_execute he with
    | shift i d o delta refused =>
      obtain ⟨htrap, hfits, ho⟩ := h.overflow refused
      obtain ⟨rfl, rfl⟩ | ⟨rfl, rfl⟩ := delta
      · have hv := CellFormat.eq_half_of_not_fits hcell hfits
        refine ⟨_, ?_, .increment fetch htrap⟩
        rw [Option.some.inj hs, ← hv]
        exact congrArg Stop.fault ho
      · have hv := CellFormat.eq_neg_half_of_not_fits hcell hfits
        refine ⟨_, ?_, .decrement fetch htrap⟩
        rw [Option.some.inj hs, ← hv]
        exact congrArg Stop.fault ho
    | output invalid =>
      cases hs
      exact ⟨_, rfl, .invalidOutput s.cell fetch invalid⟩
    | store c o read refused =>
      obtain ⟨htrap, hfits, ho⟩ := h.overflow refused
      have hmem : c ∈ text := h.unread c (by simp [Source.remaining_of_read_some read])
      cases hs
      exact ⟨_, congrArg Stop.fault ho,
        .input c hmem fetch htrap (CellFormat.half_le_of_not_fits hfits)⟩
    | exhausted read =>
      cases hs
      exact ⟨_, rfl, .inputExhausted fetch⟩
    | undecodable e read => exact absurd hs (stop_ne_undecodable h.ending_eq hh e)
    | unmatchedOpen mode zero missing =>
      cases hs
      exact ⟨_, rfl, .unmatchedOpen fetch mode⟩
    | unmatchedClose empty =>
      cases hs
      exact ⟨_, rfl, .unmatchedClose fetch⟩

/-- A run that stops early from the beginning of a program stops with a documented fault. -/
theorem documented_of_start {chunks : List Text} {fuel : Nat} {o : Outcome}
    (ho : start settings p.code { format := settings.format } { chunks } fuel = some o)
    (hstop : o.stop = some stop) :
    ∃ (ip : Nat) (idx : Int) (cause : Cause), stop = .fault ⟨cause, some ip, some idx⟩ ∧
      Documented settings p chunks.flatten ip idx cause := by
  obtain ⟨n, s, hs, hh⟩ := ends_of_run ho
  rw [hstop] at hh
  obtain ⟨cause, hfault, hdoc⟩ := (sound_after hs).documented hh
  exact ⟨s.ip, s.idx, cause, hfault, hdoc⟩

/-- What a completed `.` prints is the character whose number is in the cell. -/
theorem output_of_next? (fetch : p.instructions[s.ip]? = some .output)
    (hn : next? settings p.code s = some t) :
    ∃ c : Char, (c.toNat : Int) = s.cell ∧ t.output = s.output.push c := by
  have hi : p.code[s.ip]? = some (.op .output) := by rw [Program.getElem?_code, fetch]; rfl
  obtain ⟨i, u, hi', he, rfl⟩ := next?_eq_some_iff.1 hn
  rw [hi] at hi'
  cases hi'
  simp only [execute] at he
  split at he <;> cases he
  next c hc => exact ⟨c, toNat_of_scalar? hc, rfl⟩

/-- Only documented faults leave a run. The tape of every machine can be made; a program on it reads its
instructions inside the program, keeps its cells in range and prints what the cells hold; and it ends
well or in one of five faults. Cells that wrap never overflow, a `[` fails only in strict mode, and an
overflow of a cell of `w` bits is by exactly one at `+` and `-`, and at `,` by a character of the input
that needs more bits, which no character does if `w` is above 21. -/
theorem only_documented_faults (settings : Settings) (p : Program) (chunks : List Text) :
    ∃ tape, Tape.make settings.cellBits (Text.ofString settings.overflow.name) = .ok tape ∧
      tape.cells = [] ∧
      (∀ n s, after settings p.code n { tape, input := { chunks } } = some s →
        s.ip ≤ p.size ∧ (∀ i, settings.format.Fits (s.tape.get i)) ∧
        ∀ t, p.instructions[s.ip]? = some .output → next? settings p.code s = some t →
          ∃ c : Char, (c.toNat : Int) = s.cell ∧ t.output = s.output.push c) ∧
      ∀ fuel o stop, start settings p.code tape { chunks } fuel = some o → o.stop = some stop →
        ∃ f, stop = .fault f ∧
          (f.cause = .unmatchedClose ∨ f.cause = .unmatchedOpen ∨ f.cause = .inputExhausted ∨
            (∃ v, f.cause = .invalidOutput v) ∨ ∃ i v b, f.cause = .cellOverflow i v b) ∧
          (settings.overflow = .wrap → ∀ i v b, f.cause ≠ .cellOverflow i v b) ∧
          (settings.strictLoops = false → f.cause ≠ .unmatchedOpen) ∧
          ∀ i v b, f.cause = .cellOverflow i v b →
            b = settings.cellBits ∧ ∃ ip : Nat, f.ip = some (ip : Int) ∧
              (p.instructions[ip]? = some .increment ∧ v = Nat.pow 2 (settings.cellBits - 1) ∨
                p.instructions[ip]? = some .decrement ∧
                  v = -Nat.pow 2 (settings.cellBits - 1) - 1 ∨
                p.instructions[ip]? = some .input ∧ settings.cellBits ≤ 21 ∧
                  Nat.pow 2 (settings.cellBits - 1) ≤ v ∧ ∃ c ∈ chunks.flatten, v = c.val) := by
  refine ⟨_, Tape.make_settings settings, rfl, ?_, ?_⟩
  · intro n s hs
    have hsound := sound_after hs
    exact ⟨hsound.ip_le, hsound.reached.fits_get, fun t fetch hn => output_of_next? fetch hn⟩
  · intro fuel o stop ho hstop
    obtain ⟨ip, idx, cause, rfl, hdoc⟩ := documented_of_start ho hstop
    refine ⟨_, rfl, ?_⟩
    cases hdoc with
    | unmatchedClose fetch => simp
    | unmatchedOpen fetch mode => simp [mode]
    | inputExhausted fetch => simp
    | invalidOutput v fetch invalid => simp
    | increment fetch trap =>
      refine ⟨by simp, by simp [trap], by simp, ?_⟩
      rintro _ _ _ ⟨⟩
      exact ⟨rfl, ip, rfl, .inl ⟨fetch, rfl⟩⟩
    | decrement fetch trap =>
      refine ⟨by simp, by simp [trap], by simp, ?_⟩
      rintro _ _ _ ⟨⟩
      exact ⟨rfl, ip, rfl, .inr (.inl ⟨fetch, rfl⟩)⟩
    | input c mem fetch trap large =>
      refine ⟨by simp, by simp [trap], by simp, ?_⟩
      rintro _ _ _ ⟨⟩
      have hbits : settings.cellBits ≤ 21 := CellFormat.bits_le_of_half_le large
      exact ⟨rfl, ip, rfl, .inr (.inr ⟨fetch, hbits, Int.ofNat_le.2 large, c, mem, rfl⟩)⟩

/-- In cells of 21 bits, the widest for which `,` can overflow, the last code point does not fit. -/
theorem only_documented_faults_widest :
    let settings : Settings := { cellBits := 21, overflow := .trap }
    let p : Program := ⟨#[.input]⟩
    let last : CodePoint := ⟨0x10FFFF, by decide⟩
    ∃ o f, start settings p.code { format := settings.format } { chunks := [[last]] } 1 = some o ∧
      o.stop = some (.fault f) ∧ f.cause = .cellOverflow 0 0x10FFFF 21 ∧
      ∃ ip : Nat, f.ip = some (ip : Int) ∧ p.instructions[ip]? = some .input ∧
        Nat.pow 2 20 ≤ (0x10FFFF : Int) := by
  intro settings p last
  let f : Fault := ⟨.cellOverflow 0 0x10FFFF 21, some 0, some 0⟩
  let s : State := { tape := { format := settings.format }, input := { chunks := [[last]] } }
  have hh : halt? settings p.code s = some (some (.fault f), s.withInput { chunks := [[]] }) :=
    halt?_op_error (i := .input) (f := ⟨.fault f, s.withInput { chunks := [[]] }⟩)
      (by decide +kernel) rfl
  obtain ⟨o, ho, hstop, -⟩ := (run_iff_ends 1 s _).2 ⟨0, Nat.one_pos, ends_zero_iff.2 hh⟩
  obtain ⟨tape, htape, -, -, hrun⟩ := only_documented_faults settings p [[last]]
  rw [Tape.make_settings] at htape
  cases htape
  obtain ⟨f', hf', -, -, -, hover⟩ := hrun 1 o (.fault f) ho hstop
  cases hf'
  obtain ⟨-, ip, hip, ⟨-, hv⟩ | ⟨-, hv⟩ | ⟨hi, -, hle, -⟩⟩ := hover 0 0x10FFFF 21 rfl
  · exact absurd hv (by decide)
  · exact absurd hv (by decide)
  · exact ⟨o, f, ho, hstop, rfl, ip, hip, hi, hle⟩

end Machine

end TapeMachine
