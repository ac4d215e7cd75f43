import TapeMachine.Proofs.Command.Agreement
import TapeMachine.Proofs.Utf8Text

/-!
What a run prints. A `.` prints the character whose number is in the cell, and fails on any other number.
So the output of a run tells the values that the cells had, and can always be written as UTF-8 and in a
report (`Machine.output_is_printable`).
-/
namespace TapeMachine

theorem Tape.Reached.fill {f : CellFormat} {t t' : Tape} {cells : List (Int × Int)} (h : Reached f t)
    (hf : t.fill cells = .ok t') : Reached f t' := by
  induction cells generalizing t with
  | nil => exact Except.ok.inj hf ▸ h
  | cons cell rest ih =>
    unfold Tape.fill at hf
    split at hf
    next u hu => exact ih (.set h hu) hf
    next => cases hf

namespace Machine

variable {settings : Settings} {code : Code} {s t u : State} {strict : Bool} {i : Instruction} {n : Nat}
  {v : Int}

/-- Whether a number is that of a character: of a code point that is no surrogate. -/
def IsScalar (v : Int) : Prop := 0 ≤ v ∧ v ≤ 0x10FFFF ∧ ¬ (0xD800 ≤ v ∧ v ≤ 0xDFFF)

theorem scalar?_eq_none_iff : scalar? v = none ↔ ¬ IsScalar v := by
  unfold scalar? IsScalar
  split <;> simp <;> omega

theorem isScalar_toNat (c : Char) : IsScalar c.toNat := by
  have hvalid := c.valid
  have hc : c.toNat = c.val.toNat := rfl
  simp only [UInt32.isValidChar, Nat.isValidChar] at hvalid
  unfold IsScalar
  omega

/-- A `.` fails exactly if the cell does not hold the number of a character. -/
theorem halt?_output_iff (fetch : code[s.ip]? = some (.op .output)) :
    halt? settings code s = some (some (.fault (s.fault (.invalidOutput s.cell))), s) ↔
      ¬ IsScalar s.cell := by
  rw [← scalar?_eq_none_iff]
  constructor
  · intro h
    obtain ⟨-, hstop, -⟩ | ⟨w, -, -, hstop | hstop⟩ | ⟨i, f, hi, he, -, -⟩ := halt?_cases h
    · cases hstop
    · cases hstop
    · cases hstop
    · rw [fetch] at hi
      cases hi
      cases refusal_of_execute he with
      | shift i d o delta refused => obtain ⟨hi, -⟩ | ⟨hi, -⟩ := delta <;> cases hi
      | output invalid => exact invalid
  · intro h
    have he : execute settings.strictLoops code s .output =
        .error ⟨.fault (s.fault (.invalidOutput s.cell)), s⟩ := by simp only [execute, h]
    exact halt?_op_error fetch he

/-- A `.` is completed exactly if the cell holds the number of a character. -/
theorem next?_output_iff (fetch : code[s.ip]? = some (.op .output)) :
    (∃ t, next? settings code s = some t) ↔ IsScalar s.cell := by
  rw [next?_op fetch]
  simp only [execute]
  cases hc : scalar? s.cell with
  | none => simpa [Except.toOption] using scalar?_eq_none_iff.1 hc
  | some c =>
    have hscalar : IsScalar s.cell := toNat_of_scalar? hc ▸ isScalar_toNat c
    simpa [Except.toOption] using hscalar

/-- The number that is to be printed next, if the next word prints. -/
def printedAt? (code : Code) (s : State) : Option Int :=
  if code[s.ip]? = some (.op .output) then some s.cell else none

/-- The values that the current cell had at each `.` among the first `n` words of a run. -/
def printed (settings : Settings) (code : Code) (n : Nat) (s : State) : List Int :=
  (List.range n).filterMap fun k => (after settings code k s).bind (printedAt? code)

theorem printed_succ (hs : after settings code n s = some t) :
    printed settings code (n + 1) s = printed settings code n s ++ (printedAt? code t).toList := by
  rw [printed, List.range_succ, List.filterMap_append, ← printed]
  cases hp : printedAt? code t <;> simp [hs, hp]

/-- An output as the numbers of its characters. -/
def numbers (output : String) : List Int := output.toList.map fun c => (c.toNat : Int)

/-- An instruction other than `.` prints nothing. -/
theorem output_of_execute (h : execute strict code s i = .ok u) (hi : i ≠ .output) :
    u.output = s.output := by
  cases effect_of_execute h with
  | output => exact absurd rfl hi
  | add | move | store | enter | skip | back | leave => rfl

/-- A completed word adds to the output what was to be printed. -/
theorem numbers_of_next? (h : next? settings code s = some t) :
    numbers t.output = numbers s.output ++ (printedAt? code s).toList := by
  obtain ⟨i, u, fetch, he, rfl⟩ := next?_eq_some_iff.1 h
  have hu : u.advance.output = u.output := rfl
  rw [hu, printedAt?, fetch]
  by_cases hi : i = .output
  · subst hi
    simp only [execute] at he
    split at he <;> cases he
    next c hc => simp [numbers, toNat_of_scalar? hc]
  · rw [output_of_execute he hi]
    simp [hi]

/-- The output of a run is what was to be printed at each completed `.`. -/
theorem numbers_after (h : after settings code n s = some t) :
    numbers t.output = numbers s.output ++ printed settings code n s := by
  induction n generalizing t with
  | zero => simpa [printed] using congrArg (fun u => numbers u.output) (Option.some.inj h).symm
  | succ n ih =>
    rw [after_add] at h
    obtain ⟨u, hu, hn⟩ := Option.bind_eq_some_iff.1 h
    obtain ⟨t', hnext, ht⟩ := Option.bind_eq_some_iff.1 hn
    cases Option.some.inj ht
    rw [numbers_of_next? hnext, ih hu, printed_succ hu, List.append_assoc]

theorem isScalar_of_mem_numbers {output : String} (h : v ∈ numbers output) : IsScalar v := by
  obtain ⟨c, -, rfl⟩ := List.mem_map.1 h
  exact isScalar_toNat c

/-- At every point of a run, the output is what was to be printed so far, and can be written as UTF-8. -/
theorem output_after {tape : Tape} {input : Source}
    (h : after settings code n { tape, input } = some t) :
    numbers t.output = printed settings code n { tape, input } ∧
      (∀ v ∈ printed settings code n { tape, input }, IsScalar v) ∧
      Utf8.decode t.output.toUTF8.data.toList = .ok t.output.toList := by
  have hnumbers : numbers t.output = printed settings code n { tape, input } := by
    simpa [numbers] using numbers_after h
  refine ⟨hnumbers, ?_, ?_⟩
  · rw [← hnumbers]
    exact fun v hv => isScalar_of_mem_numbers hv
  · rw [Utf8.toUTF8_eq_encode, Utf8.decode_encode]

/-- What a run leaves, its completed steps have made. -/
theorem exists_last {session last : Session} {tape : Tape} {fuel : Nat} {r : SessionRun}
    (hseed : ({ format := session.settings.format } : Tape).fill session.seed = .ok tape)
    (hrun : session.run code fuel = some (r, last)) :
    ∃ s, after session.settings code last.lastSteps { tape, input := session.input } = some s ∧
      last.output = session.output ++ s.output ∧ r.tape = s.tape := by
  obtain ⟨o, ho, rfl, rfl⟩ := (Session.run_eq_some_iff hseed).1 hrun
  obtain ⟨n, s, hs, hh⟩ := ends_of_run ho
  have hsteps : o.state.steps = n := (steps_of_ends ⟨s, hs, hh⟩).trans (Nat.zero_add n)
  refine ⟨s, hsteps ▸ hs, ?_, ?_⟩
  · rw [same_but_input_of_halt? hh]
    rfl
  · rw [same_but_input_of_halt? hh]
    rfl

/-- Everything that a run writes can be printed and reported. If its tape can be seeded, then at every
point of the run the output consists of the characters whose numbers the current cell held at each `.`
completed so far; a `.` fails, and names the value of the cell, exactly if that is no such number. The
output can always be written as UTF-8, and however the run ends, a report with its output can be written.
A run whose tape cannot be seeded prints nothing. -/
theorem output_is_printable (p : Program) (session : Session) :
    let settings := session.settings
    let blank : Tape := { format := settings.format }
    (∀ refusal fuel r last, blank.fill session.seed = .error refusal →
      session.run p.code fuel = some (r, last) → last.output = session.output) ∧
    ∀ tape, blank.fill session.seed = .ok tape →
      let first : State := { tape, input := session.input }
      (∀ n s, after settings p.code n first = some s →
        numbers s.output = printed settings p.code n first ∧
        (∀ v ∈ printed settings p.code n first, IsScalar v) ∧
        Utf8.decode s.output.toUTF8.data.toList = .ok s.output.toList ∧
        (p.instructions[s.ip]? = some .output →
          (halt? settings p.code s = some (some (.fault (s.fault (.invalidOutput s.cell))), s) ↔
            ¬ IsScalar s.cell) ∧
          ((∃ t, next? settings p.code s = some t) ↔ IsScalar s.cell))) ∧
      ∀ fuel r last, session.run p.code fuel = some (r, last) →
        ∃ s, after settings p.code last.lastSteps first = some s ∧
          last.output = session.output ++ s.output ∧
          ∃ report,
            Report.ofRun r.tape (Text.ofString s.output) p.size last.lastSteps settings = .ok report ∧
            report.output = Text.ofString s.output ∧
            ∀ layout, report.write layout = .ok (report.json.render layout) := by
  intro settings blank
  refine ⟨?_, ?_⟩
  · intro refusal fuel r last hseed hrun
    rw [Session.run_of_fill_error p.code fuel hseed] at hrun
    cases hrun
    rfl
  · intro tape hseed first
    refine ⟨?_, ?_⟩
    · intro n s hs
      obtain ⟨hnumbers, hscalar, hdecode⟩ := output_after hs
      refine ⟨hnumbers, hscalar, hdecode, fun fetch => ?_⟩
      have hcode : p.code[s.ip]? = some (.op .output) := by rw [Program.getElem?_code, fetch]; rfl
      exact ⟨halt?_output_iff hcode, next?_output_iff hcode⟩
    · intro fuel r last hrun
      obtain ⟨s, hs, hout, htape⟩ := exists_last hseed hrun
      obtain ⟨report, hreport, hdescribes, hwrite⟩ := Command.exists_report p settings
        ⟨s.output, r.tape, last.lastSteps⟩ (htape ▸ reached_after (.fill .blank hseed) hs)
      exact ⟨s, hs, hout, report, hreport, hdescribes.output_eq, fun layout => (hwrite layout).1⟩

/-- On U+E000, `,.-.` prints that character and fails at the surrogate below it; `,.` can be reported. -/
theorem output_is_printable_surrogate :
    let session : Session := { settings := {}, input := Source.ofText [⟨0xE000, by decide⟩] }
    let p : Program := ⟨#[.input, .output, .decrement, .output]⟩
    let q : Program := ⟨#[.input, .output]⟩
    let first : State := { tape := { format := session.settings.format }, input := session.input }
    (∃ s, after session.settings p.code 3 first = some s ∧ numbers s.output = [0xE000] ∧
      halt? session.settings p.code s = some (some (.fault (s.fault (.invalidOutput 0xDFFF))), s)) ∧
    ∃ r last report, session.run q.code 3 = some (r, last) ∧ r.stop = none ∧
      Report.ofRun r.tape (Text.ofString last.output) q.size last.lastSteps session.settings =
        .ok report ∧
      report.output = Text.ofString last.output ∧
      ∀ layout, report.write layout = .ok (report.json.render layout) := by
  intro session p q first
  refine ⟨?_, ?_⟩
  · have hview : (after session.settings p.code 3 first).map (fun s => (s.ip, s.cell)) =
        some (3, 0xDFFF) := by decide +kernel
    have hprinted : printed session.settings p.code 3 first = [0xE000] := by decide +kernel
    obtain ⟨s, hs, hview⟩ := Option.map_eq_some_iff.1 hview
    obtain ⟨hip, hcell⟩ := Prod.mk.inj hview
    obtain ⟨hnumbers, -, -, hfails⟩ :=
      ((output_is_printable p session).2 first.tape rfl).1 3 s hs
    refine ⟨s, hs, hnumbers.trans hprinted, ?_⟩
    rw [← hcell]
    exact (hfails (by rw [hip]; rfl)).1.2 (by rw [hcell]; unfold IsScalar; omega)
  · have hview : (session.run q.code 3).map (fun x => x.1.stop) = some none := by decide +kernel
    obtain ⟨⟨r, last⟩, hrun, hstop⟩ := Option.map_eq_some_iff.1 hview
    obtain ⟨s, -, hout, report, hmade, htext, hwritten⟩ :=
      ((output_is_printable q session).2 first.tape rfl).2 3 r last hrun
    have hsame : last.output = s.output := hout.trans String.empty_append
    exact ⟨r, last, report, hrun, hstop, hsame ▸ hmade, hsame ▸ htext, hwritten⟩

end Machine

end TapeMachine
