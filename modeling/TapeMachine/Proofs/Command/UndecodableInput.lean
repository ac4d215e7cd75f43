import TapeMachine.Proofs.Command.Agreement
import TapeMachine.Proofs.InputRead
import TapeMachine.Proofs.Simulation
import TapeMachine.Proofs.Utf8Strict

/-!
Input that cannot be decoded. A file is decoded before the run begins, and what is wrong with it is
reported. The standard input is decoded while the program runs: a run that reads as far as the fault ends
the command with it, and is not reported (`undecodable_input_reported_unless_streamed`).
-/
namespace TapeMachine

open Utf8 (DecodeError)

/-- The same source, but that bytes which cannot be decoded follow it. -/
def Source.endingIn (e : DecodeError) (s : Source) : Source := { s with ending := .undecodable e }

theorem Source.read_endingIn (e : DecodeError) (s : Source) :
    (s.endingIn e).read.2 = s.read.2.endingIn e ∧
      ((∃ c, s.read.1 = .ok (some c) ∧ (s.endingIn e).read.1 = .ok (some c)) ∨
        (∀ c, s.read.1 ≠ .ok (some c)) ∧ (s.endingIn e).read.1 = .error e) := by
  have htake : take? (s.endingIn e).chunks = take? s.chunks := rfl
  unfold read
  rw [htake]
  cases take? s.chunks with
  | some p => exact ⟨rfl, .inl ⟨p.1, rfl, rfl⟩⟩
  | none =>
    refine ⟨rfl, .inr ⟨fun c => ?_, rfl⟩⟩
    cases s.ending <;> simp [SourceEnd.read]

/-- The same state on such a source. -/
def State.endingIn (e : DecodeError) (s : State) : State := { s with input := s.input.endingIn e }

/-- A run that would stop at the end of its input stops at the fault instead. -/
def Stop.endingIn (e : DecodeError) : Stop → Stop
  | .fault f => if f.cause = .inputExhausted then .undecodable e else .fault f
  | .undecodable _ => .undecodable e
  | stop => stop

namespace Machine

variable {settings : Settings} {code : Code}

theorem stored_endingIn (e : DecodeError) (s : State) (r : Except Overflow Tape) :
    stored (s.endingIn e) r = carried (·.endingIn e) (Stop.endingIn e) (stored s r) := by
  cases r <;> rfl

/-- Only `,` stops a run because of its input. -/
theorem stop_endingIn_of_ne (e : DecodeError) {strict : Bool} {s : State} {i : Instruction} {f : Failure}
    (hi : i ≠ .input) (h : execute strict code s i = .error f) : f.stop.endingIn e = f.stop := by
  cases refusal_of_execute h with
  | shift | output | unmatchedOpen | unmatchedClose => rfl
  | store | exhausted | undecodable => exact absurd rfl hi

/-- What follows a source does not matter to an instruction, unless it reads past its end. -/
theorem execute_endingIn (e : DecodeError) (strict : Bool) (code : Code) (s : State)
    (i : Instruction) :
    execute strict code (s.endingIn e) i =
      carried (·.endingIn e) (Stop.endingIn e) (execute strict code s i) := by
  by_cases hi : i = .input
  · subst hi
    have hin : (s.endingIn e).input = s.input.endingIn e := rfl
    obtain ⟨hrest, ⟨c, hc, hc'⟩ | ⟨hno, herror⟩⟩ := s.input.read_endingIn e
    · simp only [execute, hin, hc, hc', hrest]
      exact stored_endingIn e { s with input := s.input.read.2 } _
    · simp only [execute, hin, herror, hrest]
      cases hread : s.input.read.1 with
      | error e' => rfl
      | ok c =>
        cases c with
        | none => rfl
        | some c => exact absurd hread (hno c)
  · have hsame := execute_withInput strict code s i (s.input.endingIn e) fun h => absurd h hi
    rw [inputAfter_of_ne hi] at hsame
    refine hsame.trans ?_
    cases he : execute strict code s i with
    | ok u =>
      have hu : u.input = s.input := (input_of_execute he).trans (inputAfter_of_ne hi)
      rw [← hu]
      rfl
    | error f =>
      have hf : f.state.input = s.input := (input_of_failure he).trans (inputAfter_of_ne hi)
      rw [← hf, carried, stop_endingIn_of_ne e hi he]
      rfl

theorem carries_endingIn (settings : Settings) (code : Code) (e : DecodeError) :
    Carries settings settings code code (·.endingIn e) (Stop.endingIn e) := by
  refine carries_of_execute id rfl (fun w => ⟨rfl, rfl⟩) ?_ (fun s => rfl) ?_
  · intro s
    rw [mapWord_id, Option.map_id]
    rfl
  · exact fun s i => execute_endingIn e settings.strictLoops code s i

theorem start_endingIn (e : DecodeError) (settings : Settings) (code : Code) (tape : Tape)
    (input : Source) (fuel : Nat) :
    (start settings code tape (input.endingIn e) fuel).map Outcome.conclusion =
      (start settings code tape input fuel).map fun o =>
        (o.stop.map (Stop.endingIn e), o.state.endingIn e) :=
  (carries_endingIn settings code e).run_eq fuel { tape, input } _ _

end Machine

namespace Command

variable {w : World} {job : Job} {o o' : Outcome} {r : RunRequest} {arguments : List Text} {text : Text}

/-- A command tells how a run of the program at a path came out. It ends only if the run does, with status
0 if the run reaches its end, and else with status 1 and a message about the fault. -/
def Reports (path : Path) : Option (Except Stop RunResult) → Option Transcript → Prop
  | none, command => command = none
  | some (.ok _), command => ∃ t, command = some t ∧ t.ending = .exit 0
  | some (.error stop), command => ∃ f t before, stop = .fault f ∧ command = some t ∧
      t.ending = .exit 1 ∧ t.stderr = before ++ ("bfvm: " ++ path.display ++ ": " ++ f.message ++ "\n")

/-- A run that reaches its end or fails in a fault is reported. -/
theorem reports_of_stop (hstop : o'.stop = o.stop)
    (hfault : ∀ stop, o.stop = some stop → ∃ f, stop = .fault f) (hdump : job.dumpTape = none) :
    Reports job.path (some o.result) (some (transcriptOf w job o')) := by
  cases hs : o.stop with
  | none =>
    rw [Outcome.result_eq_ok_iff.2 ⟨hs, rfl⟩]
    refine ⟨_, rfl, ?_⟩
    simp [transcriptOf, finish, hstop, hs, hdump]
  | some stop =>
    obtain ⟨f, rfl⟩ := hfault stop hs
    rw [Outcome.result_eq_error_iff.2 hs]
    refine ⟨f, _, job.warnings ++ logText job.settings o'.log, rfl, rfl, ?_, ?_⟩
    · simp [transcriptOf, finish, hstop, hs, report]
    · simp [transcriptOf, finish, hstop, hs, report]

/-- A run on a text that ends early ends in a fault. -/
theorem exists_fault_of_start {settings : Settings} {p : Program} {fuel : Nat} {stop : Stop}
    (ho : Machine.start settings p.code { format := settings.format } (Source.ofText text) fuel = some o)
    (hstop : o.stop = some stop) : ∃ f, stop = .fault f := by
  obtain ⟨ip, idx, cause, hf, -⟩ := Machine.documented_of_start ho hstop
  exact ⟨_, hf⟩

/-- A run on a text is reported. -/
theorem reports_of_text (hread : Request.read w arguments = .run r) (hjob : prepare w r = .ok job)
    (hinput : job.input = Source.ofText text) (hdump : job.dumpTape = none) (fuel : Nat) :
    Reports job.path (job.program.run (Source.ofText text) job.settings fuel)
      (execute w arguments fuel) := by
  rw [execute_eq_runJob hread hjob, runJob_eq, Program.run_eq, hinput]
  cases ho : Machine.start job.settings job.program.code { format := job.settings.format }
      (Source.ofText text) fuel with
  | none => rfl
  | some o => exact reports_of_stop rfl (fun stop => exists_fault_of_start ho) hdump

/-- A run on a text that bytes follow which cannot be decoded is reported as one on the text alone, unless
it reads past the text: then the fault escapes. -/
theorem reports_of_endingIn {e : DecodeError} (hread : Request.read w arguments = .run r)
    (hjob : prepare w r = .ok job) (hinput : job.input = (Source.ofText text).endingIn e)
    (hdump : job.dumpTape = none) (fuel : Nat) :
    let library := job.program.run (Source.ofText text) job.settings fuel
    let command := execute w arguments fuel
    (∀ f, library = some (.error (.fault f)) → f.cause = .inputExhausted →
      ∃ t, command = some t ∧ t.ending = .escaped (.input e)) ∧
    ((∀ f, library = some (.error (.fault f)) → f.cause ≠ .inputExhausted) →
      Reports job.path library command) := by
  intro library command
  have hlibrary : library = _ := Program.run_eq job.program (Source.ofText text) job.settings fuel
  have hcommand : command = _ := (execute_eq_runJob hread hjob fuel).trans (runJob_eq w job fuel)
  have hcarried := Machine.start_endingIn e job.settings job.program.code
    { format := job.settings.format } (Source.ofText text) fuel
  rw [← hinput] at hcarried
  cases ho : Machine.start job.settings job.program.code { format := job.settings.format }
      (Source.ofText text) fuel with
  | none =>
    rw [ho, Option.map_none] at hlibrary hcarried
    rw [Option.map_eq_none_iff.1 hcarried] at hcommand
    refine ⟨fun f hf => ?_, fun _ => ?_⟩
    · cases hlibrary.symm.trans hf
    · rw [hlibrary, hcommand]
      rfl
  | some o =>
    rw [ho, Option.map_some] at hlibrary hcarried
    obtain ⟨o', ho', hconclusion⟩ := Option.map_eq_some_iff.1 hcarried
    have hstop' : o'.stop = o.stop.map (Stop.endingIn e) := congrArg Prod.fst hconclusion
    rw [ho', Option.map_some] at hcommand
    have hfault : ∀ stop, o.stop = some stop → ∃ f, stop = .fault f :=
      fun stop => exists_fault_of_start ho
    refine ⟨fun f hf hcause => ⟨_, hcommand, ?_⟩, fun hother => ?_⟩
    · have hstop := Outcome.result_eq_error_iff.1 (Option.some.inj (hlibrary.symm.trans hf))
      rw [hstop, Option.map_some, Stop.endingIn, if_pos hcause] at hstop'
      simp [transcriptOf, finish, hstop']
    · rw [hlibrary, hcommand]
      refine reports_of_stop ?_ hfault hdump
      rw [hstop']
      cases hstop : o.stop with
      | none => rfl
      | some stop =>
        obtain ⟨f, rfl⟩ := hfault stop hstop
        have hcause := hother f (by rw [hlibrary, Outcome.result_eq_error_iff.2 hstop])
        rw [Option.map_some, Stop.endingIn, if_neg hcause]

/-- Input that cannot be decoded is reported, unless it is met in the middle of a run. Given as a file, it
ends the command at once with status 1 and a message; on the standard input, the run goes on with the text
before the fault, and the fault escapes exactly if the program reads past that text. How much text that is
depends on the blocks in which the bytes arrive. All other runs are reported, on either route. -/
theorem undecodable_input_reported_unless_streamed (w : World) (arguments : List Text) (r : RunRequest)
    (loaded : Settings.Loaded) (settings : Settings) (source : List UInt8)
    (hread : Request.read w (Text.ofString "run" :: arguments) = .run r)
    (hload : loadSettings w r = .ok loaded) (hsettings : loaded.result = .ok settings)
    (hfile : w.read r.program = .ok source) (hdump : r.dumpTape = none) :
    let p := Program.ofBytes source
    let warnings := String.join (loaded.malformed.map EnvFile.warning)
    let library (cs : List Char) :=
      p.run (Source.ofText ((unifyNewlines cs).map CodePoint.ofChar)) settings
    let command := execute w (Text.ofString "run" :: arguments)
    (∀ path bytes, r.input = .file path → w.read path = .ok bytes →
      (∀ e, Utf8.decode bytes = .error e → ∀ fuel, command fuel =
        some (report 1 (warnings ++ ("bfvm: " ++ path.display ++ ": " ++ e.message ++ "\n")))) ∧
      ∀ cs, Utf8.decode bytes = .ok cs → ∀ fuel, Reports r.program (library cs fuel) (command fuel)) ∧
    (r.input = .standard →
      (∀ cs, Utf8.decode w.input.flatten = .ok cs →
        ∀ fuel, Reports r.program (library cs fuel) (command fuel)) ∧
      ∀ e, Utf8.decode w.input.flatten = .error e → ∃ cs rest e',
        w.input.flatten = Utf8.encode cs ++ rest ∧
        Source.ofBlocks w.input =
          { chunks := [(unifyNewlines cs).map CodePoint.ofChar], ending := .undecodable e' } ∧
        ∀ fuel,
          (∀ f, library cs fuel = some (.error (.fault f)) → f.cause = .inputExhausted →
            ∃ t, command fuel = some t ∧ t.ending = .escaped (.input e')) ∧
          ((∀ f, library cs fuel = some (.error (.fault f)) → f.cause ≠ .inputExhausted) →
            Reports r.program (library cs fuel) (command fuel))) := by
  intro p warnings library command
  have hprepare := prepare_eq hload hsettings hfile
  have hready : ∀ {input}, inputOf w r.input = .ok input → prepare w r = .ok
      { settings, program := p, path := r.program, input, dumpTape := r.dumpTape, warnings } := by
    intro input hinput
    rw [hprepare, hinput]
    rfl
  refine ⟨?_, ?_⟩
  · intro path bytes hroute hbytes
    refine ⟨fun e he fuel => ?_, fun cs hcs fuel => ?_⟩
    · have hinput : inputOf w r.input =
          .error ("bfvm: " ++ path.display ++ ": " ++ e.message ++ "\n") := by
        simp only [hroute, inputOf, hbytes, he]
      rw [hinput] at hprepare
      simp only [command, execute, hread, perform, hprepare]
      rfl
    · have hinput : inputOf w r.input =
          .ok (Source.ofText ((unifyNewlines cs).map CodePoint.ofChar)) := by
        simp only [hroute, inputOf, hbytes, hcs]
      exact reports_of_text hread (hready hinput) rfl hdump fuel
  · intro hroute
    have hinput : inputOf w r.input = .ok (Source.ofBlocks w.input) := by rw [hroute]; rfl
    refine ⟨fun cs hcs fuel => ?_, fun e he => ?_⟩
    · rw [Source.ofBlocks_of_encode (Utf8.decode_eq_ok_iff.1 hcs)] at hinput
      exact reports_of_text hread (hready hinput) rfl hdump fuel
    · obtain ⟨cs, rest, e', hbytes, hstream⟩ := Source.ofBlocks_of_decode_error he
      rw [hstream] at hinput
      exact ⟨cs, rest, e', hbytes, hstream,
        reports_of_endingIn hread (hready hinput) rfl hdump⟩

/-- A world in which `p.b` holds `,.,`, while the file `t` and the standard input hold `a` and the first
half of another character. -/
def halfCharacter : World where
  entry path :=
    if path = Path.ofText (Text.ofString "p.b") then some (.file [44, 46, 44])
    else if path = Path.ofText (Text.ofString "t") then some (.file [97, 0xC3])
    else none
  obstacle _ := none
  input := [[97], [0xC3]]

/-- `run p.b --input-file t` reports the half character and does not begin to run, but `run p.b` reads `a`
and then ends with the fault. -/
theorem undecodable_input_reported_unless_streamed_half :
    let file := ["run", "p.b", "--input-file", "t"].map Text.ofString
    let standard := ["run", "p.b"].map Text.ofString
    execute halfCharacter file 0 = some (report 1
      "bfvm: t: 'utf-8' codec can't decode byte 0xc3 in position 1: unexpected end of data\n") ∧
    ∃ t, execute halfCharacter standard 3 = some t ∧
      t.ending = .escaped (.input ⟨0xC3, 0, 1, .unexpectedEnd⟩) := by
  intro file standard
  let r : RunRequest := { program := Path.ofText (Text.ofString "p.b") }
  have hfault : Utf8.untilFault 0 (Utf8.pieces [97, 0xC3]) =
      (['a'], some ⟨0xC3, 1, 1, .unexpectedEnd⟩) := by decide +kernel
  have hdecode : Utf8.decode [97, 0xC3] = .error ⟨0xC3, 1, 1, .unexpectedEnd⟩ := by
    rw [Utf8.decode, hfault]
  refine ⟨?_, ?_⟩
  · have hfile := ((undecodable_input_reported_unless_streamed halfCharacter
      (["p.b", "--input-file", "t"].map Text.ofString)
      { r with input := .file (Path.ofText (Text.ofString "t")) } _ default [44, 46, 44] rfl rfl rfl rfl
      rfl).1 _ _ rfl rfl).1 _ hdecode 0
    exact hfile.trans (congrArg (fun message => some (report 1 message)) (by decide +kernel))
  · obtain ⟨cs, rest, e, -, hstream, hruns⟩ :=
      ((undecodable_input_reported_unless_streamed halfCharacter (["p.b"].map Text.ofString) r _ default
        [44, 46, 44] rfl rfl rfl rfl rfl).2 rfl).2 _ hdecode
    let text : Text := [CodePoint.ofChar 'a']
    have hsource : Source.ofBlocks [[97], [0xC3]] =
        { chunks := [text], ending := .undecodable ⟨0xC3, 0, 1, .unexpectedEnd⟩ } := by decide +kernel
    obtain ⟨hchunks, hending⟩ := Source.mk.inj (hsource.symm.trans hstream)
    have htext : text = (unifyNewlines cs).map CodePoint.ofChar := List.cons.inj hchunks |>.1
    have hstop : (Machine.start default (Program.ofBytes [44, 46, 44]).code
        { format := (default : Settings).format } (Source.ofText text) 3).map Outcome.stop =
          some (some (.fault ⟨.inputExhausted, some 2, some 0⟩)) := by decide +kernel
    obtain ⟨o, ho, hstop⟩ := Option.map_eq_some_iff.1 hstop
    have hlibrary : (Program.ofBytes [44, 46, 44]).run (Source.ofText text) default 3 =
        some (.error (.fault ⟨.inputExhausted, some 2, some 0⟩)) := by
      rw [Program.run_eq, ho, Option.map_some, Outcome.result_eq_error_iff.2 hstop]
    rw [htext] at hlibrary
    cases hending
    exact (hruns 3).1 _ hlibrary rfl

/-- A byte that begins no character, on the standard input of `run p.b` where `p.b` holds `,.`, is not
reported: the command ends with the fault. -/
theorem undecodable_standard_input_escapes :
    let w : World :=
      { entry := fun path =>
          if path = Path.ofText (Text.ofString "p.b") then some (.file [44, 46]) else none
        obstacle := fun _ => none
        input := [[0xFF]] }
    ∃ t, execute w (["run", "p.b"].map Text.ofString) 1 = some t ∧
      t.ending = .escaped (.input ⟨0xFF, 0, 1, .invalidStart⟩) := by
  intro w
  let r : RunRequest := { program := Path.ofText (Text.ofString "p.b") }
  let job : Job :=
    { settings := default, program := Program.ofBytes [44, 46], path := r.program,
      input := Source.ofBlocks [[0xFF]] }
  have hread : Request.read w (["run", "p.b"].map Text.ofString) = .run r := rfl
  have hjob : prepare w r = .ok job := rfl
  have hstop : (Machine.start job.settings job.program.code { format := job.settings.format } job.input
      1).map Outcome.stop = some (some (.undecodable ⟨0xFF, 0, 1, .invalidStart⟩)) := by decide +kernel
  obtain ⟨o, ho, hstop⟩ := Option.map_eq_some_iff.1 hstop
  refine ⟨transcriptOf w job o, ?_, ?_⟩
  · rw [execute_eq_runJob hread hjob, runJob_eq, ho, Option.map_some]
  · simp [transcriptOf, finish, hstop]

end Command

end TapeMachine
