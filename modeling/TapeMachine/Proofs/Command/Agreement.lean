import TapeMachine.Command.Transcript
import TapeMachine.Proofs.Command.Arguments
import TapeMachine.Proofs.ReportRoundTrip
import TapeMachine.Proofs.RunFaults

/-!
The command and the library. A command that runs a program on a text prints what the run of the program
gives back, reports the fault it ends with, and writes a report of it
(`run_command_agrees_with_library`).
-/
namespace TapeMachine

open Integer (Short)

variable {settings : Settings} {p : Program} {fuel : Nat} {input : Source} {o : Outcome}

/-- What a run of a program gives back, by how it ended. -/
def Outcome.result (o : Outcome) : Except Stop RunResult :=
  match o.stop with
  | some stop => .error stop
  | none => .ok ⟨o.state.output, o.state.tape, o.state.steps⟩

theorem Outcome.result_eq_ok_iff {result : RunResult} :
    o.result = .ok result ↔
      o.stop = none ∧ result = ⟨o.state.output, o.state.tape, o.state.steps⟩ := by
  unfold Outcome.result
  cases o.stop <;> simp [eq_comm]

theorem Outcome.result_eq_error_iff {stop : Stop} : o.result = .error stop ↔ o.stop = some stop := by
  unfold Outcome.result
  cases o.stop <;> simp

/-- A program runs on a blank tape. -/
theorem Program.run_eq (p : Program) (input : Source) (settings : Settings) (fuel : Nat) :
    p.run input settings fuel =
      (Machine.start settings p.code { format := settings.format } input fuel).map Outcome.result := by
  simp only [Program.run, Session.run, Tape.fill]
  cases Machine.start settings p.code { format := settings.format } input fuel with
  | none => rfl
  | some o =>
    simp only [Outcome.result, bind, Option.bind, pure, Option.map_some, String.empty_append]
    cases o.stop <;> rfl

namespace Command

variable {w : World}

/-- Whatever is printed arrives. -/
theorem content_sink (job : Job) (output : String) :
    (job.sink.writeChars output).content = output := by
  have hempty : job.sink.content = "" := by
    unfold Job.sink
    split <;> rfl
  rw [Sink.content_writeChars, hempty, String.empty_append]

/-- If a report is asked for, what is printed can be had again from the pieces. -/
theorem join_pieces_sink (job : Job) (h : job.dumpTape.isSome = true) (output : String) :
    String.join (job.sink.writeChars output).pieces.toList = output := by
  have hsink : job.sink = Sink.recorder true := if_pos h
  rw [hsink, Sink.join_pieces_writeChars rfl]
  exact String.empty_append

/-- What a command that runs a job comes to, by how the run ended. -/
def transcriptOf (w : World) (job : Job) (o : Outcome) : Transcript :=
  let last := finish w job o.stop o.state.tape (job.sink.writeChars o.state.output) o.state.steps
  { last with
    stdout := o.state.output
    stderr := job.warnings ++ logText job.settings o.log ++ last.stderr }

theorem runJob_eq (w : World) (job : Job) (fuel : Nat) :
    runJob w job fuel = (Machine.start job.settings job.program.code
      { format := job.settings.format } job.input fuel).map (transcriptOf w job) := by
  simp only [runJob, Session.run, Tape.fill]
  cases Machine.start job.settings job.program.code { format := job.settings.format } job.input fuel with
  | none => rfl
  | some o =>
    simp only [transcriptOf, bind, Option.bind, pure, Option.map_some, String.empty_append,
      content_sink]

/-- With settings and a program at hand, a run is ready to begin as soon as its input is. -/
theorem prepare_eq {r : RunRequest} {loaded : Settings.Loaded} {bytes : List UInt8}
    (hload : loadSettings w r = .ok loaded) (hsettings : loaded.result = .ok settings)
    (hfile : w.read r.program = .ok bytes) :
    let warnings := String.join (loaded.malformed.map EnvFile.warning)
    prepare w r = ((inputOf w r.input).mapError fun message => report 1 (warnings ++ message)).map
      fun input =>
        { settings, program := Program.ofBytes bytes, path := r.program, input,
          dumpTape := r.dumpTape, warnings } := by
  intro warnings
  rw [prepare, hload]
  change (loaded.result.mapError _ >>= _) = _
  rw [hsettings]
  change ((w.read r.program).mapError _ >>= _) = _
  rw [hfile]
  change ((inputOf w r.input).mapError _ >>= _) = _
  cases inputOf w r.input <;> rfl

/-- With settings, a program and a text at hand, a run is ready to begin. -/
theorem prepare_eq_ok {r : RunRequest} {loaded : Settings.Loaded} {bytes : List UInt8} {text : Text}
    (hload : loadSettings w r = .ok loaded) (hsettings : loaded.result = .ok settings)
    (hfile : w.read r.program = .ok bytes) (hinput : r.input = .text text) :
    prepare w r = .ok
      { settings, program := Program.ofBytes bytes, path := r.program, input := Source.ofText text,
        dumpTape := r.dumpTape, warnings := String.join (loaded.malformed.map EnvFile.warning) } := by
  rw [prepare_eq hload hsettings hfile, hinput]
  rfl

/-- A report that tells what the run of a program gave back. -/
structure Describes (report : Report) (p : Program) (settings : Settings) (result : RunResult) :
    Prop where
  output_eq : report.output = Text.ofString result.output
  cells_eq : report.cells = result.tape.cells
  steps_eq : report.steps = result.steps
  length_eq : report.programLength = p.size
  settings_eq : report.settings = settings

/-- The report of a run can be made and written; and if its numbers are short enough, it can be read
again. -/
theorem exists_report (p : Program) (settings : Settings) (result : RunResult)
    (htape : Tape.Reached settings.format result.tape) :
    ∃ report, Report.ofRun result.tape (Text.ofString result.output) p.size result.steps settings =
        .ok report ∧
      Describes report p settings result ∧
      ∀ layout, report.write layout = .ok (report.json.render layout) ∧
        (Short p.size → Short result.steps → (∀ c ∈ result.tape.cells, Short c.1) →
          Report.read (report.json.render layout) = .ok report) := by
  have houtput : ∀ c ∈ Text.ofString result.output, c.isSurrogate = false :=
    fun c hc => Text.isSurrogate_of_mem_ofString hc
  refine ⟨_, Report.ofRun_eq_ok _ _ _ (Int.natCast_nonneg _) (Int.natCast_nonneg _),
    ⟨rfl, rfl, rfl, rfl, rfl⟩, fun layout => ⟨?_, ?_⟩⟩
  · rw [Report.write, Text.firstSurrogates_eq_none houtput]
  · intro hlength hsteps hindices
    refine Report.read_render ?_ layout
    exact
      { version := Nat.le_refl 1
        version_short := show Short 1 by decide
        length_short := hlength
        steps_short := hsteps
        output := houtput
        ascending := result.tape.pairwise_cells
        cells_short := fun c hc =>
          ⟨hindices c hc, Report.short_of_fits (htape.fits.2 c hc)⟩ }

/-- The report that a command writes is the one of its run. -/
theorem reportOf_eq {job : Job} {result : RunResult} {report : Report}
    (h : Report.ofRun result.tape (Text.ofString result.output) job.program.size result.steps
      job.settings = .ok report) :
    reportOf job result.tape result.output result.steps = report := by
  rw [Report.ofRun_eq_ok _ _ _ (Int.natCast_nonneg _) (Int.natCast_nonneg _)] at h
  exact Except.ok.inj h

/-- The tape that a run leaves has been filled by writes. -/
theorem reached_of_start {code : Code}
    (h : Machine.start settings code { format := settings.format } input fuel = some o) :
    Tape.Reached settings.format o.state.tape := by
  obtain ⟨n, s, hs, hh⟩ := Machine.ends_of_run h
  have htape : o.state.tape = s.tape := by
    rw [Machine.same_but_input_of_halt? hh]
    rfl
  rw [htape]
  exact Machine.reached_after .blank hs

/-- What is printed before a fault is the output of the state in which it arises. -/
theorem output_of_start {code : Code} {stop : Stop}
    (h : Machine.start settings code { format := settings.format } input fuel = some o)
    (hstop : o.stop = some stop) :
    ∃ n s t, Machine.after settings code n { tape := { format := settings.format }, input } = some s ∧
      Machine.halt? settings code s = some (some stop, t) ∧ o.state.output = s.output := by
  obtain ⟨n, s, hs, hh⟩ := Machine.ends_of_run h
  refine ⟨n, s, o.state, hs, hstop ▸ hh, ?_⟩
  rw [Machine.same_but_input_of_halt? hh]
  rfl

section Transcripts

variable (job : Job) (htrace : job.settings.trace = false)

include htrace

theorem transcriptOf_fault {f : Fault} (hstop : o.stop = some (.fault f)) :
    transcriptOf w job o =
      { stdout := o.state.output
        stderr := job.warnings ++ ("bfvm: " ++ job.path.display ++ ": " ++ f.message ++ "\n")
        ending := .exit 1 } := by
  simp [transcriptOf, finish, hstop, report, logText, htrace]

theorem transcriptOf_end (hstop : o.stop = none) (hdump : job.dumpTape = none) :
    transcriptOf w job o = { stdout := o.state.output, stderr := job.warnings } := by
  simp [transcriptOf, finish, hstop, hdump, logText, htrace]

theorem transcriptOf_report {path : Path} (hstop : o.stop = none) (hdump : job.dumpTape = some path)
    (hpath : w.obstacle path = none) :
    transcriptOf w job o =
      { stdout := o.state.output
        stderr := job.warnings
        written := some (path,
          (reportOf job o.state.tape o.state.output o.state.steps).json.render { indent := some 2 }) } := by
  have hjoin := join_pieces_sink job (by simp [hdump]) o.state.output
  simp [transcriptOf, finish, hstop, hdump, hpath, hjoin, logText, htrace]

/-- The file that is written holds the report of the run. -/
theorem exists_written {path : Path}
    (ho : Machine.start job.settings job.program.code { format := job.settings.format } job.input fuel =
      some o)
    (hstop : o.stop = none) (hdump : job.dumpTape = some path) (hpath : w.obstacle path = none) :
    ∃ report file, (transcriptOf w job o).written = some (path, file) ∧
      Report.ofRun o.state.tape (Text.ofString o.state.output) job.program.size o.state.steps
        job.settings = .ok report ∧
      Describes report job.program job.settings ⟨o.state.output, o.state.tape, o.state.steps⟩ ∧
      report.write { indent := some 2 } = .ok file ∧
      (Short job.program.size → Short o.state.steps → (∀ c ∈ o.state.tape.cells, Short c.1) →
        Report.read file = .ok report) := by
  obtain ⟨report, hreport, hdescribes, hwrite⟩ := exists_report job.program job.settings
    ⟨o.state.output, o.state.tape, o.state.steps⟩ (reached_of_start ho)
  have heq : reportOf job o.state.tape o.state.output o.state.steps = report := reportOf_eq hreport
  obtain ⟨hfile, hagain⟩ := hwrite { indent := some 2 }
  refine ⟨report, _, ?_, hreport, hdescribes, hfile, hagain⟩
  rw [transcriptOf_report job htrace hstop hdump hpath, heq]

/-- A report that can be written changes nothing else. -/
theorem transcriptOf_withoutReport (hpath : ∀ path, job.dumpTape = some path → w.obstacle path = none)
    (hstop : ∀ stop, o.stop = some stop → ∃ f, stop = .fault f) :
    let bare := transcriptOf w { job with dumpTape := none } o
    bare.ending = (transcriptOf w job o).ending ∧ bare.stdout = (transcriptOf w job o).stdout ∧
      bare.stderr = (transcriptOf w job o).stderr := by
  intro bare
  cases hs : o.stop with
  | some stop =>
    obtain ⟨f, rfl⟩ := hstop stop hs
    have hbare : bare = _ := transcriptOf_fault { job with dumpTape := none } htrace hs
    rw [hbare, transcriptOf_fault job htrace hs]
    exact ⟨rfl, rfl, rfl⟩
  | none =>
    have hbare : bare = _ := transcriptOf_end { job with dumpTape := none } htrace hs rfl
    rw [hbare]
    cases hd : job.dumpTape with
    | none =>
      rw [transcriptOf_end job htrace hs hd]
      exact ⟨rfl, rfl, rfl⟩
    | some path =>
      rw [transcriptOf_report job htrace hs hd (hpath path hd)]
      exact ⟨rfl, rfl, rfl⟩

end Transcripts

theorem execute_eq_runJob {arguments : List Text} {r : RunRequest} {job : Job}
    (hread : Request.read w arguments = .run r) (hjob : prepare w r = .ok job) (fuel : Nat) :
    execute w arguments fuel = runJob w job fuel := by
  simp only [execute, hread, perform, hjob]

/-- The command line agrees with the library. A command that runs a program on a text given as
`--input=text`, without trace, ends at all exactly if the run does. If the run reaches its end, the
command prints its output, and leaves a report of it where one can be written. If the run fails, the
command prints the output up to there, says why on the error stream with status 1, and writes nothing. To
ask for a report changes neither status nor streams, as long as it can be written. -/
theorem run_command_agrees_with_library (w : World) (arguments : List Text) (text : Text)
    (r : RunRequest) (loaded : Settings.Loaded) (settings : Settings) (bytes : List UInt8)
    (hread : Request.read w (Text.ofString "run" :: arguments) = .run r)
    (hinput : Request.Assigns arguments "--input" .input text)
    (hload : loadSettings w r = .ok loaded) (hsettings : loaded.result = .ok settings)
    (htrace : settings.trace = false) (hfile : w.read r.program = .ok bytes) (fuel : Nat) :
    let p := Program.ofBytes bytes
    let library := p.run (Source.ofText text) settings fuel
    let command := execute w (Text.ofString "run" :: arguments) fuel
    let warnings := String.join (loaded.malformed.map EnvFile.warning)
    (library = none ↔ command = none) ∧
    (∀ value, Request.Assigns arguments "--dump-tape" .dumpTape value →
      r.dumpTape = some (Path.ofText value)) ∧
    (∀ result, library = some (.ok result) →
      ∃ t, command = some t ∧ t.stdout = result.output ∧
        (r.dumpTape = none → t.ending = .exit 0 ∧ t.stderr = warnings ∧ t.written = none) ∧
        ∀ path, r.dumpTape = some path → w.obstacle path = none →
          t.ending = .exit 0 ∧ t.stderr = warnings ∧
          ∃ report file, t.written = some (path, file) ∧
            Report.ofRun result.tape (Text.ofString result.output) p.size result.steps settings =
              .ok report ∧
            Describes report p settings result ∧ report.write { indent := some 2 } = .ok file ∧
            (Short p.size → Short result.steps → (∀ c ∈ result.tape.cells, Short c.1) →
              Report.read file = .ok report)) ∧
    (∀ stop, library = some (.error stop) →
      ∃ f t, stop = .fault f ∧ command = some t ∧ t.ending = .exit 1 ∧ t.written = none ∧
        t.stderr = warnings ++ ("bfvm: " ++ r.program.display ++ ": " ++ f.message ++ "\n") ∧
        ∃ n s u, Machine.after settings p.code n
            { tape := { format := settings.format }, input := Source.ofText text } = some s ∧
          Machine.halt? settings p.code s = some (some stop, u) ∧ t.stdout = s.output) ∧
    ∀ other, Request.read w (Text.ofString "run" :: other) = .run { r with dumpTape := none } →
      (∀ path, r.dumpTape = some path → w.obstacle path = none) → ∀ t, command = some t →
        ∃ t', execute w (Text.ofString "run" :: other) fuel = some t' ∧
          t'.ending = t.ending ∧ t'.stdout = t.stdout ∧ t'.stderr = t.stderr := by
  intro p library command warnings
  have htext := Request.input_of_read hread hinput
  let job : Job :=
    { settings, program := p, path := r.program, input := Source.ofText text, dumpTape := r.dumpTape,
      warnings }
  have hjob : prepare w r = .ok job := prepare_eq_ok hload hsettings hfile htext
  have hcommand : command = (Machine.start settings p.code { format := settings.format }
      (Source.ofText text) fuel).map (transcriptOf w job) :=
    (execute_eq_runJob hread hjob fuel).trans (runJob_eq w job fuel)
  have hlibrary : library = (Machine.start settings p.code { format := settings.format }
      (Source.ofText text) fuel).map Outcome.result := p.run_eq (Source.ofText text) settings fuel
  refine ⟨by rw [hlibrary, hcommand]; simp, fun value => Request.dumpTape_of_read hread, ?_, ?_, ?_⟩
  · intro result hresult
    rw [hlibrary] at hresult
    obtain ⟨o, ho, hok⟩ := Option.map_eq_some_iff.1 hresult
    obtain ⟨hstop, rfl⟩ := Outcome.result_eq_ok_iff.1 hok
    refine ⟨transcriptOf w job o, by rw [hcommand, ho]; rfl, rfl, ?_, ?_⟩
    · intro hdump
      rw [transcriptOf_end job htrace hstop hdump]
      exact ⟨rfl, rfl, rfl⟩
    · intro path hdump hpath
      have hwritten := exists_written job htrace ho hstop hdump hpath
      rw [transcriptOf_report job htrace hstop hdump hpath] at hwritten ⊢
      exact ⟨rfl, rfl, hwritten⟩
  · intro stop herror
    rw [hlibrary] at herror
    obtain ⟨o, ho, hok⟩ := Option.map_eq_some_iff.1 herror
    have hstop := Outcome.result_eq_error_iff.1 hok
    obtain ⟨ip, idx, cause, rfl, -⟩ := Machine.documented_of_start ho hstop
    obtain ⟨n, s, u, hs, hh, hout⟩ := output_of_start ho hstop
    refine ⟨_, transcriptOf w job o, rfl, by rw [hcommand, ho]; rfl, ?_⟩
    rw [transcriptOf_fault job htrace hstop]
    exact ⟨rfl, rfl, rfl, n, s, u, hs, hh, hout⟩
  · intro other hother hpath t ht
    rw [hcommand] at ht
    obtain ⟨o, ho, rfl⟩ := Option.map_eq_some_iff.1 ht
    have hbare : prepare w { r with dumpTape := none } = .ok { job with dumpTape := none } :=
      prepare_eq_ok hload hsettings hfile htext
    refine ⟨transcriptOf w { job with dumpTape := none } o, ?_, ?_⟩
    · rw [execute_eq_runJob hother hbare, runJob_eq]
      exact Option.map_eq_some_iff.2 ⟨o, ho, rfl⟩
    · refine transcriptOf_withoutReport job htrace hpath ?_
      intro stop hstop
      obtain ⟨ip, idx, cause, hf, -⟩ := Machine.documented_of_start ho hstop
      exact ⟨_, hf⟩

/-- `run p.b --dump-tape=o --input=a`, where `p.b` holds `,.`, prints `a` and reports it in `o`. -/
theorem run_command_agrees_with_library_echo :
    let source := Path.ofText (Text.ofString "p.b")
    let target := Path.ofText (Text.ofString "o")
    let w : World :=
      { entry := fun path => if path = source then some (.file [44, 46]) else none
        obstacle := fun _ => none }
    let arguments := [Text.ofString "p.b", Text.ofString "--dump-tape=o", Text.ofString "--input=a"]
    ∃ t report file, execute w (Text.ofString "run" :: arguments) 3 = some t ∧
      t.ending = .exit 0 ∧ t.stdout = "a" ∧ t.written = some (target, file) ∧
      report.write { indent := some 2 } = .ok file ∧ Report.read file = .ok report ∧
      report.output = Text.ofString "a" ∧ report.cells = [(0, 97)] ∧ report.steps = 2 ∧
      report.programLength = 2 := by
  intro source target w arguments
  let r : RunRequest := { program := source, input := .text (Text.ofString "a"), dumpTape := some target }
  have hread : Request.read w (Text.ofString "run" :: arguments) = .run r := rfl
  have hinput : Request.Assigns arguments "--input" .input (Text.ofString "a") := by
    refine ⟨by decide +kernel, ?_⟩
    intro t ht a hofText
    have hmem : t ∈ arguments := List.takeWhile_subset _ ht
    simp only [arguments, List.mem_cons, List.not_mem_nil, or_false] at hmem
    rcases hmem with rfl | rfl | rfl
    · have hplain : Item.ofText RunOption.table (Text.ofString "p.b") =
          .ok (.plain (Text.ofString "p.b")) := rfl
      rw [hplain] at hofText
      cases hofText
    · have hdump : Item.ofText RunOption.table (Text.ofString "--dump-tape=o") =
          .ok (.option .dumpTape (.value (Text.ofString "o"))) := rfl
      rw [hdump] at hofText
      cases hofText
    · decide +kernel
  let p := Program.ofBytes [44, 46]
  have hsize : p.size = 2 := by decide +kernel
  obtain ⟨result, hresult, hout, hcells, hsteps⟩ : ∃ result,
      p.run (Source.ofText (Text.ofString "a")) default 3 = some (.ok result) ∧
        result.output = "a" ∧ result.tape.cells = [(0, 97)] ∧ result.steps = 2 := by
    have hview : (p.run (Source.ofText (Text.ofString "a")) default 3).map
        (fun e => e.toOption.map fun x => (x.output, x.tape.cells, x.steps)) =
        some (some ("a", [(0, 97)], 2)) := by decide +kernel
    obtain ⟨e, he, hview⟩ := Option.map_eq_some_iff.1 hview
    cases e with
    | error stop => cases hview
    | ok result => exact ⟨result, he, by simpa [Except.toOption] using hview⟩
  obtain ⟨t, ht, hstdout, -, hreport⟩ :=
    (run_command_agrees_with_library w arguments (Text.ofString "a") r _ default [44, 46] hread hinput
      rfl rfl rfl rfl 3).2.2.1 result hresult
  obtain ⟨hexit, -, report, file, hwritten, -, hdescribes, hwrite, hagain⟩ := hreport target rfl rfl
  refine ⟨t, report, file, ht, hexit, hstdout.trans hout, hwritten, hwrite, ?_, ?_, ?_, ?_, ?_⟩
  · refine hagain ?_ ?_ ?_
    · exact hsize ▸ (by decide)
    · exact hsteps ▸ (by decide)
    · rw [hcells]
      decide
  · rw [hdescribes.output_eq, hout]
  · rw [hdescribes.cells_eq, hcells]
  · rw [hdescribes.steps_eq, hsteps]
  · rw [hdescribes.length_eq, hsize]

end Command

end TapeMachine
