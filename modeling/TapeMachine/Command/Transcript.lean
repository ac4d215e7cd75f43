import TapeMachine.Command.Request
import TapeMachine.Report
import TapeMachine.Session
import TapeMachine.Settings.Document
import TapeMachine.Sink

/-!
What a command does: what it prints, the file it writes, and how it ends. A command that runs a program
needs fuel like the run itself.
-/
namespace TapeMachine

/-- A problem that a command does not report but ends with. -/
inductive Problem where
  | file (path : Path) (f : FileFault)
  | settings (e : Settings.LoadError)
  | input (e : Utf8.DecodeError)
  /-- The run met a word that is no instruction. -/
  | word (t : Text)
  /-- The run met a number that is not written out. -/
  | number

def Problem.message : Problem → String
  | .file path f => f.message path
  | .settings e => e.message
  | .input e => e.message
  | .word t => "unhandled instruction: " ++ t.quoted
  | .number => WriteError.unprintable.message

inductive Ending where
  | exit (status : Nat)
  | escaped (p : Problem)

structure Transcript where
  stdout : String := ""
  stderr : String := ""
  written : Option (Path × String) := none
  ending : Ending := .exit 0

namespace Command

def report (status : Nat) (message : String) : Transcript :=
  { stderr := message, ending := .exit status }

/-- Whether an error of loading settings is reported. Others are problems. -/
def isReported : Settings.LoadError → Bool
  | .rejected _ | .unsettable _ | .unreadable _ | .undecodable _ | .notMapping | .unknownKeys _ => true
  | .document e =>
    match e with
    | .codePoint | .integer .. | .integerLength _ | .float _ | .calendar _ => true
    | .malformed | .codePointSize | .floatPlaces | .emptyNumber | .boolean _ | .timestamp
    | .timestampMapping => false
  | .unsortableKeys => false

structure Job where
  settings : Settings
  program : Program
  path : Path
  input : Source
  dumpTape : Option Path := none
  /-- What has been printed so far. -/
  warnings : String := ""

def overrides (r : RunRequest) : List (String × Value) :=
  [("strict_loops", if r.strictLoops then .bool true else .null),
    ("cell_bits", match r.cellBits with | some n => .int n | none => .null),
    ("overflow", match r.overflow with | some m => .text (Text.ofString m.name) | none => .null),
    ("trace", if r.trace then .bool true else .null)]

def loadSettings (w : World) (r : RunRequest) : Except Problem Settings.Loaded :=
  match r.config with
  | none => .ok (Settings.load w.envFiles w.env (overrides r))
  | some path =>
    match w.read path with
    | .error f => .error (.file path f)
    | .ok bytes => .ok (Settings.loadDocument bytes w.envFiles w.env (overrides r))

/-- The input of a run, or the message about a file that cannot be read. -/
def inputOf (w : World) : InputChoice → Except String Source
  | .text t => .ok (Source.ofText t)
  | .standard => .ok (Source.ofBlocks w.input)
  | .file path =>
    let refuse (message : String) : Except String Source :=
      .error ("bfvm: " ++ path.display ++ ": " ++ message ++ "\n")
    match w.read path with
    | .error f => refuse (f.message path)
    | .ok bytes =>
      match Utf8.decode bytes with
      | .error e => refuse e.message
      | .ok chars => .ok (Source.ofText ((unifyNewlines chars).map CodePoint.ofChar))

/-- Gets a run ready: the settings first, then the program, then its input. -/
def prepare (w : World) (r : RunRequest) : Except Transcript Job := do
  let loaded ← (loadSettings w r).mapError fun p => { ending := .escaped p }
  let warnings := String.join (loaded.malformed.map EnvFile.warning)
  let settings ← loaded.result.mapError fun e =>
    if isReported e then report 1 (warnings ++ "invalid settings: " ++ e.message ++ "\n")
    else { stderr := warnings, ending := .escaped (.settings e) }
  let bytes ← (w.read r.program).mapError fun f =>
    { stderr := warnings, ending := .escaped (.file r.program f) }
  let input ← (inputOf w r.input).mapError fun message => report 1 (warnings ++ message)
  return {
    settings, input, warnings
    program := Program.ofBytes bytes
    path := r.program
    dumpTape := r.dumpTape }

def logLine (part message : String) : String := "DEBUG bfvm." ++ part ++ ": " ++ message ++ "\n"

/-- The log of a run as it is printed, if it is traced. -/
def logText (settings : Settings) (log : Array LogEntry) : String :=
  if settings.trace then String.join (log.toList.map fun e => logLine "interpreter" e.message) else ""

def reportOf (job : Job) (tape : Tape) (output : String) (steps : Nat) : Report :=
  { programLength := job.program.size, steps, output := Text.ofString output, cells := tape.cells,
    settings := job.settings }

/-- Where a run prints. Only for a report are the pieces kept. -/
def Job.sink (job : Job) : Sink :=
  if job.dumpTape.isSome then Sink.recorder true else Sink.stream true

/-- What is left to do after a run: to say why it stopped, or to write its report. -/
def finish (w : World) (job : Job) (stop : Option Stop) (tape : Tape) (sink : Sink) (steps : Nat) :
    Transcript :=
  match stop with
  | some (.fault f) => report 1 ("bfvm: " ++ job.path.display ++ ": " ++ f.message ++ "\n")
  | some (.undecodable e) => { ending := .escaped (.input e) }
  | some (.unhandled t) | some (.unnamed t) => { ending := .escaped (.word t) }
  | some .unprintable => { ending := .escaped .number }
  | none =>
    match job.dumpTape with
    | none => {}
    | some path =>
      match w.obstacle path with
      | some f => { ending := .escaped (.file path f) }
      | none =>
        let output := String.join sink.pieces.toList
        { written := some (path, (reportOf job tape output steps).json.render { indent := some 2 })
          stderr :=
            if job.settings.trace then logLine "main" ("wrote run report to " ++ path.display)
            else "" }

def runJob (w : World) (job : Job) (fuel : Nat) : Option Transcript := do
  let (r, s) ← Session.run { settings := job.settings, input := job.input } job.program.code fuel
  let sink := job.sink.writeChars s.output
  let last := finish w job r.stop r.tape sink s.lastSteps
  return { last with
    stdout := sink.content
    stderr := job.warnings ++ logText job.settings r.log ++ last.stderr }

/-- Where a job begins: the state of its machine, and its log. -/
def Job.start (job : Job) : State × Array LogEntry :=
  ({ tape := { format := job.settings.format }, input := job.input },
    #[.start job.program.code.size job.settings.strictLoops])

def parse (w : World) (path : Path) : Transcript :=
  match w.read path with
  | .error f => { ending := .escaped (.file path f) }
  | .ok bytes => { stdout := (Program.ofBytes bytes).source ++ "\n" }

def perform (w : World) (request : Request) (fuel : Nat) : Option Transcript :=
  match request with
  | .help c => some { stdout := Usage.help c }
  | .refuse c e => some (report 2 (Usage.refusal c e))
  | .parse path => some (parse w path)
  | .run r =>
    match prepare w r with
    | .error t => some t
    | .ok job => runJob w job fuel

def execute (w : World) (arguments : List Text) (fuel : Nat) : Option Transcript :=
  perform w (Request.read w arguments) fuel

end Command

end TapeMachine
