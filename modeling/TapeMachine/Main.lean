import TapeMachine.Command.Transcript

/-!
The program itself. It looks up what the arguments name, reads the standard input when the machine asks
for it, and prints while the machine runs.
-/
namespace TapeMachine.Main

/-- What is at a path. What is there and cannot be read counts as a directory. -/
def entryAt (path : String) : IO (Option Entry) := do
  try
    return some (.file (← IO.FS.readBinFile path).toList)
  catch e =>
    match e with
    | .noFileOrDirectory .. | .noSuchThing .. => return none
    | _ => return some .directory

/-- The paths that an argument may name: the argument itself, and what follows an equals sign in it. -/
def candidates (argument : String) : List Path :=
  let t := Text.ofString argument
  let attached := (Text.splitAt? (·.is '=') t).map fun (_, _, v) => v
  (t :: attached.toList).map Path.ofText

def bytesAt (path : String) : IO (Option (List UInt8)) := do
  match ← entryAt path with
  | some (.file bytes) => return some bytes
  | _ => return none

def envFiles : IO EnvFiles := do
  let depth := ((toString (← IO.currentDir)).toList.filter (· == '/')).length
  let search ← (List.range (depth + 1)).mapM fun n =>
    bytesAt (String.join (List.replicate n "../") ++ ".env")
  return { search }

/-- The variables that matter: those of the settings, and those that the file of variables mentions. -/
def environment (files : EnvFiles) : IO Environment := do
  let text := String.ofList (Utf8.repair (files.chosen.getD []))
  let ours := Environment.switchOff :: Settings.fieldVariables.map (·.2)
  (ours ++ EnvFile.names text).eraseDups.filterMapM fun name => do
    return (← IO.getEnv name).map fun v => (name, v)

/-- Everything that the arguments can refer to, but for the standard input. -/
def world (arguments : List String) : IO World := do
  let paths := (arguments.flatMap candidates).eraseDups
  let entries ← paths.filterMapM fun p => do
    return (← entryAt p.display).map fun e => (p, e)
  let files ← envFiles
  let env ← environment files
  return { entry := fun p => entries.lookup p, obstacle := fun _ => none, env, envFiles := files }

/-- The bytes that an input stream delivers at a time. -/
def blockSize : Nat := 8192

partial def readLine (stream : IO.FS.Stream) (line : List UInt8) : IO (List UInt8) := do
  match (← stream.read 1).toList with
  | [b] => if b = 0x0A then return (b :: line).reverse else readLine stream (b :: line)
  | _ => return line.reverse

/-- The next block of the standard input, empty at its end. A terminal delivers lines. -/
def readBlock : IO (List UInt8) := do
  let stdin ← IO.getStdin
  if ← stdin.isTty then readLine stdin []
  else return (← stdin.read (USize.ofNat blockSize)).toList

/-- A source that holds the text, or the fault, that was read last. -/
def sourceOf : Except Utf8.DecodeError (List Char) → Source
  | .ok chars => Source.ofText (chars.map CodePoint.ofChar)
  | .error e => { chunks := [], ending := .undecodable e }

/-- Reads blocks until there is a text, the end or a fault. What decodes the blocks after them is there
only if there may be some. -/
partial def refill (d : Decoder) : IO (Source × Option Decoder) := do
  match ← readBlock with
  | [] => return (sourceOf d.finish, none)
  | block =>
    match d.feed block with
    | .ok ([], d') => refill d'
    | .ok (chars, d') => return (sourceOf (.ok chars), some d')
    | .error e => return (sourceOf (.error e), none)

def printStep (settings : Settings) (before after : State) (logged : Nat) (log : Array LogEntry) :
    IO Unit := do
  if before.output.utf8ByteSize < after.output.utf8ByteSize then
    IO.print (String.singleton after.output.back)
    (← IO.getStdout).flush
  IO.eprint (Command.logText settings (log.extract logged log.size))

/-- Runs a machine to its end, printing on the way. With a decoder it reads the standard input, each
block when `,` finds nothing left of those before. -/
partial def drive (job : Command.Job) (code : Code) (s : State) (log : Array LogEntry)
    (decoder : Option Decoder) : IO Outcome := do
  let (s, decoder) ←
    match decoder with
    | some d =>
      if code[s.ip]? = some (.op .input) ∧ s.input.remaining = [] then do
        let (input, decoder) ← refill d
        pure ({ s with input }, decoder)
      else pure (s, decoder)
    | none => pure (s, none)
  match Machine.advance job.settings code s log with
  | .inl o =>
    printStep job.settings s o.state log.size o.log
    return o
  | .inr (s', log') =>
    printStep job.settings s s' log.size log'
    drive job code s' log' decoder

/-- Prints what is left to print, writes the file, and gives the exit status. -/
def finish (t : Transcript) : IO UInt32 := do
  IO.print t.stdout
  if let some (path, text) := t.written then
    IO.FS.writeFile path.display text
  IO.eprint t.stderr
  match t.ending with
  | .exit status => return UInt32.ofNat status
  | .escaped p =>
    IO.eprintln p.message
    return 1

def runJob (w : World) (job : Command.Job) (decoder : Option Decoder) : IO UInt32 := do
  IO.eprint job.warnings
  let (s, log) := job.start
  IO.eprint (Command.logText job.settings log)
  let o ← drive job job.program.code s log decoder
  finish (Command.finish w job o.stop o.state.tape (job.sink.writeChars o.state.output) o.state.steps)

def perform (arguments : List String) : IO UInt32 := do
  let w ← world arguments
  match Request.read w (arguments.map Text.ofString) with
  | .run r =>
    match Command.prepare w r with
    | .error t => finish t
    | .ok job => runJob w job (if r.input = .standard then some {} else none)
  | request =>
    match Command.perform w request 0 with
    | some t => finish t
    | none => return 1

end TapeMachine.Main

def main (arguments : List String) : IO UInt32 := TapeMachine.Main.perform arguments
