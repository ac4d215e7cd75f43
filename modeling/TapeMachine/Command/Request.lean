import TapeMachine.Cell
import TapeMachine.Command.Item
import TapeMachine.Command.Usage
import TapeMachine.Command.World
import TapeMachine.Number.Integer

/-!
What a command line asks for. Arguments are taken from left to right, and the first that is wrong is
reported; arguments that nothing takes are reported last.
-/
namespace TapeMachine

inductive InputChoice where
  | standard
  | text (t : Text)
  | file (p : Path)
  deriving DecidableEq

structure RunRequest where
  program : Path
  input : InputChoice := .standard
  strictLoops : Bool := false
  cellBits : Option Int := none
  overflow : Option OverflowMode := none
  config : Option Path := none
  trace : Bool := false
  dumpTape : Option Path := none

inductive Request where
  | help (c : Option CommandName)
  | refuse (c : Option CommandName) (e : UsageError)
  | run (r : RunRequest)
  | parse (program : Path)

inductive RunOption where
  | help | input | inputFile | strictLoops | cellBits | overflow | config | trace | dumpTape
  deriving DecidableEq, Repr

namespace RunOption

def table : List (String × RunOption) :=
  [("-h", help), ("--help", help), ("--input", input), ("--input-file", inputFile),
    ("--strict-loops", strictLoops), ("--cell-bits", cellBits), ("--overflow", overflow),
    ("--config", config), ("--trace", trace), ("--dump-tape", dumpTape)]

def label (o : RunOption) : String :=
  "/".intercalate ((table.filter fun (_, k) => k = o).map (·.1))

def takesValue : RunOption → Bool
  | help | strictLoops | trace => false
  | _ => true

end RunOption

namespace Request

/-- Why a command does not get as far as its work. -/
inductive Early where
  | help
  | refused (e : UsageError)

/-- The path of something that exists. -/
def existing (w : World) (name : String) (t : Text) : Except Early Path :=
  let p := Path.ofText t
  if (w.entry p).isSome then .ok p else .error (.refused (.pathNotFound name t))

def document (w : World) (name : String) (t : Text) : Except Early Path := do
  let p ← existing w name t
  if p.isYaml then return p else throw (.refused (.notYaml name t))

structure Draft where
  program : Option Path := none
  request : RunRequest := { program := {} }

def setOption (w : World) (d : Draft) (o : RunOption) (t : Text) : Except Early Draft := do
  let r := d.request
  let set (r : RunRequest) : Draft := { d with request := r }
  match o with
  | .input =>
    match r.input with
    | .file _ => throw (.refused (.conflict o.label RunOption.inputFile.label))
    | _ => return set { r with input := .text t }
  | .inputFile =>
    let p ← existing w o.label t
    match r.input with
    | .text _ => throw (.refused (.conflict o.label RunOption.input.label))
    | _ => return set { r with input := .file p }
  | .cellBits =>
    match Integer.parse 10 t with
    | some n => return set { r with cellBits := some n }
    | none => throw (.refused (.notInteger o.label t))
  | .overflow =>
    match t.toString?.bind OverflowMode.ofName? with
    | some m => return set { r with overflow := some m }
    | none => throw (.refused (.notChoice o.label t (OverflowMode.all.map OverflowMode.name)))
  | .config => return set { r with config := some (← document w o.label t) }
  | .dumpTape => return set { r with dumpTape := some (Path.ofText t) }
  | .help | .strictLoops | .trace => return d

def setFlag (d : Draft) : RunOption → Except Early Draft
  | .help => .error .help
  | .strictLoops => .ok { d with request := { d.request with strictLoops := true } }
  | .trace => .ok { d with request := { d.request with trace := true } }
  | _ => .ok d

def take (w : World) (d : Draft) : Event RunOption → Except Early Draft
  | .positional t => do return { d with program := some (← existing w "program" t) }
  | .flag o => setFlag d o
  | .value o t => setOption w d o t
  | .valueMissing o => .error (.refused (.valueMissing o.label))
  | .valueIgnored o t => .error (.refused (.valueIgnored o.label t))

/-- The arguments after `run`, and those that are left over. -/
def readRun (w : World) (arguments : List Text) : Except Early (RunRequest × List Text) := do
  let items ← (Item.ofTexts RunOption.table arguments).mapError fun a =>
    .refused (.ambiguous a.option a.candidates)
  let (events, extras) := Event.ofItems RunOption.takesValue true items
  let d ← events.foldlM (take w) {}
  match d.program with
  | some program => return ({ d.request with program }, extras)
  | none => throw (.refused (.required "program"))

/-- The only option of the other commands. -/
def helpTable : List (String × Unit) := [("-h", ()), ("--help", ())]

def helpLabel : String := "-h/--help"

def takeParse (w : World) (d : Option Path) : Event Unit → Except Early (Option Path)
  | .positional t => do return some (← existing w "program" t)
  | .flag _ => .error .help
  | .value _ _ => .ok d
  | .valueMissing _ => .error (.refused (.valueMissing helpLabel))
  | .valueIgnored _ t => .error (.refused (.valueIgnored helpLabel t))

def readParse (w : World) (arguments : List Text) : Except Early (Path × List Text) := do
  let items ← (Item.ofTexts helpTable arguments).mapError fun a =>
    .refused (.ambiguous a.option a.candidates)
  let (events, extras) := Event.ofItems (fun _ => false) true items
  let d ← events.foldlM (takeParse w) none
  match d with
  | some program => return (program, extras)
  | none => throw (.refused (.required "program"))

/-- A request once the arguments of its command have been read, if none is left over. -/
def ofCommand {α : Type} (c : CommandName) (make : α → Request) (extras : List Text) :
    Except Early (α × List Text) → Request
  | .error .help => .help (some c)
  | .error (.refused e) => .refuse (some c) e
  | .ok (a, more) =>
    if (extras ++ more).isEmpty then make a else .refuse none (.unrecognized (extras ++ more))

def command (w : World) (extras : List Text) (name : Text) (arguments : List Text) : Request :=
  match CommandName.ofText? name with
  | some .run => ofCommand .run .run extras (readRun w arguments)
  | some .parse => ofCommand .parse .parse extras (readParse w arguments)
  | none => .refuse none (.notChoice "cmd" name (CommandName.all.map CommandName.text))

/-- Reads arguments up to the name of the command, where `extras` are those before that nothing
takes. -/
def readFrom (w : World) (extras : List Text) : List Text → Request
  | [] => .refuse none (.required "cmd")
  | t :: rest =>
    if t = Text.ofString "--" then
      if rest.isEmpty then .refuse none (.required "cmd") else command w extras t rest
    else
      match Item.ofText helpTable t with
      | .error a => .refuse none (.ambiguous a.option a.candidates)
      | .ok (.plain t) => command w extras t rest
      | .ok .dashes => .refuse none (.required "cmd")
      | .ok (.unknown t) => readFrom w (extras ++ [t]) rest
      | .ok (.option key attached) =>
        match Event.ofFlag key attached with
        | .valueIgnored _ v => .refuse none (.valueIgnored helpLabel v)
        | _ => .help none

def read (w : World) (arguments : List Text) : Request := readFrom w [] arguments

end Request

end TapeMachine
