import TapeMachine.Json.Reader
import TapeMachine.Settings.Check
import TapeMachine.Tape
import TapeMachine.Text.Surrogate

/-!
Reports of runs. A report is written as JSON and can be read back. Reading is as lenient as the
reading of settings, and collects all complaints.
-/
namespace TapeMachine

structure Report where
  schemaVersion : Nat := 1
  programLength : Nat
  steps : Nat
  output : Text := []
  /-- Cells in the order in which they are listed, each index once. -/
  cells : List (Int × Int) := []
  settings : Settings
  deriving DecidableEq

namespace Report

def title : String := "RunReport"

/-- The members of an object of counts. -/
def cellMembers (cells : List (Int × Int)) : List (String × Json) :=
  cells.map fun (i, v) => (toString i, .int v)

def settingsJson (s : Settings) : Json :=
  .obj [("strict_loops", .bool s.strictLoops), ("cell_bits", .int s.cellBits),
    ("overflow", .str s.overflow.name), ("trace", .bool s.trace)]

/-- A report as JSON, with surrogates of its output in words. -/
def json (r : Report) : Json :=
  .obj [("schema_version", .int r.schemaVersion), ("program_length", .int r.programLength),
    ("steps", .int r.steps), ("output", .str r.output.display),
    ("cells", .obj (cellMembers r.cells)), ("settings", settingsJson r.settings)]

/-- The text of a report, whose output must not hold surrogates. -/
def write (r : Report) (layout : Json.Layout) : Except SurrogateError String :=
  match r.output.firstSurrogates 0 with
  | some e => .error e
  | none => .ok (r.json.render layout)

def writeMessage (e : SurrogateError) : String :=
  "Error serializing to JSON: UnicodeEncodeError: " ++ e.message

/-- A natural number that is not below a bound. -/
def toCount (bound : Nat) (v : Value) : Checked Nat := (v.toIntFrom bound).map Int.toNat

/-- The report of a run that ended on this tape. The counts must not be negative. -/
def ofRun (tape : Tape) (output : Text) (programLength steps : Int) (settings : Settings) :
    Except Rejection Report :=
  let length := (toCount 0 (.int programLength)).within "program_length"
  let count := (toCount 0 (.int steps)).within "steps"
  match Checked.both length count with
  | .ok (length, count) =>
    .ok { programLength := length, steps := count, output, cells := tape.cells, settings }
  | .error cs => .error ⟨title, cs⟩

/-- Sets the value of an index. A new index goes to the end, a known one keeps its place. -/
def put (i v : Int) : List (Int × Int) → List (Int × Int)
  | [] => [(i, v)]
  | (j, w) :: rest => if j = i then (j, v) :: rest else (j, w) :: put i v rest

def toCell (key value : Value) : Checked (Int × Int) :=
  let name := key.plain
  Checked.both ((key.toInt.within "[key]").within name) (value.toInt.within name)

def toCells : List (Value × Value) → Checked (List (Int × Int))
  | [] => .ok []
  | (k, v) :: rest =>
    (Checked.both (toCell k v) (toCells rest)).map fun (cell, cells) => cell :: cells

def cellsOfValue (v : Value) : Checked (List (Int × Int)) :=
  match v with
  | .mapping entries =>
    (toCells entries).map fun cells => cells.foldl (fun acc (i, v) => put i v acc) []
  | v => Checked.refuse (.notMapping .json) v

def textOfValue (v : Value) : Checked Text :=
  match v with
  | .text t => .ok t
  | v => Checked.refuse .notText v

def required {α : Type} (entries : List (Value × Value)) (name : String) (check : Value → Checked α) :
    Checked α :=
  match Value.lookup? name entries with
  | some v => (check v).within name
  | none => (Checked.refuse .missing (.mapping entries)).within name

def ofEntries (entries : List (Value × Value)) : Checked Report := do
  let version := Value.field entries "schema_version" 1 (toCount 1)
  let length := required entries "program_length" (toCount 0)
  let steps := required entries "steps" (toCount 0)
  let output := Value.field entries "output" [] textOfValue
  let cells := Value.field entries "cells" [] cellsOfValue
  let settings := required entries "settings" (Settings.ofValue .json)
  let ((version, length, steps), (output, cells, settings)) ←
    Checked.both (Checked.both version (Checked.both length steps))
      (Checked.both output (Checked.both cells settings))
  return ⟨version, length, steps, output, cells, settings⟩

def ofValue : Value → Checked Report
  | .mapping entries => ofEntries entries
  | v => Checked.refuse (.notModel .json title) v

def read (text : String) : Except Rejection Report :=
  let checked :=
    match Json.parse? text with
    | some j => ofValue (Value.ofJson j)
    | none => Checked.refuse .notJson (.text (Text.ofString text))
  checked.mapError (⟨title, ·⟩)

end Report

end TapeMachine
