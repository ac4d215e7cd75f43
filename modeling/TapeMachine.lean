import TapeMachine.Calendar
import TapeMachine.Cell
import TapeMachine.Command.FileTree
import TapeMachine.Command.Item
import TapeMachine.Command.Path
import TapeMachine.Command.Request
import TapeMachine.Command.Transcript
import TapeMachine.Command.Usage
import TapeMachine.Command.World
import TapeMachine.Complaint
import TapeMachine.EnvFile
import TapeMachine.Environment
import TapeMachine.Fault
import TapeMachine.Instruction
import TapeMachine.Json.Basic
import TapeMachine.Json.Reader
import TapeMachine.Machine.Log
import TapeMachine.Machine.Run
import TapeMachine.Machine.State
import TapeMachine.Machine.Step
import TapeMachine.Main
import TapeMachine.Newline
import TapeMachine.Number.Binary64
import TapeMachine.Number.Decimal
import TapeMachine.Number.Integer
import TapeMachine.Program
import TapeMachine.Reader
import TapeMachine.Proofs.Brackets.Balance
import TapeMachine.Proofs.Brackets.Faults
import TapeMachine.Proofs.Brackets.JumpTable
import TapeMachine.Proofs.Brackets.Nesting
import TapeMachine.Proofs.Structured.Loops
import TapeMachine.Proofs.Structured.Semantics
import TapeMachine.Proofs.Structured.Simulation
import TapeMachine.Proofs.Structured.Tree
import TapeMachine.Proofs.Trajectory
import TapeMachine.Report
import TapeMachine.Session
import TapeMachine.Settings.Basic
import TapeMachine.Settings.Check
import TapeMachine.Settings.Document
import TapeMachine.Settings.Layers
import TapeMachine.Sink
import TapeMachine.Source
import TapeMachine.Tape
import TapeMachine.Text.Blank
import TapeMachine.Text.CodePoint
import TapeMachine.Text.Digit
import TapeMachine.Text.Lower
import TapeMachine.Text.Printable
import TapeMachine.Text.Quoted
import TapeMachine.Text.Surrogate
import TapeMachine.Utf8
import TapeMachine.Value
import TapeMachine.Value.Key
import TapeMachine.Yaml.Block
import TapeMachine.Yaml.Cursor
import TapeMachine.Yaml.Document
import TapeMachine.Yaml.Error
import TapeMachine.Yaml.Lexer
import TapeMachine.Yaml.Node
import TapeMachine.Yaml.Plain
import TapeMachine.Yaml.Property
import TapeMachine.Yaml.Quoted
import TapeMachine.Yaml.Scalar
import TapeMachine.Yaml.Tag
import TapeMachine.Yaml.Timestamp
import TapeMachine.Yaml.Token
import TapeMachine.Proofs.Width
import TapeMachine.Proofs.LastStep
import TapeMachine.Proofs.SourceBytes
import TapeMachine.Proofs.Numeral
import TapeMachine.Proofs.Json.Token
import TapeMachine.Proofs.Json.RoundTrip
import TapeMachine.Proofs.ReportRoundTrip
import TapeMachine.Proofs.InputRead
import TapeMachine.Proofs.SessionRuns
import TapeMachine.Proofs.RunFaults
import TapeMachine.Proofs.Command.Agreement
import TapeMachine.Proofs.LoopEntry
import TapeMachine.Proofs.Settings.Precedence
import TapeMachine.Proofs.WriteHistory
import TapeMachine.Proofs.Settings.Document
import TapeMachine.Proofs.Command.SettingsFaults
import TapeMachine.Proofs.Tracing
import TapeMachine.Proofs.Readers
import TapeMachine.Proofs.Utf8Text
import TapeMachine.Proofs.PrintedOutput
import TapeMachine.Proofs.Command.InputRoutes
import TapeMachine.Proofs.Composition
import TapeMachine.Proofs.Homogeneity
import TapeMachine.Proofs.TapeOperations
import TapeMachine.Proofs.Utf8Strict
import TapeMachine.Proofs.Command.UndecodableInput
import TapeMachine.Proofs.ShiftSequences
import TapeMachine.Proofs.Structured.Triples
import TapeMachine.Proofs.Programs.Counting
import TapeMachine.Proofs.Programs.Echo
import TapeMachine.Proofs.Settings.Reloading
import TapeMachine.Proofs.Brackets.Search
import TapeMachine.Proofs.StepCount
