import TacBench.Bench.Case
import TacBench.Bench.Log
import TacBench.Bench.ManyParameters
import TacBench.Bench.OutputLog
import TacBench.Bench.Report
import TacBench.Bench.Run
import TacBench.Bench.Runner
import TacBench.Bench.Suite
import TacBench.Bench.Token
import TacBench.Bench.Trial
import TacBench.Bench.Upload
import TacBench.Bench.Wildcard
import TacBench.Code.Error
import TacBench.Code.Instruction
import TacBench.Code.Opcode
import TacBench.Code.Operand
import TacBench.Code.Program
import TacBench.CommandLine.Grammar
import TacBench.CommandLine.Interpret
import TacBench.CommandLine.TestRun
import TacBench.Debug.Session
import TacBench.Debug.Worker
import TacBench.Dictionary
import TacBench.Diff.Matching
import TacBench.Diff.Unified
import TacBench.Editor.Breakpoints
import TacBench.Editor.ChangeMarks
import TacBench.Editor.Completion
import TacBench.Editor.Console
import TacBench.Editor.CurrentWord
import TacBench.Editor.DebugPanel
import TacBench.Editor.HighlightRules
import TacBench.Editor.Highlighter
import TacBench.Editor.Outline
import TacBench.Editor.Scale
import TacBench.Editor.SourceFile
import TacBench.Editor.TextWriter
import TacBench.Files.Glob
import TacBench.Files.Path
import TacBench.Files.Tree
import TacBench.Json
import TacBench.Json.FileTree
import TacBench.Json.Parse
import TacBench.Json.Print
import TacBench.Json.Snapshot
import TacBench.Json.Typed
import TacBench.Machine.Access
import TacBench.Machine.Command
import TacBench.Machine.Input
import TacBench.Machine.Run
import TacBench.Machine.State
import TacBench.Machine.Summary
import TacBench.Main
import TacBench.Number.Binary64
import TacBench.Number.Decimal
import TacBench.Number.Hexadecimal
import TacBench.Number.Integer
import TacBench.Pattern
import TacBench.Pattern.Backtracking
import TacBench.Pattern.Parse
import TacBench.Release.Archive
import TacBench.Text
import TacBench.Text.Blank
import TacBench.Text.CaseFold
import TacBench.Text.Casing
import TacBench.Text.Digit
import TacBench.Text.Letter
import TacBench.Text.Lines
import TacBench.Text.Printable
import TacBench.Text.Quoted
import TacBench.Text.RawEscape
import TacBench.Text.Replace
import TacBench.Text.Utf8
import TacBench.Value
import TacBench.Value.Conversion
import TacBench.Value.Fault
import TacBench.Value.Operation
import TacBench.Value.Template
import TacBench.Proofs.Control
import TacBench.Proofs.Labels
import TacBench.Proofs.Placement
import TacBench.Proofs.Return
import TacBench.Proofs.Access
import TacBench.Proofs.StackForms
import TacBench.Proofs.Stepping
import TacBench.Proofs.Phases
import TacBench.Proofs.Isolation
import TacBench.Proofs.Loaded
import TacBench.Proofs.Resolution
import TacBench.Proofs.Declarations
import TacBench.Proofs.Prices
import TacBench.Proofs.Breakpoints
import TacBench.Proofs.Record
import TacBench.Proofs.Stopping
import TacBench.Proofs.Lifecycle
import TacBench.Proofs.RemovedLines
import TacBench.Proofs.Parallel
import TacBench.Proofs.Words
import TacBench.Proofs.InputLines
import TacBench.Proofs.SourceLines
import TacBench.Proofs.Comments
import TacBench.Proofs.Encoding
import TacBench.Proofs.Surface
import TacBench.Proofs.WrittenFiles
import TacBench.Proofs.LogText
import TacBench.Proofs.Replay
import TacBench.Proofs.Matching
import TacBench.Proofs.Hunks
import TacBench.Proofs.AddedLines
import TacBench.Proofs.Outline
import TacBench.Proofs.ItemLookup
import TacBench.Proofs.VariablesView
import TacBench.Proofs.CallView
import TacBench.Proofs.Causes
import TacBench.Proofs.Reports
import TacBench.Proofs.Outcomes
import TacBench.Proofs.Tally
import TacBench.Proofs.Judgement
import TacBench.Proofs.CodeFiles
import TacBench.Proofs.Uploads
import TacBench.Proofs.Cases
import TacBench.Proofs.Sections
import TacBench.Proofs.InputValues
import TacBench.Proofs.Selection
import TacBench.Proofs.ReplacedFiles
import TacBench.Proofs.CaseFiles
import TacBench.Proofs.ExitCodes
import TacBench.Proofs.HexNumbers
import TacBench.Proofs.LoadErrors
import TacBench.Proofs.MarkedLines
import TacBench.Proofs.OperandForms
import TacBench.Proofs.MissingFrames
import TacBench.Proofs.OddRounding
import TacBench.Proofs.Assignments
import TacBench.Proofs.Characters
import TacBench.Proofs.TypeNames
import TacBench.Proofs.Escapes
import TacBench.Proofs.OfferedVariables
import TacBench.Proofs.GeneratedPrograms
import TacBench.Proofs.RemovedFiles
import TacBench.Proofs.ClearedLogs
import TacBench.Proofs.WordBorders
import TacBench.Proofs.FreeLines
import TacBench.Proofs.PairedLines
import TacBench.Proofs.PatternMatches
import TacBench.Proofs.Backtracking
import TacBench.Proofs.EscapedPatterns
import TacBench.Proofs.Highlighting
