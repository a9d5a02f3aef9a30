import FlowEngine.CommandLine.Arguments
import FlowEngine.CommandLine.Command
import FlowEngine.CommandLine.Program
import FlowEngine.Condition.Compare
import FlowEngine.Condition.Operand
import FlowEngine.Data.Brief
import FlowEngine.Data.Display
import FlowEngine.Data.Entries
import FlowEngine.Data.Inline
import FlowEngine.Data.Instant
import FlowEngine.Data.Limit
import FlowEngine.Data.Path
import FlowEngine.Data.Value
import FlowEngine.Database.Address
import FlowEngine.Database.Pool
import FlowEngine.Dispatch.Dispatcher
import FlowEngine.Dispatch.Schedule
import FlowEngine.Document.Checked
import FlowEngine.Document.Written
import FlowEngine.Event.Basic
import FlowEngine.Event.Bus
import FlowEngine.Execution.Files
import FlowEngine.Execution.Key
import FlowEngine.Execution.Record
import FlowEngine.Execution.Store
import FlowEngine.Expression.Arithmetic
import FlowEngine.Fault
import FlowEngine.Flow.Check
import FlowEngine.Flow.Document
import FlowEngine.Flow.Edge
import FlowEngine.Flow.File
import FlowEngine.Flow.FilePath
import FlowEngine.Flow.Graph
import FlowEngine.Flow.Node
import FlowEngine.Flow.Outcome
import FlowEngine.Flow.Store
import FlowEngine.Json.Parser
import FlowEngine.Json.Printer
import FlowEngine.Log.Format
import FlowEngine.Log.Record
import FlowEngine.Log.Scope
import FlowEngine.Log.Setup
import FlowEngine.Main
import FlowEngine.Model.Call
import FlowEngine.Model.Prompt
import FlowEngine.Model.Provider
import FlowEngine.Model.Reply
import FlowEngine.Number.Double
import FlowEngine.Number.Numeral
import FlowEngine.Number.Shortest
import FlowEngine.Outside.Alone
import FlowEngine.Outside.Site
import FlowEngine.Proofs.Condition.Coherent
import FlowEngine.Proofs.Condition.Cut
import FlowEngine.Proofs.Condition.Literals
import FlowEngine.Proofs.Condition.Mirrored
import FlowEngine.Proofs.Data.Instant
import FlowEngine.Proofs.Data.Latest
import FlowEngine.Proofs.Data.Path
import FlowEngine.Proofs.Database.Statements
import FlowEngine.Proofs.Dispatch.Agree
import FlowEngine.Proofs.Dispatch.Booked
import FlowEngine.Proofs.Dispatch.Correlation
import FlowEngine.Proofs.Dispatch.Course
import FlowEngine.Proofs.Dispatch.Drained
import FlowEngine.Proofs.Dispatch.Exhausted
import FlowEngine.Proofs.Dispatch.Finalised
import FlowEngine.Proofs.Dispatch.Interleaved
import FlowEngine.Proofs.Dispatch.Nested
import FlowEngine.Proofs.Dispatch.Prompt
import FlowEngine.Proofs.Dispatch.Recursion
import FlowEngine.Proofs.Dispatch.Starts
import FlowEngine.Proofs.Dispatch.Story
import FlowEngine.Proofs.Dispatch.Together
import FlowEngine.Proofs.Document.Reading
import FlowEngine.Proofs.Event.Account
import FlowEngine.Proofs.Event.Delivered
import FlowEngine.Proofs.Event.History
import FlowEngine.Proofs.Execution.Files
import FlowEngine.Proofs.Expression.Integers
import FlowEngine.Proofs.Expression.Operands
import FlowEngine.Proofs.Flow.Body
import FlowEngine.Proofs.Flow.Circuit
import FlowEngine.Proofs.Flow.Document
import FlowEngine.Proofs.Flow.Edges
import FlowEngine.Proofs.Json.Complete
import FlowEngine.Proofs.Json.Grammar
import FlowEngine.Proofs.Json.Overlong
import FlowEngine.Proofs.Json.Printed
import FlowEngine.Proofs.Json.Quoting
import FlowEngine.Proofs.Log.Color
import FlowEngine.Proofs.Model.Reply
import FlowEngine.Proofs.Number.Fraction
import FlowEngine.Proofs.Number.Range
import FlowEngine.Proofs.Number.Rounding
import FlowEngine.Proofs.Number.Whole
import FlowEngine.Proofs.Number.Written
import FlowEngine.Proofs.Reference.Resolvable
import FlowEngine.Proofs.Reference.Saved
import FlowEngine.Proofs.Reference.Substitution
import FlowEngine.Proofs.Reference.Woven
import FlowEngine.Proofs.Retry.Readable
import FlowEngine.Proofs.Retry.Usable
import FlowEngine.Proofs.Run.Advance
import FlowEngine.Proofs.Run.Alarm
import FlowEngine.Proofs.Run.Calls
import FlowEngine.Proofs.Run.Ceiling
import FlowEngine.Proofs.Run.Compatible
import FlowEngine.Proofs.Run.Iteration
import FlowEngine.Proofs.Run.Ledger
import FlowEngine.Proofs.Run.LoopIndex
import FlowEngine.Proofs.Run.LoopItems
import FlowEngine.Proofs.Run.Message
import FlowEngine.Proofs.Run.Observed
import FlowEngine.Proofs.Run.Passage
import FlowEngine.Proofs.Run.Payload
import FlowEngine.Proofs.Run.Precedence
import FlowEngine.Proofs.Run.Reach
import FlowEngine.Proofs.Run.Rest
import FlowEngine.Proofs.Run.Retry
import FlowEngine.Proofs.Run.Return
import FlowEngine.Proofs.Run.Routing
import FlowEngine.Proofs.Run.Saved
import FlowEngine.Proofs.Run.ScriptView
import FlowEngine.Proofs.Run.Stays
import FlowEngine.Proofs.Run.Tour
import FlowEngine.Proofs.Run.Valid
import FlowEngine.Proofs.Run.Verdict
import FlowEngine.Proofs.Run.Walk
import FlowEngine.Proofs.Script.Reply
import FlowEngine.Proofs.Service.Headers
import FlowEngine.Proofs.Service.Tagged
import FlowEngine.Proofs.Step.Aloof
import FlowEngine.Proofs.Step.Asking
import FlowEngine.Proofs.Step.CallFlow
import FlowEngine.Proofs.Step.Condition
import FlowEngine.Proofs.Step.Frame
import FlowEngine.Proofs.Step.Loop
import FlowEngine.Proofs.Step.LoopState
import FlowEngine.Proofs.Step.Message
import FlowEngine.Proofs.Step.Owned
import FlowEngine.Proofs.Step.Plain
import FlowEngine.Proofs.Step.Question
import FlowEngine.Proofs.Step.Secrets
import FlowEngine.Proofs.Step.Variables
import FlowEngine.Proofs.Text.Lines
import FlowEngine.Proofs.Text.Pieces
import FlowEngine.Proofs.Text.Utf8
import FlowEngine.Proofs.Work.Compatible
import FlowEngine.Proofs.Work.Ensures
import FlowEngine.Proofs.Work.Keeps
import FlowEngine.Proofs.Work.Observed
import FlowEngine.Proofs.Work.Telling
import FlowEngine.Proofs.Work.Transcript
import FlowEngine.Reference.Resolve
import FlowEngine.Reference.Template
import FlowEngine.Reference.Unresolved
import FlowEngine.Retry.Policy
import FlowEngine.Run.Attempt
import FlowEngine.Run.Context
import FlowEngine.Run.Dialogue
import FlowEngine.Run.Engine
import FlowEngine.Run.Recording
import FlowEngine.Run.Route
import FlowEngine.Run.Work
import FlowEngine.Script.Harness
import FlowEngine.Script.Result
import FlowEngine.Script.Runner
import FlowEngine.Script.Scratch
import FlowEngine.Service.Connector
import FlowEngine.Service.Exchange
import FlowEngine.Service.Web
import FlowEngine.Settings.Basic
import FlowEngine.Settings.Read
import FlowEngine.Step.AskModel
import FlowEngine.Step.Branch
import FlowEngine.Step.CallFlow
import FlowEngine.Step.CallService
import FlowEngine.Step.Data
import FlowEngine.Step.Finish
import FlowEngine.Step.Loop
import FlowEngine.Step.Registry
import FlowEngine.Step.RunScript
import FlowEngine.Step.Standard
import FlowEngine.Text.Base64
import FlowEngine.Text.Blank
import FlowEngine.Text.Case
import FlowEngine.Text.Color
import FlowEngine.Text.Digit
import FlowEngine.Text.Percent
import FlowEngine.Text.Printable
import FlowEngine.Text.Search
import FlowEngine.Text.Utf8
import FlowEngine.Text.Word
