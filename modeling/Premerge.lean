import Premerge.Change.Basic
import Premerge.Change.Classification
import Premerge.Change.Glob
import Premerge.Change.NameStatus
import Premerge.CommandLine.Command
import Premerge.CommandLine.LogFilter
import Premerge.CommandLine.Options
import Premerge.CommandLine.Perform
import Premerge.CommitMessage
import Premerge.Config.Basic
import Premerge.Config.Text
import Premerge.Config.Validation
import Premerge.Data.Json.Printer
import Premerge.Data.Json.Reader
import Premerge.Data.NameMap
import Premerge.Data.Record
import Premerge.Data.Timestamp
import Premerge.Data.Toml.Node
import Premerge.Data.Toml.Printer
import Premerge.Data.Toml.Reader
import Premerge.Data.Toml.Scalar
import Premerge.Data.Value
import Premerge.Digest.Sha256
import Premerge.Failure
import Premerge.Job.Identity
import Premerge.Job.Report
import Premerge.Job.Validation
import Premerge.Job.Verdict
import Premerge.Log
import Premerge.Main
import Premerge.Proofs.Change.Endings
import Premerge.Proofs.Change.Independence
import Premerge.Proofs.Change.Matching
import Premerge.Proofs.Change.NameStatus
import Premerge.Proofs.Change.Predicates
import Premerge.Proofs.CommandLine.Agreement
import Premerge.Proofs.CommandLine.ExitStatus
import Premerge.Proofs.CommitMessage
import Premerge.Proofs.Config.Acceptance
import Premerge.Proofs.Config.RoundTrip
import Premerge.Proofs.Data.Records
import Premerge.Proofs.Data.Toml.Keys
import Premerge.Proofs.Data.Toml.Lines
import Premerge.Proofs.Data.Toml.Numbers
import Premerge.Proofs.Data.Toml.Sections
import Premerge.Proofs.Data.Toml.Values
import Premerge.Proofs.Files.Beside
import Premerge.Proofs.Files.Climbing
import Premerge.Proofs.Files.Filling
import Premerge.Proofs.Files.Listing
import Premerge.Proofs.Files.Making
import Premerge.Proofs.Files.Tree
import Premerge.Proofs.Files.Writable
import Premerge.Proofs.Job.Aborting
import Premerge.Proofs.Job.Causes
import Premerge.Proofs.Job.Clock
import Premerge.Proofs.Job.Contents
import Premerge.Proofs.Job.Counting
import Premerge.Proofs.Job.Environment
import Premerge.Proofs.Job.Examining
import Premerge.Proofs.Job.Failing
import Premerge.Proofs.Job.Milestones
import Premerge.Proofs.Job.Publication
import Premerge.Proofs.Job.Quiet
import Premerge.Proofs.Job.Skipping
import Premerge.Proofs.Job.Stages
import Premerge.Proofs.Job.Teardown
import Premerge.Proofs.Job.Verdict
import Premerge.Proofs.Report.Creating
import Premerge.Proofs.Report.Fencing
import Premerge.Proofs.Report.FragmentFiles
import Premerge.Proofs.Report.Naming
import Premerge.Proofs.Report.Order
import Premerge.Proofs.Report.OwnFiles
import Premerge.Proofs.Report.Publishing
import Premerge.Proofs.Report.Rebuilding
import Premerge.Proofs.Report.Rejoining
import Premerge.Proofs.Report.Repeats
import Premerge.Proofs.Report.Republishing
import Premerge.Proofs.Report.Scanning
import Premerge.Proofs.Report.Sections
import Premerge.Proofs.Report.Status
import Premerge.Proofs.Run.Alone
import Premerge.Proofs.Run.Clock
import Premerge.Proofs.Run.Deadline
import Premerge.Proofs.Run.Ending
import Premerge.Proofs.Run.Files
import Premerge.Proofs.Run.History
import Premerge.Proofs.Run.InTurn
import Premerge.Proofs.Run.Interleaving
import Premerge.Proofs.Run.Modes
import Premerge.Proofs.Run.RawReports
import Premerge.Proofs.Run.Skipping
import Premerge.Proofs.Run.Telling
import Premerge.Proofs.Run.Together
import Premerge.Proofs.Run.Touches
import Premerge.Proofs.Service.Files
import Premerge.Proofs.Service.Outside
import Premerge.Proofs.Service.Polling
import Premerge.Proofs.Service.Readiness
import Premerge.Proofs.Service.Reporting
import Premerge.Proofs.Service.Session
import Premerge.Proofs.Service.Startup
import Premerge.Proofs.Service.Window
import Premerge.Proofs.Text.Cutting
import Premerge.Proofs.Text.Lines
import Premerge.Proofs.Text.Segments
import Premerge.Proofs.Text.Utf8
import Premerge.Proofs.Tool.Dispatching
import Premerge.Proofs.Tool.Executable
import Premerge.Proofs.Tool.Table
import Premerge.Proofs.World.Quiet
import Premerge.Report.Directory
import Premerge.Report.Escape
import Premerge.Report.Fragment
import Premerge.Report.Publication
import Premerge.Report.Sections
import Premerge.Report.Summary
import Premerge.Repository
import Premerge.Run.Execution
import Premerge.Run.Outcome
import Premerge.Service.Basic
import Premerge.Service.Compose
import Premerge.Service.Memory
import Premerge.Service.Runtime
import Premerge.Service.Script
import Premerge.Service.Session
import Premerge.Service.Startup
import Premerge.Text.Blank
import Premerge.Text.Capital
import Premerge.Text.Glyphless
import Premerge.Text.Line
import Premerge.Text.Quoted
import Premerge.Text.Utf8
import Premerge.Tool.Basic
import Premerge.Tool.Dispatch
import Premerge.Tool.Stock
import Premerge.Tool.Table
import Premerge.World.Basic
import Premerge.World.FileTree
import Premerge.World.Path
import Premerge.World.Playbook
import Premerge.World.Program
import Premerge.Proofs.Job.Digest
import Premerge.Proofs.Tool.Registration
import Premerge.Proofs.Service.Recording
