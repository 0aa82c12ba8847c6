import Sandbox.Client.Stage
import Sandbox.CommandLine.Basic
import Sandbox.Main
import Sandbox.Runner.Timeline
import Sandbox.Proofs.Client.Change
import Sandbox.Proofs.Client.Table
import Sandbox.Proofs.Client.Ledger
import Sandbox.Proofs.Client.Generation
import Sandbox.Proofs.Client.Bystander
import Sandbox.Proofs.Client.Isolation
import Sandbox.Proofs.Client.Lifecycle
import Sandbox.Proofs.Client.Readiness
import Sandbox.Proofs.Client.Gate
import Sandbox.Proofs.Client.Removal
import Sandbox.Proofs.Client.Settlement
import Sandbox.Proofs.Frame.Bytes
import Sandbox.Proofs.Frame.Cell
import Sandbox.Proofs.Frame.Body
import Sandbox.Proofs.Frame.Stream
import Sandbox.Proofs.Runner.Execution
import Sandbox.Proofs.Runner.Calls
import Sandbox.Proofs.Runner.Outcome
import Sandbox.Proofs.Runner.Replies
import Sandbox.Proofs.Worker.Flow
import Sandbox.Proofs.Worker.Answering
import Sandbox.Proofs.Context.Serving
import Sandbox.Proofs.Context.House
import Sandbox.Proofs.Client.Ending
import Sandbox.Proofs.Client.Snippet
import Sandbox.Proofs.Context.Host
import Sandbox.Proofs.Context.CrossTalk
import Sandbox.Proofs.Frame.Intake
import Sandbox.Proofs.Frame.Canonical
import Sandbox.Proofs.Worker.Exit
import Sandbox.Proofs.Client.Stray
import Sandbox.Proofs.Client.Shift
import Sandbox.Proofs.Client.Rebirth
import Sandbox.Proofs.Client.Timer
import Sandbox.Proofs.Client.Teardown
import Sandbox.Proofs.Frame.Split
import Sandbox.Proofs.Runner.Serving
import Sandbox.Proofs.Context.Refinement
import Sandbox.Proofs.Context.Round
import Sandbox.Proofs.Client.Orphan
import Sandbox.Proofs.Client.Verdict
import Sandbox.Proofs.Client.Lapse
import Sandbox.Proofs.Client.Deadline
import Sandbox.Proofs.Frame.Truncation
import Sandbox.Proofs.Frame.Pieces
import Sandbox.Proofs.Frame.Concord
import Sandbox.Proofs.Frame.Placement
import Sandbox.Proofs.Frame.Guarded
import Sandbox.Proofs.Runner.Attempt
import Sandbox.Proofs.Runner.Turn
import Sandbox.Proofs.Runner.Standing
import Sandbox.Proofs.Runner.Succession
import Sandbox.Proofs.Runner.Slot
import Sandbox.Proofs.Runner.Containment
import Sandbox.Proofs.Context.Aftermath
import Sandbox.Proofs.Client.Creation
import Sandbox.Proofs.Client.Batch
import Sandbox.Proofs.Text.Utf8
import Sandbox.Proofs.Engine.Library
import Sandbox.Proofs.Text.Numeral
import Sandbox.Proofs.Context.Launch
import Sandbox.Proofs.Client.Fitting
import Sandbox.Proofs.Text.Spelling
import Sandbox.Proofs.Text.Json
import Sandbox.Proofs.Client.Log
import Sandbox.Proofs.CommandLine.Configuration
