import PathWatch.Config.Decode
import PathWatch.Diff
import PathWatch.Format.Bytes
import PathWatch.Format.Calendar
import PathWatch.Memory.Store
import PathWatch.Memory.Table
import PathWatch.Monitor
import PathWatch.Disk.Change
import PathWatch.Scenario.Perform
import PathWatch.Cli.Run
import PathWatch.Main
import PathWatch.Cli.Listing
import PathWatch.Proofs.Keyed
import PathWatch.Proofs.Text.ByteOrder
import PathWatch.Proofs.Snapshot.Live
import PathWatch.Proofs.Diff
import PathWatch.Proofs.Capture.Frame
import PathWatch.Proofs.Watcher
import PathWatch.Proofs.Watcher.Evolution
import PathWatch.Proofs.Cycle.Trace
import PathWatch.Proofs.Cycle.Acts
import PathWatch.Proofs.Cycle.Aloof
import PathWatch.Proofs.Cycle.Delivery
import PathWatch.Proofs.Cycle.Reporting
import PathWatch.Proofs.Cycle.Stale
import PathWatch.Proofs.Cycle.Tally
import PathWatch.Proofs.Memory.Path
import PathWatch.Proofs.Memory.Key
import PathWatch.Proofs.Memory.Scan
import PathWatch.Proofs.Memory.Represents
import PathWatch.Proofs.Memory.Table
import PathWatch.Proofs.Memory.Tree
import PathWatch.Proofs.Memory.Journal
import PathWatch.Proofs.Memory.Capture
import PathWatch.Proofs.Memory.World
import PathWatch.Proofs.Memory.Outage
import PathWatch.Proofs.Memory.Creation
import PathWatch.Proofs.Monitor.Step
import PathWatch.Proofs.Monitor.Closing
import PathWatch.Proofs.Monitor.Listeners
import PathWatch.Proofs.Monitor.Course
import PathWatch.Proofs.Snapshot.Paths
import PathWatch.Proofs.Diff.Script
import PathWatch.Proofs.Capture.Consistent
import PathWatch.Proofs.Capture.Confinement
import PathWatch.Proofs.Memory.Operations
import PathWatch.Proofs.Memory.Answers
import PathWatch.Proofs.Memory.Exact
import PathWatch.Proofs.Memory.Clock
import PathWatch.Proofs.Diagnostics.FanOut
import PathWatch.Proofs.Cycle.Reorder
import PathWatch.Proofs.Capture.Answered
import PathWatch.Proofs.Disk.Names
import PathWatch.Proofs.Memory.Refusal
import PathWatch.Proofs.Diff.Silence
import PathWatch.Proofs.Capture.Vanishing
import PathWatch.Proofs.Cycle.Turns
import PathWatch.Proofs.Bindings.Rows
import PathWatch.Proofs.Cycle.Polls
import PathWatch.Proofs.Cycle.Account
import PathWatch.Proofs.Toml.Document
import PathWatch.Proofs.Config.Decode
import PathWatch.Proofs.Format.Gregorian
import PathWatch.Proofs.Format.Reading
import PathWatch.Proofs.Format.Library
import PathWatch.Proofs.Watcher.Delay
import PathWatch.Proofs.Number.Rounding
import PathWatch.Proofs.Format.Bytes
import PathWatch.Proofs.Memory.Identity
