import Supervisor.Call
import Supervisor.CommandLine
import Supervisor.CommandLine.Usage
import Supervisor.Coordinator
import Supervisor.Decimal.Binary64
import Supervisor.Decimal.Shortest
import Supervisor.Desk
import Supervisor.Error
import Supervisor.Event
import Supervisor.Fault
import Supervisor.Handle
import Supervisor.Host.Condition
import Supervisor.Host.Digit
import Supervisor.Host.Effect
import Supervisor.Host.Escape
import Supervisor.Host.Files
import Supervisor.Host.Format
import Supervisor.Host.Launch
import Supervisor.Host.Locate
import Supervisor.Host.Magnitude
import Supervisor.Host.Modes
import Supervisor.Host.Octets
import Supervisor.Host.Options
import Supervisor.Host.Quote
import Supervisor.Host.Shell
import Supervisor.Host.Shell.Builtin
import Supervisor.Host.Shell.Call
import Supervisor.Host.Shell.Describe
import Supervisor.Host.Shell.Eval
import Supervisor.Host.Shell.Expand
import Supervisor.Host.Shell.Field
import Supervisor.Host.Shell.Number
import Supervisor.Host.Shell.Option
import Supervisor.Host.Shell.Pattern
import Supervisor.Host.Shell.Pipeline
import Supervisor.Host.Shell.Reader
import Supervisor.Host.Shell.Redirect
import Supervisor.Host.Shell.Script
import Supervisor.Host.Shell.Word
import Supervisor.Host.Signal
import Supervisor.Host.Tools
import Supervisor.Host.Tools.Expression
import Supervisor.Host.Tools.Filters
import Supervisor.Host.Tools.Listing
import Supervisor.Host.Tools.Upkeep
import Supervisor.Host.Tools.Waiting
import Supervisor.Host.Tools.Words
import Supervisor.Host.Wrapper
import Supervisor.Launch
import Supervisor.Level
import Supervisor.LineLog
import Supervisor.Main
import Supervisor.Member
import Supervisor.Outcome
import Supervisor.Program
import Supervisor.Proofs.Accounting
import Supervisor.Proofs.Activation
import Supervisor.Proofs.Acts
import Supervisor.Proofs.Anonymity
import Supervisor.Proofs.Arguments
import Supervisor.Proofs.Attempts
import Supervisor.Proofs.CallClock
import Supervisor.Proofs.Cancellation
import Supervisor.Proofs.Configuration
import Supervisor.Proofs.ControlLife
import Supervisor.Proofs.Decoding
import Supervisor.Proofs.DistinctKeys
import Supervisor.Proofs.Drain
import Supervisor.Proofs.Effect
import Supervisor.Proofs.Enrolment
import Supervisor.Proofs.ExitCode
import Supervisor.Proofs.ExitHook
import Supervisor.Proofs.Footprint
import Supervisor.Proofs.Forwarding
import Supervisor.Proofs.Hearing
import Supervisor.Proofs.Isolation
import Supervisor.Proofs.Later
import Supervisor.Proofs.Ledger
import Supervisor.Proofs.Lifecycle
import Supervisor.Proofs.Limits
import Supervisor.Proofs.LineTexts
import Supervisor.Proofs.LogLines
import Supervisor.Proofs.Moves
import Supervisor.Proofs.Prompt
import Supervisor.Proofs.PublishedPid
import Supervisor.Proofs.PumpEnd
import Supervisor.Proofs.PumpRun
import Supervisor.Proofs.Registry
import Supervisor.Proofs.Rendering
import Supervisor.Proofs.Run
import Supervisor.Proofs.StopCalls
import Supervisor.Proofs.Stopping
import Supervisor.Proofs.Story
import Supervisor.Proofs.SweepClock
import Supervisor.Proofs.Sweeping
import Supervisor.Proofs.Teardown
import Supervisor.Proofs.Unlogged
import Supervisor.Proofs.Watching
import Supervisor.Pump
import Supervisor.Pump.Run
import Supervisor.RunStatus
import Supervisor.Runner
import Supervisor.Runner.Step
import Supervisor.Session
import Supervisor.Settings
import Supervisor.Settings.Load
import Supervisor.Sink
import Supervisor.Source
import Supervisor.Stream
import Supervisor.Sweep
import Supervisor.Text.Blank
import Supervisor.Text.Combining
import Supervisor.Text.Control
import Supervisor.Text.Duration
import Supervisor.Text.Line
import Supervisor.Text.Quoted
import Supervisor.Text.Unprintable
import Supervisor.Text.Utf8
import Supervisor.Toml.Document
import Supervisor.Toml.Fault
import Supervisor.Toml.Layout
import Supervisor.Toml.Moment
import Supervisor.Toml.Number
import Supervisor.Toml.Text
import Supervisor.Toml.Token
import Supervisor.Toml.Value
import Supervisor.Watch
import Supervisor.World
import Supervisor.World.Clock
