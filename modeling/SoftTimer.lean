import SoftTimer.Saturating
import SoftTimer.Error
import SoftTimer.Counter
import SoftTimer.Clock
import SoftTimer.Setting
import SoftTimer.Config
import SoftTimer.Event.Flags
import SoftTimer.Event.Basic
import SoftTimer.Pool.Basic
import SoftTimer.Pool.Selection
import SoftTimer.Pool.Periods
import SoftTimer.Pool.Drain
import SoftTimer.Stats
import SoftTimer.Sink
import SoftTimer.Hardware.Basic
import SoftTimer.Hardware.Mask
import SoftTimer.SimTimer.Basic
import SoftTimer.SimTimer.Bench
import SoftTimer.SimTimer.Script
import SoftTimer.Scheduler.Basic
import SoftTimer.Scheduler.Operations
import SoftTimer.Scheduler.Suspend
import SoftTimer.Scheduler.Wait
import SoftTimer.Scheduler.Command
import SoftTimer.Scheduler.Drive
import SoftTimer.System.Registry
import SoftTimer.System.TimerRequest
import SoftTimer.System.Host
import SoftTimer.Shared
import SoftTimer.Proofs.Passes
import SoftTimer.Proofs.Pool.Contents
import SoftTimer.Proofs.Pool.Earliest
import SoftTimer.Proofs.Pool.Steps
import SoftTimer.Proofs.Dispatch.Occurrences
import SoftTimer.Proofs.Dispatch.Drain
import SoftTimer.Proofs.Scheduler.Alignment
import SoftTimer.Proofs.Scheduler.Effects
import SoftTimer.Proofs.Scheduler.Simulation
import SoftTimer.Proofs.Scheduler.Frame
import SoftTimer.Proofs.Scheduler.Procedure
import SoftTimer.Proofs.Scheduler.Acts
import SoftTimer.Proofs.Scheduler.Sections
import SoftTimer.Proofs.Bench.Scripts
import SoftTimer.Proofs.Dispatch.Interrupt
import SoftTimer.Proofs.History.Happening
import SoftTimer.Proofs.History.Account
import SoftTimer.Proofs.History.Run
import SoftTimer.Proofs.Pool.Aging
import SoftTimer.Proofs.Scheduler.Cache
import SoftTimer.Proofs.History.Tally
import SoftTimer.Proofs.History.Balance
import SoftTimer.Proofs.History.Ledger
import SoftTimer.Proofs.Bench.Distance
import SoftTimer.Proofs.Bench.Setup
import SoftTimer.Proofs.Bench.Armed
import SoftTimer.Proofs.Bench.Lateness
import SoftTimer.Proofs.Dispatch.Outcome
import SoftTimer.Proofs.Dispatch.Batches
import SoftTimer.Proofs.Dispatch.Resume
import SoftTimer.Proofs.Bench.Timing
import SoftTimer.Proofs.Bench.Lossless
import SoftTimer.Proofs.Bench.Fallback
import SoftTimer.Proofs.Scheduler.Sleep
import SoftTimer.Proofs.Bench.Masking
import SoftTimer.Proofs.Bench.Reads
import SoftTimer.Proofs.Bench.Handovers
import SoftTimer.Proofs.Bench.Sweeps
import SoftTimer.Proofs.Bench.Drives
import SoftTimer.Proofs.Words.Arithmetic
import SoftTimer.Proofs.Words.Drain
import SoftTimer.Proofs.Words.Scheduler
import SoftTimer.Proofs.Words.Faultless
import SoftTimer.Proofs.Clock.Totals
import SoftTimer.Proofs.Clock.Course
import SoftTimer.Proofs.Scheduler.Requests
import SoftTimer.Proofs.Scheduler.Cancellation
import SoftTimer.Proofs.Dispatch.Punctual
import SoftTimer.Proofs.System.Forwarding
import SoftTimer.Proofs.System.Polling
import SoftTimer.Proofs.System.Waiting
import SoftTimer.Proofs.Scheduler.Waking
import SoftTimer.Proofs.Dispatch.Window
import SoftTimer.Proofs.Numerals
import SoftTimer.Proofs.Words.Periods
import SoftTimer.Proofs.Pool.Steps
