import LoadGen.Main
import LoadGen.Proofs.Circuit.Refusal
import LoadGen.Proofs.Circuit.Streaks
import LoadGen.Proofs.Engine.Agreement
import LoadGen.Proofs.Retry.Crowd
import LoadGen.Proofs.Retry.History
import LoadGen.Proofs.Run.Circuit
import LoadGen.Retry.Trial
import LoadGen.Proofs.Measure.Window
import LoadGen.Proofs.Run.Cancellation
import LoadGen.Proofs.Engine.Bounds
import LoadGen.Proofs.Engine.Cancellation
import LoadGen.Proofs.Retry.Postponed
import LoadGen.Proofs.Measure.Postponed
import LoadGen.Proofs.Run.Postponed
import LoadGen.Proofs.Run.Repetition
import LoadGen.Proofs.Engine.Repetition
import LoadGen.Proofs.Measure.Receipt
import LoadGen.Proofs.Measure.Errors
import LoadGen.Proofs.Engine.Reports
import LoadGen.Proofs.Circuit.Recovery
import LoadGen.Proofs.Run.Pacing
import LoadGen.Proofs.Engine.Pacing
import LoadGen.Proofs.Retry.Timeline
import LoadGen.Proofs.Retry.Trials
import LoadGen.Proofs.Measure.Refusals
import LoadGen.Proofs.Measure.Percentiles
import LoadGen.Proofs.Decimal.Order
import LoadGen.Proofs.Measure.Keys
import LoadGen.Proofs.Report.Labels
import LoadGen.Proofs.Fault.Precedence
import LoadGen.Proofs.CommandLine.Endings
