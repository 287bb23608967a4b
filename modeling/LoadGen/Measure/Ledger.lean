import LoadGen.Data.Tally
import LoadGen.Job.Basic
import LoadGen.Measure.KeyStats
import LoadGen.Measure.Percentile
import LoadGen.Measure.RateWindow
import LoadGen.Measure.Retained

/-!
# The ledger of results

A ledger folds the results of a run into figures.  It has two parts.  The counts cover every
result that was offered; the figures cover every result that was accepted.  A result is
refused when the sum of all durations would exceed the longest span, and then it is counted
and leaves no other trace.

* `Counts`, `Figures` — the two parts, each with its own fold.
* `Ledger.record` — offers a result and tells whether it was accepted.
* `Ledger.record_snd_iff` — when a result is accepted.
-/

namespace LoadGen

/-- The bounds of what a ledger keeps. -/
structure LedgerOptions where
  /-- Durations kept for the percentiles. -/
  sampleCap : Nat := 10000
  /-- Numbers kept for the percentiles of one metadata key. -/
  keySampleCap : Nat := 1000
  /-- Buckets of the rate window. -/
  windowBuckets : Nat := 60
  /-- Width of a bucket of the rate window, in nanoseconds. -/
  bucketSize : Nat := Nanos.perSecond
  /-- Error messages counted one by one; later ones are counted together. -/
  errorCap : Nat := 100
  deriving Repr, DecidableEq

/-- How many results were offered, in all and by outcome and direction. -/
structure Counts where
  total : Nat := 0
  success : Nat := 0
  failed : Nat := 0
  reads : Nat := 0
  writes : Nat := 0
  deriving Repr, DecidableEq

namespace Counts

def add (c : Counts) (r : OperationResult) : Counts where
  total := c.total + 1
  success := if r.success then c.success + 1 else c.success
  failed := if r.success then c.failed else c.failed + 1
  reads := if r.isRead then c.reads + 1 else c.reads
  writes := if r.isRead then c.writes else c.writes + 1

end Counts

/-- The text under which a failure without an error text is counted. -/
def unknownError : String := "unknown error"

/-- The text under which failures are counted once the ledger knows enough messages. -/
def otherErrors : String := "other errors"

/-- The text under which a failed result is counted, caps apart. -/
def OperationResult.failureText (r : OperationResult) : String :=
  r.error.getD unknownError

theorem OperationResult.failureText_eq (r : OperationResult) :
    r.failureText = r.error.getD "unknown error" := rfl

/-- Counts a failure message; a new one counts as `otherErrors` once `cap` messages are known. -/
def tallyError (cap : Nat) (errors : Tally) (message : String) : Tally :=
  if cap ≤ errors.size ∧ ¬ errors.contains message then Tally.bump errors otherErrors
  else Tally.bump errors message

/-- What is known of the accepted results. -/
structure Figures where
  /-- The sum of all durations, in nanoseconds. -/
  sum : Nat
  fastest : Option Nat
  slowest : Nat
  samples : Retained Nat
  window : RateWindow
  keys : KeyStats
  errors : Tally

namespace Figures

/-- The figures of no result, at the instant `now`. -/
def empty (options : LedgerOptions) (now : Nat) : Figures where
  sum := 0
  fastest := none
  slowest := 0
  samples := .empty options.sampleCap
  window := .start options.windowBuckets options.bucketSize now
  keys := .empty options.keySampleCap
  errors := .empty

/-- The figures with one more result, completed at `now`. -/
def add (f : Figures) (errorCap now : Nat) (r : OperationResult) : Figures where
  sum := f.sum + r.duration
  fastest := some (match f.fastest with
    | none => r.duration
    | some d => min d r.duration)
  slowest := max f.slowest r.duration
  samples := f.samples.push r.duration
  window := f.window.record now
  keys := f.keys.record r.metadata
  errors := if r.success then f.errors else tallyError errorCap f.errors r.failureText

end Figures

/-- The figures of a run, while it is recorded and after. -/
structure Ledger where
  options : LedgerOptions
  /-- When recording began. -/
  started : Nat
  /-- How long recording took, once it is finished. -/
  finished : Option Nat
  counts : Counts
  figures : Figures

namespace Ledger

/-- A ledger without results whose recording begins at `now`. -/
def start (options : LedgerOptions) (now : Nat) : Ledger where
  options := options
  started := now
  finished := none
  counts := {}
  figures := .empty options now

/-- Whether the sum of all durations has room for the result. -/
def accepts (l : Ledger) (r : OperationResult) : Bool :=
  l.figures.sum + r.duration ≤ Nanos.longest

/-- Offers a result completed at `now`, and tells whether it was accepted. -/
def record (l : Ledger) (now : Nat) (r : OperationResult) : Ledger × Bool :=
  let counted := { l with counts := l.counts.add r }
  if l.accepts r then
    ({ counted with figures := l.figures.add l.options.errorCap now r }, true)
  else
    (counted, false)

/-- Freezes the span of the recording at `now`; later calls change nothing. -/
def finish (l : Ledger) (now : Nat) : Ledger :=
  { l with finished := some (l.finished.getD (now - l.started)) }

/-- Drops every result and begins again at `now`. -/
def reset (l : Ledger) (now : Nat) : Ledger :=
  .start l.options now

theorem record_snd_iff (l : Ledger) (now : Nat) (r : OperationResult) :
    (l.record now r).2 = true ↔ l.figures.sum + r.duration ≤ Nanos.longest := by
  unfold record accepts
  by_cases h : l.figures.sum + r.duration ≤ Nanos.longest <;> simp [h]

theorem counts_record (l : Ledger) (now : Nat) (r : OperationResult) :
    (l.record now r).1.counts = l.counts.add r := by
  unfold record
  simp only
  split <;> rfl

theorem figures_record (l : Ledger) (now : Nat) (r : OperationResult) :
    (l.record now r).1.figures =
      if l.accepts r then l.figures.add l.options.errorCap now r else l.figures := by
  unfold record
  simp only
  split <;> rfl

/-- Recording changes neither the caps nor the span. -/
theorem frame_record (l : Ledger) (now : Nat) (r : OperationResult) :
    (l.record now r).1.options = l.options ∧ (l.record now r).1.started = l.started ∧
      (l.record now r).1.finished = l.finished := by
  unfold record
  simp only
  split <;> exact ⟨rfl, rfl, rfl⟩

end Ledger
end LoadGen
