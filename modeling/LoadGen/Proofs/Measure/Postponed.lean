import LoadGen.Measure.Snapshot
import LoadGen.Proofs.Measure.Window

/-!
# Ledgers on a clock that is ahead

A ledger knows the time by the instant at which its recording began and by the anchor of its rate
window.  On a clock that is ahead it records the same at instants that are so much later, and it has
the same to say.

* `RateWindow.postpone`, `Ledger.postpone` — the same thing with all of its instants put off.
* `Ledger.record_postpone`, `Ledger.finish_postpone`, `Ledger.start_postpone` — what happens to it.
* `Ledger.view_postpone`, `Ledger.snapshot?_postpone` — what it has to say.
-/

namespace LoadGen

variable {d now : Nat}

namespace RateWindow

def postpone (d : Nat) (w : RateWindow) : RateWindow :=
  { w with anchor := d + w.anchor }

@[simp] theorem advance_postpone (w : RateWindow) :
    (w.postpone d).advance (d + now : Nat) = (w.advance now).postpone d := by
  have helapsed : (w.postpone d).elapsedBuckets (d + now : Nat) = w.elapsedBuckets now := by
    unfold elapsedBuckets postpone
    congr 2
    push_cast
    omega
  apply eq_of_parts
  · show rotate w.buckets (min ((w.postpone d).elapsedBuckets _) w.buckets.length) = _
    rw [helapsed]
    rfl
  · rfl
  · show d + w.anchor + Int.ofNat (min ((w.postpone d).elapsedBuckets _ * w.width) _) = _
    rw [helapsed, Int.add_assoc]
    rfl

@[simp] theorem record_postpone (w : RateWindow) :
    (w.postpone d).record (d + now : Nat) = (w.record now).postpone d := by
  unfold record
  simp only [advance_postpone]
  rfl

end RateWindow

namespace Figures

def postpone (d : Nat) (f : Figures) : Figures :=
  { f with window := f.window.postpone d }

theorem add_postpone (f : Figures) (errorCap : Nat) (r : OperationResult) :
    (f.postpone d).add errorCap (d + now) r = (f.add errorCap now r).postpone d := by
  unfold add
  simp only [postpone, RateWindow.record_postpone]

end Figures

namespace Ledger

/-- The ledger that has come to the same on a clock that is ahead. -/
def postpone (d : Nat) (l : Ledger) : Ledger :=
  { l with started := d + l.started, figures := l.figures.postpone d }

theorem start_postpone (options : LedgerOptions) (now : Nat) :
    (start options now).postpone d = start options (d + now) := by
  unfold start postpone Figures.empty Figures.postpone RateWindow.start RateWindow.postpone
  simp only [Int.natCast_add]

theorem record_postpone (l : Ledger) (r : OperationResult) : (l.postpone d).record (d + now) r =
    ((l.record now r).1.postpone d, (l.record now r).2) := by
  unfold record
  have haccepts : (l.postpone d).accepts r = l.accepts r := rfl
  rw [haccepts]
  split
  · simp only [postpone, Figures.add_postpone]
  · rfl

theorem finish_postpone (l : Ledger) :
    (l.postpone d).finish (d + now) = (l.finish now).postpone d := by
  unfold finish
  simp only [postpone, Nat.add_sub_add_left]

/-- A ledger says nothing of the instants that it keeps, only of the time between them. -/
theorem view_postpone (l : Ledger) : (l.postpone d).view (d + now) = l.view now := by
  have hduration : (l.postpone d).duration (d + now) = l.duration now := by
    unfold duration
    simp only [postpone, Nat.add_sub_add_left]
  unfold view
  rw [hduration]
  rfl

theorem snapshot?_postpone (l : Ledger) :
    (l.postpone d).snapshot? (d + now) = l.snapshot? now := by
  unfold snapshot?
  rw [view_postpone]

end Ledger
end LoadGen
