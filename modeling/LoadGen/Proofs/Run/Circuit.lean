import LoadGen.Proofs.Run.Moves
import LoadGen.Proofs.Retry.Moves

/-!
# The breaker of a run

The workers of a run share one breaker, each through the execution of its job.  The breaker sees one
outcome of every call that returns and nothing else.

* `answered?` — what a step leaves on the breaker.
* `breaker_of_trace` — the breaker of a run is a fold over these outcomes.
-/

namespace LoadGen
namespace Run

variable {p : Plan} {cancelled : Bool} {b : Circuit.Breaker} {l : Ledger} {ts : History}
  {s s' : State} {label : Label} {i : Nat} {w : Worker}

/-- The outcome that a step leaves on the breaker. -/
def answered? (x : Transition State Label) : Option Circuit.Event :=
  match x.label with
  | .act (.worker i) =>
    match x.source.workers[i]? with
    | some (.running _ _ execution) =>
      (execution.returned? x.source.cancelled).map (.outcome x.source.now)
    | _ => none
  | _ => none

theorem returned?_eq_none {e : Retry.Execution OperationResult} (h : e.isCalling = false)
    (cancelled : Bool) : e.returned? cancelled = none := by
  unfold Retry.Execution.returned?
  split
  · rename_i hphase
    rw [Retry.Execution.isCalling, hphase] at h
    cases h
  · rfl

theorem WorkerMove.breaker_eq (hw : s.workers[i]? = some w) (h : WorkerMove p s i w s') :
    s'.breaker =
      s.breaker.replay p.thresholds (answered? ⟨s, .act (.worker i), s'⟩).toList := by
  cases h with
  | advance hmove =>
      simp only [answered?, hw]
      exact (Retry.Execution.makes_of_step hmove).breaker_eq
  | conclude hphase | fall hphase =>
      simp only [answered?, hw]
      rw [returned?_eq_none (by rw [Retry.Execution.isCalling, hphase])]
      rfl
  | leave | queueUp | giveUp | take | retire | abandon | deliver | count =>
      simp only [answered?, hw]
      rfl

/-- The breaker of a run has seen one outcome of every call that has returned. -/
theorem breaker_of_trace (ht : Trace (lateStep p) (.initial p cancelled b l) ts s) :
    s.breaker = b.replay p.thresholds (ts.filterMap answered?) := by
  induction ht with
  | nil => rfl
  | snoc _ hstep ih =>
      rw [filterMap_snoc, Circuit.Breaker.replay_append, ← ih]
      cases move_of_step hstep with
      | worker hw hmove => exact hmove.breaker_eq hw
      | generator hmove | collector hmove | supervisor hmove =>
          rw [hmove.frame]
          rfl
      | wait | cancel => rfl

end Run
end LoadGen
