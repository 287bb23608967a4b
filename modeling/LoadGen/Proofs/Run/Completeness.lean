import LoadGen.Proofs.Run.Accounts
import LoadGen.Proofs.Run.Excuses

/-!
# Nothing is lost

In a run that is not cancelled and in which no task dies, no worker drops a job.  When such a run
has come to its end, every job that was put into the job queue has been recorded.

* `drops_eq_nil` — no job is dropped.
* `complete_of_trace` — the jobs at the end of such a run, from the job queue to the ledger.
-/

namespace LoadGen
namespace Run

variable {p : Plan} {cancelled : Bool} {b : Circuit.Breaker} {l : Ledger} {ts : History}
  {s s' : State} {label : Label} {i : Nat} {w : Worker}

/-- A worker drops a job only when it ends. -/
theorem ended_of_dropped? (h : dropped? ⟨s, label, s'⟩ ≠ none) :
    ∃ i w w', label = .act (.worker i) ∧ s.workers[i]? = some w ∧ s'.workers[i]? = some w' ∧
      w.job? ≠ none ∧ w'.ended = true := by
  unfold dropped? at h
  split at h
  · rename_i i hlabel
    refine ⟨i, ?_⟩
    split at h
    · exact ⟨_, _, hlabel, ‹_›, ‹_›, h, rfl⟩
    · exact ⟨_, _, hlabel, ‹_›, ‹_›, h, rfl⟩
    · exact absurd rfl h
  · exact absurd rfl h

theorem drops_eq_nil (ht : Trace (lateStep p) (.initial p cancelled b l) ts s)
    (hrun : s.cancelled = false) (halive : ¬ s.Crashed) : drops ts = [] := by
  induction ht with
  | nil => rfl
  | @snoc ts s s' label hs hstep ih =>
      have hmove := move_of_step hstep
      have hrun' : s.cancelled = false :=
        Bool.eq_false_iff.2 fun hcancelled => by simp [hmove.cancelled_mono hcancelled] at hrun
      have halive' : ¬ s.Crashed := fun hcrashed => halive (hmove.crashed_mono hcrashed)
      have hnone : dropped? ⟨s, label, s'⟩ = none := by
        by_contra hdropped
        obtain ⟨i, w, w', rfl, hw, hw', hjob, hended⟩ := ended_of_dropped? hdropped
        cases hmove with
        | worker hw₁ hmove =>
            cases hw.symm.trans hw₁
            rcases (excused_of_trace hs).of_end (orderly_of_trace hs) hw hmove hw' hended with
              hreason | hreason | ⟨rfl, -⟩
            · rw [hrun] at hreason
              cases hreason
            · exact halive hreason
            · exact hjob rfl
      rw [drops, filterMap_snoc, ← drops, ih hrun' halive', hnone]
      rfl

theorem finished_of_outcome? {outcome : Except Task Result} (h : s.outcome? p = some outcome) :
    s.supervisor = .finished := by
  unfold State.outcome? at h
  split at h
  · assumption
  · cases h

theorem outcome?_of_finished (hfinished : s.supervisor = .finished) (hnone : s.failure = none) :
    s.outcome? p = some (.ok
      ⟨p.workers, s.dispatched, s.completed, s.succeeded, s.failed, s.now - p.started⟩) := by
  rw [State.outcome?, hfinished]
  simp only [hnone]

/-- What has become of the jobs when a run has ended that was not cancelled and lost no task. -/
theorem complete_of_trace (ht : Trace (lateStep p) (.initial p cancelled b l) ts s)
    (hrun : s.cancelled = false) (halive : ¬ s.Crashed) (hfinished : s.supervisor = .finished) :
    ∃ r, s.outcome? p = some (.ok r) ∧ (dispatches ts).map Job.id = List.range r.dispatched ∧
      ((takes ts).map fun t => t.2.id) = List.range r.dispatched ∧
      ((records ts).map fun c => c.job.id).Perm (List.range r.dispatched) ∧
      s.ledger.counts.total = r.dispatched ∧ r.completed = r.dispatched ∧
      (p.stopAt = none → r.dispatched = p.total) := by
  have horderly := orderly_of_trace ht
  have hnone := horderly.failure_eq_none halive
  have hr := outcome?_of_finished (p := p) hfinished hnone
  obtain ⟨hgenerator, hended, -, -⟩ := horderly.settled hfinished hnone
  have hsettled := settled_of_outcome? ht hr
  obtain ⟨-, -, -, htotal, -⟩ := accounts_of_outcome? ht hr
  have hdispatched : (dispatches ts).map Job.id = List.range s.dispatched := by
    rw [dispatched_ids_of_trace ht, hsettled.sent_eq]
  have htaken : (takes ts).map Prod.snd = dispatches ts := by
    have hjobs : s.jobs = [] := by
      -- The last worker has left because the queue is empty.
      rcases excuse_of_workersEnded ht hended with hreason | hreason | ⟨-, hjobs⟩
      · rw [hrun] at hreason
        cases hreason
      · exact absurd hreason halive
      · exact hjobs
    rw [dispatches_eq_takes ht, hjobs, List.append_nil]
  have hrecorded : ((records ts).map fun c => c.job.id).Perm (List.range s.dispatched) := by
    have hperm := (takes_perm ht).map Job.id
    rw [htaken, hdispatched, drops_eq_nil ht hrun halive, hsettled.held_eq, hsettled.results_eq,
      List.append_nil, List.append_nil, List.map_map] at hperm
    exact hperm.symm
  have hcount : s.ledger.counts.total = s.dispatched := by
    rw [counts_eq_tally ht, Counts.total_tally, List.length_map]
    simpa using hrecorded.length_eq
  refine ⟨_, hr, hdispatched, ?_, hrecorded, hcount, htotal.symm.trans hcount, ?_⟩
  · rw [← hdispatched, ← htaken, List.map_map]
    rfl
  · intro hlimit
    rcases (excused_of_trace ht).generator hgenerator with hreason | hreason | hreason
    · rw [hrun] at hreason
      cases hreason
    · exact absurd hlimit hreason
    · exact Nat.le_antisymm (numbered_of_trace ht).dispatched_le hreason

end Run
end LoadGen
