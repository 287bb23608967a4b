import LoadGen.Proofs.Measure.Counts
import LoadGen.Proofs.Run.Handover
import LoadGen.Run.Schedule

/-!
# The accounts of a run

A run keeps two accounts of its results.  The workers count each result after they have handed it
over, and the ledger counts each result that the collector records.  While a run goes on neither is
up to date, and they differ; when it has ended well they agree.

* `countP_deliveries` — what the workers have counted and what they have yet to count.
* `counts_eq_tally` — the counts of the ledger are those of the recorded results.
-/

namespace LoadGen
namespace Run

variable {p : Plan} {cancelled : Bool} {b : Circuit.Breaker} {l : Ledger} {ts : History}
  {s s' : State} {label : Label} {i : Nat} {w : Worker}

/-- Whether the result was a success that a worker has handed over and not counted yet. -/
def Worker.uncounted? : Worker → Option Bool
  | .counting success => some success
  | _ => none

/-- What the workers have counted. -/
def State.counted (s : State) (success : Bool) : Nat :=
  if success then s.succeeded else s.failed

/-- What the workers have yet to count. -/
def State.uncounted (s : State) (success : Bool) : Nat :=
  (s.workers.toList.filterMap Worker.uncounted?).countP (· == success)

/-- A worker counts only what it has handed over. -/
theorem WorkerMove.counted (hw : s.workers[i]? = some w) (h : WorkerMove p s i w s')
    (success : Bool) :
    s'.counted success + s'.uncounted success = s.counted success + s.uncounted success +
      (delivered? ⟨s, .act (.worker i), s'⟩).toList.countP (·.result.success == success) := by
  have hself := getElem?_setWorker_self hw
  obtain ⟨w', hplace, hsame⟩ : ∃ w', s'.workers = s.workers.setIfInBounds i w' ∧
      s'.counted success + w'.uncounted?.toList.countP (· == success) =
        s.counted success + w.uncounted?.toList.countP (· == success) +
          (delivered? ⟨s, .act (.worker i), s'⟩).toList.countP (·.result.success == success) := by
    cases h with
    | deliver =>
        refine ⟨_, rfl, ?_⟩
        simp [delivered?, hw, hself, Worker.uncounted?, State.counted, State.setWorker]
    | @count outcome =>
        refine ⟨_, rfl, ?_⟩
        cases outcome <;> cases success <;>
          simp [delivered?, hw, Worker.uncounted?, State.counted, State.setWorker]
    | conclude =>
        refine ⟨_, rfl, ?_⟩
        unfold concludeJob
        split <;> simp [delivered?, hw, Worker.uncounted?, State.counted, State.setWorker]
    | leave | queueUp | giveUp | take | retire | fall | advance | abandon =>
        refine ⟨_, rfl, ?_⟩
        simp [delivered?, hw, hself, Worker.uncounted?, State.counted, State.setWorker]
  have hexchange := countP_filterMap_setIfInBounds Worker.uncounted? (· == success) hw w'
  rw [← hplace] at hexchange
  unfold State.uncounted
  omega

/-- Every result that was handed over is counted by now or about to be. -/
theorem countP_deliveries (ht : Trace (lateStep p) (.initial p cancelled b l) ts s)
    (success : Bool) :
    (deliveries ts).countP (·.result.success == success) =
      s.counted success + s.uncounted success := by
  induction ht with
  | nil =>
      have hnone :
          (State.initial p cancelled b l).workers.toList.filterMap Worker.uncounted? = [] := by
        simp [State.initial, Worker.uncounted?]
      rw [State.uncounted, hnone]
      cases success <;> rfl
  | @snoc ts s s' label hs hstep ih =>
      rw [deliveries, filterMap_snoc, ← deliveries, List.countP_append, ih]
      have hquiet (hlabel : ∀ i, label ≠ .act (.worker i)) := quiet_of_label s s' hlabel
      cases move_of_step hstep with
      | worker hw hmove => exact (hmove.counted hw success).symm
      | generator hmove | collector hmove | supervisor hmove =>
          rw [(hquiet (by simp)).2.1, hmove.frame]
          rfl
      | wait | cancel =>
          rw [(hquiet (by simp)).2.1]
          rfl

theorem completed_eq_of_trace (ht : Trace (lateStep p) (.initial p cancelled b l) ts s) :
    s.completed = s.succeeded + s.failed := by
  refine invariant_of_moves (P := fun s => s.completed = s.succeeded + s.failed) ht rfl ?_
  intro s label s' h hmove
  cases hmove with
  | worker _ hmove =>
      cases hmove with
      | @count success =>
          cases success <;> simp <;> omega
      | _ => exact h
  | generator hmove | collector hmove | supervisor hmove =>
      rw [hmove.frame]
      exact h
  | wait | cancel => exact h

/-- The counts of the ledger are those of the recorded results. -/
theorem counts_eq_tally (ht : Trace (lateStep p) (.initial p cancelled b l) ts s) :
    s.ledger.counts = .tally ((records ts).map Completion.result) := by
  induction ht with
  | nil => rfl
  | @snoc ts s s' label hs hstep ih =>
      rw [records, filterMap_snoc, ← records, List.map_append]
      cases move_of_step hstep with
      | collector hmove =>
          cases hmove with
          | accept _ hresults | refuse _ hresults =>
              simp [recorded?, hresults, Ledger.counts_record, ih, Counts.tally_snoc]
          | close _ hresults => simpa [recorded?, hresults] using ih
      | supervisor hmove =>
          have hsame : s'.ledger.counts = s.ledger.counts := by
            cases hmove <;> rfl
          simpa [recorded?, hsame] using ih
      | worker _ hmove =>
          obtain ⟨-, -, -, -, -, hledger, -⟩ := hmove.frame
          simpa [recorded?, hledger] using ih
      | generator hmove =>
          rw [hmove.frame]
          simpa [recorded?] using ih
      | wait | cancel => simpa [recorded?] using ih

/-! ## The end of a run -/

theorem eq_of_outcome? {r : Result} (hr : s.outcome? p = some (.ok r)) :
    s.supervisor = .finished ∧ s.failure = none ∧
      r = ⟨p.workers, s.dispatched, s.completed, s.succeeded, s.failed, s.now - p.started⟩ := by
  unfold State.outcome? at hr
  split at hr
  · rename_i hfinished
    split at hr
    · cases hr
    · rename_i hnone
      cases hr
      exact ⟨hfinished, hnone, rfl⟩
  · cases hr

/-- Workers that have ended hold nothing. -/
theorem filterMap_workers_eq_nil {β : Type} {f : Worker → Option β} (hended : s.workersEnded = true)
    (hf : ∀ w : Worker, w.ended = true → f w = none) : s.workers.toList.filterMap f = [] := by
  rw [List.filterMap_eq_nil_iff]
  intro w hw
  obtain ⟨i, hi⟩ := Array.getElem?_of_mem (Array.mem_toList_iff.1 hw)
  exact hf w (workersEnded_iff.1 hended i w hi)

/-- At the end of a run that ended well, every job is accounted for and every queue is empty. -/
structure Settled (ts : History) (s : State) : Prop where
  sent_eq : s.sent = s.dispatched
  held_eq : s.held = []
  uncounted_eq : ∀ success, s.uncounted success = 0
  results_eq : deliveries ts = records ts

theorem settled_of_outcome? {r : Result} (ht : Trace (lateStep p) (.initial p cancelled b l) ts s)
    (hr : s.outcome? p = some (.ok r)) : Settled ts s := by
  obtain ⟨hfinished, hnone, -⟩ := eq_of_outcome? hr
  obtain ⟨hgenerator, hended, hcollector, hresults⟩ := (orderly_of_trace ht).settled hfinished hnone
  refine ⟨?_, ?_, ?_, ?_⟩
  · rw [State.sent, hgenerator]
  · refine filterMap_workers_eq_nil hended fun w hw => ?_
    cases w <;> first | rfl | cases hw
  · intro success
    have hcounting : s.workers.toList.filterMap Worker.uncounted? = [] := by
      refine filterMap_workers_eq_nil hended fun w hw => ?_
      cases w <;> first | rfl | cases hw
    rw [State.uncounted, hcounting]
    rfl
  · rw [deliveries_eq_records ht (by simp [hcollector]), hresults, List.append_nil]

/-- The results that were handed over are of different jobs, all of them dispatched. -/
theorem delivered_ids_of_trace (ht : Trace (lateStep p) (.initial p cancelled b l) ts s) :
    ((deliveries ts).map fun c => c.job.id).Subperm (List.range s.sent) := by
  have htaken : ((takes ts).map Prod.snd).Subperm (dispatches ts) := by
    rw [dispatches_eq_takes ht]
    exact (List.sublist_append_left _ _).subperm
  have hhanded : ((deliveries ts).map Completion.job).Subperm (dispatches ts) := by
    refine List.Subperm.trans ?_ htaken
    refine List.Subperm.trans ?_ (takes_perm ht).symm.subperm
    rw [List.append_assoc]
    exact (List.sublist_append_left _ _).subperm
  obtain ⟨jobs, hperm, hsub⟩ := hhanded
  have hids : (((deliveries ts).map Completion.job).map Job.id).Subperm
      ((dispatches ts).map Job.id) :=
    ⟨jobs.map Job.id, hperm.map Job.id, hsub.map Job.id⟩
  rw [List.map_map, dispatched_ids_of_trace ht] at hids
  exact hids

/-- The two accounts of a run that has ended well: what the workers counted, what the ledger
counted, and the jobs behind it. -/
theorem accounts_of_outcome? {r : Result} (ht : Trace (lateStep p) (.initial p cancelled b l) ts s)
    (hr : s.outcome? p = some (.ok r)) :
    r.completed = r.succeeded + r.failed ∧ r.completed ≤ r.dispatched ∧ r.dispatched ≤ p.total ∧
      s.ledger.counts.total = r.completed ∧ s.ledger.counts.success = r.succeeded ∧
      s.ledger.counts.failed = r.failed ∧
      s.ledger.counts.reads + s.ledger.counts.writes = r.completed ∧
      ((records ts).map fun c => c.job.id).Subperm (List.range r.dispatched) := by
  have hsettled := settled_of_outcome? ht hr
  obtain ⟨-, -, rfl⟩ := eq_of_outcome? hr
  have hcompleted := completed_eq_of_trace ht
  have hrecorded (success : Bool) :
      ((records ts).map Completion.result).countP (·.success == success) = s.counted success := by
    rw [← hsettled.results_eq, List.countP_map]
    have hdelivered := countP_deliveries ht success
    rw [hsettled.uncounted_eq success, Nat.add_zero] at hdelivered
    exact hdelivered
  have hlength : ((records ts).map Completion.result).length = s.completed := by
    have hboth := List.length_eq_countP_add_countP (l := (records ts).map Completion.result)
      (·.success == true)
    have hnot :
        ((records ts).map Completion.result).countP (fun r => ¬ (r.success == true) = true) =
        ((records ts).map Completion.result).countP (·.success == false) := by
      congr 1
      funext r
      cases r.success <;> rfl
    rw [hboth, hnot, hrecorded true, hrecorded false, hcompleted]
    rfl
  have hids := delivered_ids_of_trace ht
  rw [hsettled.results_eq, hsettled.sent_eq] at hids
  refine ⟨hcompleted, ?_, ?_, ?_⟩
  · have hle := hids.length_le
    rw [List.length_map, List.length_range] at hle
    rw [List.length_map] at hlength
    exact hlength ▸ hle
  · exact (numbered_of_trace ht).dispatched_le
  · rw [counts_eq_tally ht, Counts.total_tally, Counts.reads_add_writes_tally]
    have houtcome (success : Bool) := (Counts.ofOutcome_tally _ success).trans (hrecorded success)
    exact ⟨hlength, houtcome true, houtcome false, hlength, hids⟩

end Run
end LoadGen
