import LoadGen.Proofs.Run.Completeness
import LoadGen.Proofs.Run.Course
import LoadGen.Proofs.Run.Recording

/-!
# Every job comes to its verdict

Consider a run of prompt tasks that begins on a whole millisecond with a closed circuit, and whose
breaker bears more failures than the workload has.  Then the circuit stays closed, all workers stay
on course, and what is recorded in the end are the results of the workload, in some order.

* `State.ahead` — the failing calls that the workers have yet to make.
* `Faithful` — what is known of such a run at every moment, and `faithful_of_trace`.
* `recordings_perm` — what the ledger holds when such a run has ended.
-/

namespace LoadGen
namespace Run

open Circuit.Breaker (failuresIn)

variable {p : Plan} {w : Workload} {cancelled : Bool} {b : Circuit.Breaker} {l : Ledger}
  {ts : History} {s s' : State} {label : Label} {i : Nat} {worker worker' : Worker}

/-! ## The failing calls -/

/-- The failing calls that the workers have yet to make. -/
def State.ahead (w : Workload) (s : State) : Nat :=
  (s.workers.toList.map (Worker.ahead w)).sum

/-- The failing calls of the jobs that were taken. -/
def Workload.assignedIn (w : Workload) (ts : History) : Nat :=
  ((takes ts).map fun t => (w.verdict t.2.id).failures).sum

theorem Workload.assignedIn_snoc (ts : History) (x : Transition State Label) :
    w.assignedIn (ts ++ [x]) = w.assignedIn ts + w.assigned x := by
  rw [assignedIn, takes, filterMap_snoc, List.map_append, List.sum_append]
  rfl

/-- All workers are on course, the results that were handed over are those of the workload, and the
failing calls that were made or are still ahead were assigned with the jobs. -/
structure Faithful (w : Workload) (ts : History) (s : State) : Prop where
  workers : ∀ (i : Nat) (worker : Worker), s.workers[i]? = some worker → worker.OnCourse w s.now
  delivered : ∀ completion ∈ deliveries ts, w.result? completion.job.id = some completion.result
  spent : failuresIn (ts.filterMap answered?) + s.ahead w ≤ w.assignedIn ts

namespace Faithful

theorem initial (cancelled : Bool) (b : Circuit.Breaker) (l : Ledger) :
    Faithful w [] (.initial p cancelled b l) where
  workers i worker hw := by
    rw [initial_getElem? hw]
    trivial
  delivered completion hmem := by cases hmem
  spent := by
    have hnone : (State.initial p cancelled b l).ahead w = 0 := by
      simp [State.ahead, State.initial, Worker.ahead]
    rw [hnone]
    exact Nat.le_refl _

/-- A step that leaves the workers and the time alone. -/
theorem of_frame (h : Faithful w ts s) (hlabel : ∀ i, label ≠ .act (.worker i))
    (hworkers : s'.workers = s.workers) (hnow : s'.now = s.now) :
    Faithful w (ts ++ [⟨s, label, s'⟩]) s' := by
  obtain ⟨htaken, hdelivered, -⟩ := quiet_of_label s s' hlabel
  have hanswered : answered? ⟨s, label, s'⟩ = none := by
    unfold answered?
    split
    · exact absurd ‹_› (hlabel _)
    · rfl
  refine ⟨?_, ?_, ?_⟩
  · intro i worker hw
    rw [hworkers] at hw
    rw [hnow]
    exact h.workers i worker hw
  · rw [deliveries, filterMap_snoc, hdelivered, Option.toList_none, List.append_nil]
    exact h.delivered
  · have hassigned : w.assigned ⟨s, label, s'⟩ = 0 := by rw [Workload.assigned, htaken]; rfl
    rw [filterMap_snoc, hanswered, Option.toList_none, List.append_nil, Workload.assignedIn_snoc,
      hassigned, State.ahead, hworkers]
    exact h.spent

theorem workerMove (h : Faithful w ts s) (hserves : p.Serves w) (haligned : Nanos.perMilli ∣ s.now)
    (hclosed : s.breaker.state = .closed) (hrun : s.cancelled = false) (hpunctual : Punctual p s)
    (hjobs : ∀ job ∈ s.jobs, w.operation job.id = some job.operation)
    (hw : s.workers[i]? = some worker) (hmove : WorkerMove p s i worker s') :
    Faithful w (ts ++ [⟨s, .act (.worker i), s'⟩]) s' := by
  obtain ⟨⟨worker', hworkers⟩, -, -, -, -, -, -, hnow⟩ := hmove.frame
  have hw' : s'.workers[i]? = some worker' := by
    rw [hworkers]
    exact getElem?_setWorker_self hw worker'
  have hcourse := h.workers i worker hw
  refine ⟨?_, ?_, ?_⟩
  · intro j v hv
    rw [hnow]
    by_cases hij : i = j
    · subst hij
      exact hcourse.of_move hserves haligned hclosed hrun
        (fun wake hwake => (hpunctual.worker i worker wake hw hwake).1) hjobs hw hmove hv
    · rw [hworkers, getElem?_setWorker_ne hij] at hv
      exact h.workers j v hv
  · intro completion hmem
    rw [deliveries, filterMap_snoc] at hmem
    rcases List.mem_append.1 hmem with hold | hnew
    · exact h.delivered completion hold
    · exact h.workers i _ (sending_of_delivered? (Option.mem_toList.1 hnew))
  · have hspends := hcourse.spends hw hmove hw'
    have hexchange := sum_map_setIfInBounds (Worker.ahead w) hw worker'
    rw [← hworkers] at hexchange
    have hspent := h.spent
    unfold State.ahead at hspent ⊢
    rw [filterMap_snoc, Circuit.Breaker.failuresIn_append, Workload.assignedIn_snoc]
    omega

theorem wait (h : Faithful w ts s) {instant : Nat} (hstep : step p s (.wait instant) = some s') :
    Faithful w (ts ++ [⟨s, .wait instant, s'⟩]) s' := by
  obtain ⟨rfl, hlater, hquiet, -⟩ := wait_inv hstep
  refine ⟨?_, ?_, ?_⟩
  · intro i worker hw
    have hw₀ : s.workers[i]? = some worker := hw
    refine (h.workers i worker hw₀).wait (Nat.le_of_lt hlater) ?_
    rintro job since e rfl
    rcases worker_waits hw₀ (hquiet (.worker i)) with
      hended | ⟨wake, hwake, -⟩ | ⟨hat, -⟩ | ⟨completion, hat, -⟩
    · cases hended
    · exact ⟨wake, hwake⟩
    · cases hat
    · cases hat
  · rw [deliveries, filterMap_snoc]
    exact (List.append_nil (deliveries ts)).symm ▸ h.delivered
  · rw [filterMap_snoc, Workload.assignedIn_snoc]
    exact (List.append_nil (ts.filterMap answered?)).symm ▸ h.spent

end Faithful

end Run
end LoadGen
