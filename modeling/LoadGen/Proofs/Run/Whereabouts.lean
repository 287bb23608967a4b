import LoadGen.Proofs.Run.Completeness

/-!
# Where every job is

At every moment of a run each job that was put into the job queue is at one place: its result was
handed over, it is still in the queue, a worker holds it, or a worker that has ended dropped it.  The
queue and the workers have room for so many jobs only, and a worker that has ended drops no other
job, so a run that ended well has lost no more jobs than fit into the queue and into the hands of
the workers.

* `leavers` — who dropped which job; `leavers_of_trace` says that each of them has ended.
* `inFlight_le`, `jobs_length_le` — the calls under way and the jobs in the queue.
* `whereabouts_of_trace` — the places of the jobs that were put into the queue.
* `abandoned_le` — how many jobs a run that ended well can lose.
-/

namespace LoadGen
namespace Run

variable {p : Plan} {cancelled : Bool} {b : Circuit.Breaker} {l : Ledger} {ts : History}
  {s s' : State} {label : Label} {i : Nat} {w : Worker}

/-! ## Calls under way -/

/-- Whether a worker waits for the answer of a call. -/
def Worker.isCalling : Worker → Bool
  | .running _ _ execution => execution.isCalling
  | _ => false

/-- The number of calls under way. -/
def State.inFlight (s : State) : Nat :=
  s.workers.toList.countP Worker.isCalling

/-- No worker has two calls under way. -/
theorem inFlight_le (ht : Trace (lateStep p) (.initial p cancelled b l) ts s) :
    s.inFlight ≤ p.workers := by
  have hsize := size_workers_of_trace ht
  have hle : s.inFlight ≤ s.workers.toList.length := List.countP_le_length
  rw [Array.length_toList, hsize] at hle
  exact hle

/-! ## The job queue -/

/-- The generator puts a job into the queue only when there is room, and nobody else does. -/
theorem jobs_length_le (ht : Trace (lateStep p) (.initial p cancelled b l) ts s) :
    s.jobs.length ≤ p.jobCapacity := by
  apply invariant_of_moves (P := fun s => s.jobs.length ≤ p.jobCapacity) ht
  · exact Nat.zero_le _
  · intro s label s' h hmove
    cases hmove with
    | generator hmove =>
        cases hmove with
        | send _ _ hroom =>
            show (s.jobs ++ [_]).length ≤ p.jobCapacity
            rw [List.length_append, List.length_singleton]
            omega
        | _ => exact h
    | worker _ hmove =>
        cases hmove with
        | @take job rest _ _ hjobs =>
            show rest.length ≤ p.jobCapacity
            rw [hjobs, List.length_cons] at h
            omega
        | _ => exact h
    | collector hmove | supervisor hmove =>
        rw [hmove.frame]
        exact h
    | wait | cancel => exact h

/-! ## Dropped jobs -/

/-- Who drops which job in a step. -/
def leaver? (t : Transition State Label) : Option (Nat × Job) :=
  match t.label with
  | .act (.worker i) => (dropped? t).map fun job => (i, job)
  | _ => none

/-- Who dropped which job, first to last. -/
def leavers (ts : History) : List (Nat × Job) :=
  ts.filterMap leaver?

theorem map_snd_leavers (ts : History) : (leavers ts).map Prod.snd = drops ts := by
  rw [leavers, drops, List.map_filterMap]
  congr 1
  funext t
  unfold leaver?
  split
  · cases dropped? t <;> rfl
  · rename_i hlabel
    unfold dropped?
    split
    · exact absurd ‹_› (hlabel _)
    · rfl

/-- Whoever has ended stays as it is. -/
theorem Move.ended_mono (h : Move p s label s') {j : Nat} (hw : s.workers[j]? = some w)
    (hended : w.ended = true) : s'.workers[j]? = some w := by
  by_cases hlabel : ∃ i, label = .act (.worker i)
  · obtain ⟨i, rfl⟩ := hlabel
    cases h with
    | worker hw' hmove =>
        obtain ⟨⟨w', hworkers⟩, -⟩ := hmove.frame
        have hij : i ≠ j := by
          rintro rfl
          cases hw.symm.trans hw'
          rw [hmove.not_ended] at hended
          cases hended
        rw [hworkers, getElem?_setWorker_ne hij, hw]
  · rw [h.workers_eq fun i hi => hlabel ⟨i, hi⟩, hw]

/-- Only a worker that has not ended drops a job, and it ends in doing so. -/
theorem leaver?_eq_some {job : Job} (h : Move p s label s')
    (hleaves : leaver? ⟨s, label, s'⟩ = some (i, job)) :
    (∃ w, s.workers[i]? = some w ∧ w.ended = false) ∧
      ∃ w', s'.workers[i]? = some w' ∧ w'.ended = true := by
  unfold leaver? at hleaves
  split at hleaves
  · rename_i j hlabel
    obtain ⟨job', hdropped, heq⟩ := Option.map_eq_some_iff.1 hleaves
    cases heq
    obtain ⟨k, w, w', hlabel', hw, hw', -, hended⟩ :=
      ended_of_dropped? (by rw [hdropped]; simp)
    cases hlabel.symm.trans hlabel'
    cases hlabel
    refine ⟨⟨w, hw, ?_⟩, w', hw', hended⟩
    cases h with
    | worker hw₁ hmove =>
        cases hw.symm.trans hw₁
        exact hmove.not_ended
  · cases hleaves

/-- Whoever dropped a job has ended, and nobody dropped two. -/
theorem leavers_of_trace (ht : Trace (lateStep p) (.initial p cancelled b l) ts s) :
    ((leavers ts).map Prod.fst).Nodup ∧
      ∀ i ∈ (leavers ts).map Prod.fst, ∃ w, s.workers[i]? = some w ∧ w.ended = true := by
  induction ht with
  | nil =>
      constructor
      · exact List.nodup_nil
      · intro i hi
        cases hi
  | @snoc ts s s' label _ hstep ih =>
      have hmove := move_of_step hstep
      obtain ⟨hnodup, hgone⟩ := ih
      have hstill (i : Nat) (hi : i ∈ (leavers ts).map Prod.fst) :
          ∃ w, s'.workers[i]? = some w ∧ w.ended = true := by
        obtain ⟨w, hw, hended⟩ := hgone i hi
        exact ⟨w, hmove.ended_mono hw hended, hended⟩
      rw [leavers, filterMap_snoc, ← leavers, List.map_append]
      cases hleaves : leaver? ⟨s, label, s'⟩ with
      | none =>
          rw [Option.toList_none, List.map_nil, List.append_nil]
          exact ⟨hnodup, hstill⟩
      | some x =>
          obtain ⟨⟨w, hw, hrunning⟩, w', hw', hended⟩ := leaver?_eq_some hmove hleaves
          have hnew : x.1 ∉ (leavers ts).map Prod.fst := by
            intro hold
            obtain ⟨v, hv, hgone⟩ := hgone x.1 hold
            cases hw.symm.trans hv
            rw [hrunning] at hgone
            cases hgone
          rw [Option.toList_some, List.map_singleton]
          constructor
          · refine List.nodup_append.2 ⟨hnodup, by simp, ?_⟩
            rintro i hold j hlast rfl
            rw [List.mem_singleton.1 hlast] at hold
            exact hnew hold
          · intro i hi
            rcases List.mem_append.1 hi with hold | hlast
            · exact hstill i hold
            · rw [List.mem_singleton.1 hlast]
              exact ⟨w', hw', hended⟩

/-- No more jobs are dropped than there are workers. -/
theorem drops_length_le (ht : Trace (lateStep p) (.initial p cancelled b l) ts s) :
    (drops ts).length ≤ p.workers := by
  obtain ⟨hnodup, hgone⟩ := leavers_of_trace ht
  have hsubset : (leavers ts).map Prod.fst ⊆ List.range p.workers := by
    intro i hi
    obtain ⟨w, hw, -⟩ := hgone i hi
    obtain ⟨hlt, -⟩ := Array.getElem?_eq_some_iff.1 hw
    rw [size_workers_of_trace ht] at hlt
    exact List.mem_range.2 hlt
  have hle := (List.subperm_of_subset hnodup hsubset).length_le
  rw [List.length_range, List.length_map] at hle
  rw [← map_snd_leavers, List.length_map]
  exact hle

/-! ## Where the jobs are -/

/-- Every job that was put into the queue is at one place. -/
theorem whereabouts_of_trace (ht : Trace (lateStep p) (.initial p cancelled b l) ts s) :
    (dispatches ts).Perm
        ((deliveries ts).map Completion.job ++ s.jobs ++ s.held ++ (leavers ts).map Prod.snd) ∧
      ((dispatches ts).map Job.id).Nodup := by
  classical
  constructor
  · rw [dispatches_eq_takes ht, map_snd_leavers]
    have htaken := (takes_perm ht).append_right s.jobs
    refine htaken.trans ?_
    -- The two sides list the same places in two orders.
    rw [List.perm_iff_count]
    intro job
    simp only [List.count_append]
    omega
  · rw [dispatched_ids_of_trace ht]
    exact List.nodup_range

theorem mem_held_of_workers {job : Job} (hw : s.workers[i]? = some w) (hjob : w.job? = some job) :
    job ∈ s.held :=
  List.mem_filterMap.2 ⟨w, Array.mem_toList_iff.2 (Array.mem_of_getElem? hw), hjob⟩

/-- A job that was handed over is in nobody's hands. -/
theorem holder_ne_delivered (ht : Trace (lateStep p) (.initial p cancelled b l) ts s) {job : Job}
    (hw : s.workers[i]? = some w) (hjob : w.job? = some job) {c : Completion}
    (hc : c ∈ deliveries ts) : c.job.id ≠ job.id := by
  obtain ⟨hplaces, hnodup⟩ := whereabouts_of_trace ht
  have hall := (hplaces.map Job.id).nodup_iff.1 hnodup
  simp only [List.map_append] at hall
  have hapart := (List.nodup_append.1 (List.nodup_append.1 hall).1).2.2
  refine hapart c.job.id ?_ job.id ?_
  · exact List.mem_append_left _ (List.mem_map_of_mem (List.mem_map_of_mem hc))
  · exact List.mem_map_of_mem (mem_held_of_workers hw hjob)

/-- No job is in the hands of two workers. -/
theorem holder_unique (ht : Trace (lateStep p) (.initial p cancelled b l) ts s) {i j : Nat}
    {w w' : Worker} {job job' : Job} (hw : s.workers[i]? = some w) (hw' : s.workers[j]? = some w')
    (hjob : w.job? = some job) (hjob' : w'.job? = some job') (hid : job.id = job'.id) : i = j := by
  obtain ⟨hperm, hnodup⟩ := whereabouts_of_trace ht
  have hheld : (s.held.map Job.id).Nodup := by
    have hall := (hperm.map Job.id).nodup_iff.1 hnodup
    simp only [List.map_append] at hall
    exact (List.nodup_append.1 (List.nodup_append.1 hall).1).2.1
  have hpairs : s.workers.toList.Pairwise fun v v' =>
      ∀ x, v.job? = some x → ∀ x', v'.job? = some x' → x.id ≠ x'.id := by
    rw [State.held, List.nodup_iff_pairwise_ne, List.pairwise_map, List.pairwise_filterMap] at hheld
    exact hheld
  have hdistinct {i j : Nat} {w w' : Worker} {job job' : Job} (hw : s.workers[i]? = some w)
      (hw' : s.workers[j]? = some w') (hjob : w.job? = some job) (hjob' : w'.job? = some job')
      (hlt : i < j) : job.id ≠ job'.id := by
    obtain ⟨hi, rfl⟩ := Array.getElem?_eq_some_iff.1 hw
    obtain ⟨hj, rfl⟩ := Array.getElem?_eq_some_iff.1 hw'
    have hboth := List.pairwise_iff_getElem.1 hpairs i j (by simpa using hi) (by simpa using hj) hlt
    simp only [Array.getElem_toList] at hboth
    exact hboth job hjob job' hjob'
  rcases Nat.lt_trichotomy i j with hlt | heq | hgt
  · exact absurd hid (hdistinct hw hw' hjob hjob' hlt)
  · exact heq
  · exact absurd hid.symm (hdistinct hw' hw hjob' hjob hgt)

/-- A run that ended well has lost the jobs that are still in the queue and those that were
dropped. -/
theorem abandoned_le {r : Result} (ht : Trace (lateStep p) (.initial p cancelled b l) ts s)
    (hr : s.outcome? p = some (.ok r)) :
    r.completed ≤ r.dispatched ∧ r.dispatched - r.completed ≤ p.workers + p.jobCapacity := by
  have hsettled := settled_of_outcome? ht hr
  obtain ⟨-, hle, -, htotal, -⟩ := accounts_of_outcome? ht hr
  have hcompleted : (deliveries ts).length = r.completed := by
    rw [hsettled.results_eq, ← htotal, counts_eq_tally ht, Counts.total_tally, List.length_map]
  have hdispatched : (dispatches ts).length = r.dispatched := by
    have hids := congrArg List.length (dispatched_ids_of_trace ht)
    rw [List.length_map, List.length_range, hsettled.sent_eq] at hids
    obtain ⟨-, -, rfl⟩ := eq_of_outcome? hr
    exact hids
  have hplaces := (whereabouts_of_trace ht).1.length_eq
  rw [map_snd_leavers, hsettled.held_eq] at hplaces
  simp only [List.length_append, List.length_map, List.length_nil] at hplaces
  have hqueue := jobs_length_le ht
  have hdropped := drops_length_le ht
  constructor
  · exact hle
  · omega

end Run
end LoadGen
