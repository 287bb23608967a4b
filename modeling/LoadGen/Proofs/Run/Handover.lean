import LoadGen.Proofs.Run.Dispatch
import LoadGen.Proofs.Run.Shutdown
import Mathlib.Algebra.GroupWithZero.Nat
import Mathlib.Data.List.Perm.Basic

/-!
# Where the jobs of a run go

A job that was put into the job queue is taken by a worker, which holds it until it hands its result
over or drops it.  A result that was handed over is recorded by the collector.  A history tells who
did what with which job, and at every hand-over the lists agree.

* `takes`, `deliveries`, `drops`, `records` — the jobs that changed hands, oldest first.
* `dispatches_eq_takes` — workers take the jobs in the order in which they were put into the queue.
* `takes_perm` — a job that was taken was handed over, was dropped or is held by a worker.
* `exists_lost` — the collector records the results in the order of their arrival, and loses some only
  when it dies.
-/

namespace LoadGen
namespace Run

variable {p : Plan} {cancelled : Bool} {b : Circuit.Breaker} {l : Ledger} {ts : History}
  {s s' : State} {label : Label} {i : Nat} {w : Worker}

/-- The job that a worker has to answer for. -/
def Worker.job? : Worker → Option Job
  | .running job _ _ => some job
  | .sending completion => some completion.job
  | _ => none

/-- The jobs in the hands of workers. -/
def State.held (s : State) : List Job :=
  s.workers.toList.filterMap Worker.job?

/-- Who takes which job in a step. -/
def taken? (t : Transition State Label) : Option (Nat × Job) :=
  match t.label with
  | .act (.worker i) =>
    match t.source.workers[i]?, t.target.workers[i]? with
    | some .waiting, some (.running job _ _) => some (i, job)
    | _, _ => none
  | _ => none

/-- The result that a worker puts into the result queue in a step. -/
def delivered? (t : Transition State Label) : Option Completion :=
  match t.label with
  | .act (.worker i) =>
    match t.source.workers[i]?, t.target.workers[i]? with
    | some (.sending completion), some (.counting _) => some completion
    | _, _ => none
  | _ => none

/-- The job that a worker drops in a step, by leaving or dying with it. -/
def dropped? (t : Transition State Label) : Option Job :=
  match t.label with
  | .act (.worker i) =>
    match t.source.workers[i]?, t.target.workers[i]? with
    | some w, some .exited => w.job?
    | some w, some .crashed => w.job?
    | _, _ => none
  | _ => none

/-- The result that the collector records in a step. -/
def recorded? (t : Transition State Label) : Option Completion :=
  match t.label with
  | .act .collector => t.source.results.head?
  | _ => none

/-- Who took which job, first to last. -/
def takes (ts : History) : List (Nat × Job) :=
  ts.filterMap taken?

/-- The results put into the result queue, first to last. -/
def deliveries (ts : History) : List Completion :=
  ts.filterMap delivered?

/-- The dropped jobs, first to last. -/
def drops (ts : History) : List Job :=
  ts.filterMap dropped?

/-- The recorded results, first to last. -/
def records (ts : History) : List Completion :=
  ts.filterMap recorded?

/-- What the other tasks do hands no job from or to a worker. -/
theorem quiet_of_label (s s' : State) (hlabel : ∀ i, label ≠ .act (.worker i)) :
    taken? ⟨s, label, s'⟩ = none ∧ delivered? ⟨s, label, s'⟩ = none ∧
      dropped? ⟨s, label, s'⟩ = none := by
  refine ⟨?_, ?_, ?_⟩
  · unfold taken?
    split
    · exact absurd ‹_› (hlabel _)
    · rfl
  · unfold delivered?
    split
    · exact absurd ‹_› (hlabel _)
    · rfl
  · unfold dropped?
    split
    · exact absurd ‹_› (hlabel _)
    · rfl

/-- A worker hands over the result that it holds. -/
theorem sending_of_delivered? {completion : Completion}
    (h : delivered? ⟨s, .act (.worker i), s'⟩ = some completion) :
    s.workers[i]? = some (.sending completion) := by
  simp only [delivered?] at h
  split at h
  · cases h
    assumption
  · cases h

/-- What one step of a worker does with jobs: the queues and the worker agree on it. -/
structure Hands (s s' : State) (i : Nat) (w w' : Worker) : Prop where
  place : s'.workers = s.workers.setIfInBounds i w'
  jobs : s.jobs = ((taken? ⟨s, .act (.worker i), s'⟩).toList.map Prod.snd) ++ s'.jobs
  results : s'.results = s.results ++ (delivered? ⟨s, .act (.worker i), s'⟩).toList
  held : w.job?.toList ++ (taken? ⟨s, .act (.worker i), s'⟩).toList.map Prod.snd =
    (delivered? ⟨s, .act (.worker i), s'⟩).toList.map Completion.job ++
      (dropped? ⟨s, .act (.worker i), s'⟩).toList ++ w'.job?.toList

theorem WorkerMove.hands (hw : s.workers[i]? = some w) (h : WorkerMove p s i w s') :
    ∃ w', Hands s s' i w w' := by
  have hself := getElem?_setWorker_self hw
  cases h with
  | take _ _ hjobs =>
      exact ⟨_, rfl, by simp [taken?, hw, hself, hjobs], by simp [delivered?, hw, hself],
        by simp [taken?, delivered?, dropped?, hw, hself, Worker.job?]⟩
  | @conclude job since execution outcome =>
      refine ⟨_, rfl, ?_, ?_, ?_⟩ <;> unfold concludeJob <;> split <;>
        simp [taken?, delivered?, dropped?, hw, hself, Worker.job?]
  | leave | queueUp | giveUp | retire | fall | advance | abandon | deliver | count =>
      exact ⟨_, rfl, by simp [taken?, hw, hself], by simp [delivered?, hw, hself],
        by simp [taken?, delivered?, dropped?, hw, hself, Worker.job?]⟩

/-! ## What is where -/

/-- The workers take the jobs in the order in which they were put into the queue. -/
theorem dispatches_eq_takes (ht : Trace (lateStep p) (.initial p cancelled b l) ts s) :
    dispatches ts = (takes ts).map Prod.snd ++ s.jobs := by
  induction ht with
  | nil => rfl
  | @snoc ts s s' label hs hstep ih =>
      rw [dispatches, takes, filterMap_snoc, filterMap_snoc, ← dispatches, List.map_append, ih]
      have hquiet (hlabel : ∀ i, label ≠ .act (.worker i)) := quiet_of_label s s' hlabel
      cases move_of_step hstep with
      | worker hw hmove =>
          obtain ⟨w', hhands⟩ := hmove.hands hw
          rw [dispatched?_eq_none (by simp), hhands.jobs]
          simp [takes]
      | generator hmove =>
          rw [(hquiet (by simp)).1]
          rcases hmove.sends with ⟨job, -, hsent, hjobs, -⟩ | ⟨hnone, hjobs, -⟩
          · rw [hsent, hjobs]
            simp [takes]
          · rw [hnone, hjobs]
            simp [takes]
      | collector hmove | supervisor hmove =>
          rw [(hquiet (by simp)).1, dispatched?_eq_none (by simp), hmove.frame]
          simp [takes]
      | wait | cancel =>
          rw [(hquiet (by simp)).1, dispatched?_eq_none (by simp)]
          simp [takes]

/-- The results are recorded in the order of their arrival.  A collector that dies loses those that
wait for it. -/
theorem exists_lost (ht : Trace (lateStep p) (.initial p cancelled b l) ts s) :
    ∃ lost, deliveries ts = records ts ++ lost ++ s.results ∧
      (s.collector ≠ .crashed → lost = []) := by
  induction ht with
  | nil => exact ⟨[], rfl, fun _ => rfl⟩
  | @snoc ts s s' label hs hstep ih =>
      obtain ⟨lost, heq, hnone⟩ := ih
      rw [deliveries, records, filterMap_snoc, filterMap_snoc, ← deliveries, ← records, heq]
      have hquiet (hlabel : ∀ i, label ≠ .act (.worker i)) := quiet_of_label s s' hlabel
      cases move_of_step hstep with
      | worker hw hmove =>
          obtain ⟨w', hhands⟩ := hmove.hands hw
          obtain ⟨-, -, hcollector, -⟩ := hmove.frame
          exact ⟨lost, by rw [hhands.results]; simp [recorded?], hcollector ▸ hnone⟩
      | collector hmove =>
          have hlistening := hmove.listening
          obtain rfl := hnone (by simp [hlistening])
          rw [(hquiet (by simp)).2.1]
          cases hmove with
          | accept _ hresults => exact ⟨[], by simp [recorded?, hresults], fun _ => rfl⟩
          | @refuse _ rest _ hresults =>
              exact ⟨rest, by simp [recorded?, hresults], fun halive => absurd rfl halive⟩
          | close _ hresults => exact ⟨[], by simp [recorded?, hresults], fun _ => rfl⟩
      | generator hmove | supervisor hmove =>
          rw [(hquiet (by simp)).2.1]
          exact ⟨lost, by rw [hmove.frame]; simp [recorded?], by rw [hmove.frame]; exact hnone⟩
      | wait | cancel =>
          rw [(hquiet (by simp)).2.1]
          exact ⟨lost, by simp [recorded?], hnone⟩

/-- While the collector lives, it loses no result. -/
theorem deliveries_eq_records (ht : Trace (lateStep p) (.initial p cancelled b l) ts s)
    (halive : s.collector ≠ .crashed) : deliveries ts = records ts ++ s.results := by
  obtain ⟨lost, heq, hnone⟩ := exists_lost ht
  rw [heq, hnone halive, List.append_nil]

/-- What is recorded was handed over. -/
theorem mem_deliveries_of_records (ht : Trace (lateStep p) (.initial p cancelled b l) ts s)
    {c : Completion} (hc : c ∈ records ts) : c ∈ deliveries ts := by
  obtain ⟨lost, heq, -⟩ := exists_lost ht
  rw [heq]
  exact List.mem_append_left _ (List.mem_append_left _ hc)

/-- What is stored at a place of an array takes the place of what stands there. -/
theorem toList_setIfInBounds_split {α : Type} {xs : Array α} {x : α} (hx : xs[i]? = some x) :
    ∃ before after, xs.toList = before ++ x :: after ∧
      ∀ x', (xs.setIfInBounds i x').toList = before ++ x' :: after := by
  obtain ⟨hi, rfl⟩ := Array.getElem?_eq_some_iff.1 hx
  have hi' : i < xs.toList.length := by simpa using hi
  refine ⟨xs.toList.take i, xs.toList.drop (i + 1), ?_, fun x' => ?_⟩
  · rw [← Array.getElem_toList, List.getElem_cons_drop, List.take_append_drop]
  · rw [Array.toList_setIfInBounds, List.set_eq_take_append_cons_drop, if_pos hi']

/-- What one place in an array holds is exchanged with what is stored there. -/
theorem countP_filterMap_setIfInBounds {α β : Type} (f : α → Option β) (P : β → Bool) {xs : Array α}
    {x : α} (hx : xs[i]? = some x) (x' : α) :
    ((xs.setIfInBounds i x').toList.filterMap f).countP P + (f x).toList.countP P =
      (xs.toList.filterMap f).countP P + (f x').toList.countP P := by
  have hcons (y : α) (ys : List α) : (y :: ys).filterMap f = (f y).toList ++ ys.filterMap f := by
    rw [List.filterMap_cons]
    cases f y <;> rfl
  obtain ⟨before, after, hbefore, hafter⟩ := toList_setIfInBounds_split hx
  rw [hafter x', hbefore]
  simp only [List.filterMap_append, hcons, List.countP_append]
  omega

/-- What one place in an array adds to a sum is exchanged with what is stored there. -/
theorem sum_map_setIfInBounds {α : Type} (f : α → Nat) {xs : Array α} {x : α}
    (hx : xs[i]? = some x) (x' : α) :
    ((xs.setIfInBounds i x').toList.map f).sum + f x = (xs.toList.map f).sum + f x' := by
  obtain ⟨before, after, hbefore, hafter⟩ := toList_setIfInBounds_split hx
  rw [hafter x', hbefore]
  simp only [List.map_append, List.map_cons, List.sum_append, List.sum_cons]
  omega

/-- A job that was taken was handed over, was dropped or is in the hands of a worker. -/
theorem countP_takes (ht : Trace (lateStep p) (.initial p cancelled b l) ts s) (P : Job → Bool) :
    ((takes ts).map Prod.snd).countP P =
      ((deliveries ts).map Completion.job).countP P + (drops ts).countP P + s.held.countP P := by
  induction ht with
  | nil =>
      have hnone : (State.initial p cancelled b l).held = [] := by
        simp [State.held, State.initial, Worker.job?]
      rw [hnone]
      rfl
  | @snoc ts s s' label hs hstep ih =>
      rw [takes, deliveries, drops, filterMap_snoc, filterMap_snoc, filterMap_snoc, ← takes,
        ← deliveries, ← drops]
      simp only [List.map_append, List.countP_append]
      by_cases hlabel : ∃ i, label = .act (.worker i)
      · obtain ⟨i, rfl⟩ := hlabel
        cases move_of_step hstep with
        | worker hw hmove =>
            obtain ⟨w', hhands⟩ := hmove.hands hw
            have hheld := congrArg (List.countP P) hhands.held
            simp only [List.countP_append] at hheld
            have hexchange := countP_filterMap_setIfInBounds Worker.job? P hw w'
            rw [← hhands.place] at hexchange
            unfold State.held at ih ⊢
            omega
      · have hothers (i : Nat) : label ≠ .act (.worker i) := fun h => hlabel ⟨i, h⟩
        obtain ⟨htaken, hdelivered, hdropped⟩ := quiet_of_label s s' hothers
        have hheld : s'.held = s.held := by
          rw [State.held, State.held, (move_of_step hstep).workers_eq hothers]
        rw [htaken, hdelivered, hdropped, hheld]
        simpa using ih

theorem takes_perm (ht : Trace (lateStep p) (.initial p cancelled b l) ts s) :
    ((takes ts).map Prod.snd).Perm ((deliveries ts).map Completion.job ++ drops ts ++ s.held) := by
  classical
  rw [List.perm_iff_count]
  intro job
  rw [List.count_append, List.count_append]
  exact countP_takes ht (· == job)

end Run
end LoadGen
