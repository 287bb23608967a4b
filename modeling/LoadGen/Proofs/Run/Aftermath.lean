import LoadGen.Proofs.Measure.Calls
import LoadGen.Proofs.Run.Recording
import LoadGen.Proofs.Run.Whereabouts

/-!
# What a run leaves behind

A run ends in the same way whether its tasks live or die.  The supervisor has waited for all of
them, so no call is under way; the ledger is finished, and holds what the collector recorded in this
run, the result included of which it may have died; and the answer names the first dead task in the
order in which the supervisor waits for them.

* `stands_of_trace` — what the ledger of a run holds, also when the collector has died.
* `Dated` — when the recording began and how long it took; `dated_of_trace`.
* `callerCancelled_iff` — nobody but the caller cancels for the caller.
* `idle_of_finished` — no call is under way after the end.
* `Concludes` — a run at its end, with its answer; `concludes_of_outcome?` says that every run that
  ends is one.
-/

namespace LoadGen
namespace Run

variable {p : Plan} {cancelled : Bool} {b : Circuit.Breaker} {l : Ledger} {ts : History}
  {s s' : State} {label : Label}

/-! ## The ledger -/

/-- The ledger has been offered what the collector recorded in this run and nothing else. -/
theorem stands_of_trace (ht : Trace (lateStep p) (.initial p cancelled b l) ts s) :
    s.ledger.Stands (recordings ts) := by
  induction ht with
  | nil => exact Ledger.stands_start l.options p.started
  | @snoc ts s s' label _ hstep ih =>
      rw [recordings, filterMap_snoc, ← recordings]
      cases move_of_step hstep with
      | collector hmove =>
          cases hmove with
          -- A result without room is offered as well, although the collector dies of it.
          | @accept completion _ _ hresults | @refuse completion _ _ hresults =>
              have hrecorded := ih.record s.now completion.result
              simpa [recorded?, hresults] using hrecorded
          | close _ hresults => simpa [recorded?, hresults] using ih
      | supervisor hmove =>
          have hnone : recorded? ⟨s, .act .supervisor, s'⟩ = none := rfl
          rw [hnone, Option.map_none, Option.toList_none, List.append_nil]
          cases hmove with
          | joinCollector | buryCollector => exact ⟨ih.counts, ih.figures⟩
          | joinGenerator | buryGenerator | buryWorker | joinWorkers => exact ih
      | worker _ hmove =>
          obtain ⟨-, -, -, -, -, hledger, -⟩ := hmove.frame
          rw [hledger]
          simpa [recorded?] using ih
      | generator hmove =>
          rw [hmove.frame]
          simpa [recorded?] using ih
      | wait | cancel => simpa [recorded?] using ih

/-- The recording begins with the run, and is finished by the last step of the supervisor. -/
structure Dated (p : Plan) (s : State) : Prop where
  started : s.ledger.started = p.started
  began : p.started ≤ s.now
  open_before : s.supervisor ≠ .finished → s.ledger.finished = none
  finished_after : s.supervisor = .finished →
    ∃ span, s.ledger.finished = some span ∧ p.started + span ≤ s.now

namespace Dated

/-- A step between two places of the supervisor, neither of them the last. -/
theorem of_unfinished (h : Dated p s) (hstarted : s'.ledger.started = s.ledger.started)
    (hfinished : s'.ledger.finished = s.ledger.finished) (hnow : s.now ≤ s'.now)
    (hbefore : s.supervisor ≠ .finished) (hafter : s'.supervisor ≠ .finished) : Dated p s' where
  started := hstarted.trans h.started
  began := Nat.le_trans h.began hnow
  open_before _ := hfinished.trans (h.open_before hbefore)
  finished_after hlate := absurd hlate hafter

/-- A step that leaves the supervisor at its place. -/
theorem of_frame (h : Dated p s) (hstarted : s'.ledger.started = s.ledger.started)
    (hfinished : s'.ledger.finished = s.ledger.finished) (hnow : s.now ≤ s'.now)
    (hsupervisor : s'.supervisor = s.supervisor) : Dated p s' := by
  refine ⟨hstarted.trans h.started, Nat.le_trans h.began hnow, ?_, ?_⟩
  · intro hearly
    rw [hsupervisor] at hearly
    exact hfinished.trans (h.open_before hearly)
  · intro hlate
    rw [hsupervisor] at hlate
    obtain ⟨span, hspan, hle⟩ := h.finished_after hlate
    exact ⟨span, hfinished.trans hspan, Nat.le_trans hle hnow⟩

/-- The step with which the supervisor comes to its end. -/
theorem finish (h : Dated p s) (hat : s.supervisor = .awaitingCollector) (failure : Option Task) :
    Dated p { s with supervisor := .finished, ledger := s.ledger.finish s.now, failure } := by
  have hopen : s.ledger.finished = none := h.open_before (by rw [hat]; exact Supervisor.noConfusion)
  refine ⟨h.started, h.began, fun hearly => absurd rfl hearly, ?_⟩
  intro _
  refine ⟨s.now - s.ledger.started, ?_, ?_⟩
  · show some (s.ledger.finished.getD _) = _
    rw [hopen]
    rfl
  · rw [h.started]
    show p.started + (s.now - p.started) ≤ s.now
    have hbegan := h.began
    omega

theorem move (h : Dated p s) (hmove : Move p s label s') : Dated p s' := by
  cases hmove with
  | generator hmove =>
      rw [hmove.frame]
      exact h.of_frame rfl rfl (Nat.le_refl _) rfl
  | worker _ hmove =>
      obtain ⟨-, -, -, hsupervisor, -, hledger, -, hnow⟩ := hmove.frame
      exact h.of_frame (by rw [hledger]) (by rw [hledger]) (Nat.le_of_eq hnow.symm) hsupervisor
  | collector hmove =>
      cases hmove with
      | @accept completion | @refuse completion =>
          obtain ⟨-, hstarted, hfinished⟩ := Ledger.frame_record s.ledger s.now completion.result
          exact h.of_frame hstarted hfinished (Nat.le_refl _) rfl
      | close => exact h.of_frame rfl rfl (Nat.le_refl _) rfl
  | supervisor hmove =>
      cases hmove with
      | joinGenerator hat | buryGenerator hat | buryWorker hat | joinWorkers hat =>
          refine h.of_unfinished rfl rfl (Nat.le_refl _) ?_ Supervisor.noConfusion
          rw [hat]
          exact Supervisor.noConfusion
      | joinCollector hat => exact h.finish hat s.failure
      | buryCollector hat => exact h.finish hat _
  | wait hlater => exact h.of_frame rfl rfl (Nat.le_of_lt hlater) rfl
  | cancel => exact h.of_frame rfl rfl (Nat.le_refl _) rfl

end Dated

theorem dated_of_trace (ht : Trace (lateStep p) (.initial p cancelled b l) ts s) : Dated p s := by
  refine invariant_of_moves ht ?_ fun _ _ _ h hmove => h.move hmove
  exact ⟨rfl, Nat.le_refl _, fun _ => rfl, fun hlate => by cases hlate⟩

/-! ## The caller's cancellation -/

/-- The caller's cancellation has fired if and only if the caller has cancelled, before the run or
in the course of it. -/
theorem callerCancelled_iff (ht : Trace (lateStep p) (.initial p cancelled b l) ts s) :
    s.callerCancelled = true ↔ cancelled = true ∨ ∃ x ∈ ts, x.label = .cancel := by
  induction ht with
  | nil => simp [State.initial]
  | @snoc ts s s' label _ hstep ih =>
      have hsnoc : (∃ x ∈ ts ++ [⟨s, label, s'⟩], x.label = .cancel) ↔
          (∃ x ∈ ts, x.label = .cancel) ∨ label = .cancel := by
        simp [or_and_right, exists_or]
      rw [hsnoc, ← or_assoc, ← ih]
      have hmove := move_of_step hstep
      cases label with
      | act actor => simp [hmove.act_frame.2]
      | wait instant =>
          cases hmove
          simp
      | cancel =>
          cases hmove
          simp

/-! ## The end -/

theorem inFlight_eq_zero (hended : s.workersEnded = true) : s.inFlight = 0 := by
  rw [State.inFlight, List.countP_eq_zero]
  intro w hw
  obtain ⟨i, hi⟩ := Array.getElem?_of_mem (Array.mem_toList_iff.1 hw)
  have hend := workersEnded_iff.1 hended i w hi
  cases w with
  | exited | crashed => exact Bool.false_ne_true
  | _ => cases hend

/-- After the end of a run no call is under way and no task has a step, however long one waits. -/
theorem idle_of_finished {us : History} (ht : Trace (lateStep p) (.initial p cancelled b l) ts s)
    (hfinished : s.supervisor = .finished) (hu : Trace (lateStep p) s us s') :
    s'.inFlight = 0 ∧ ∀ x ∈ us, ∀ actor, x.label ≠ .act actor := by
  constructor
  · obtain ⟨hstill, -, -⟩ := untouched_of_finished ht hfinished hu
    obtain ⟨-, hworkers, -⟩ := ended_of_finished (ht.append hu) hstill
    exact inFlight_eq_zero hworkers
  · intro x hx actor hact
    obtain ⟨⟨vs, hv⟩, hstep⟩ := hu.reaches hx
    obtain ⟨hstill, -, -⟩ := untouched_of_finished ht hfinished hv
    have hnone := no_act_of_finished (ht.append hv) hstill actor
    rw [hact] at hstep
    cases hnone.symm.trans hstep

/-- A run has ended with an answer: the first dead task in the order generator, worker, collector,
or the counts if no task has died.  Whatever the answer, no call is under way then or later, and the
ledger is finished and holds the results of this run that came to the collector. -/
structure Concludes (p : Plan) (ts : History) (s : State) (answer : Except Task Result) : Prop where
  generator_iff : answer = .error .generator ↔ s.generator.isCrashed = true
  worker_iff : answer = .error .worker ↔
    s.generator.isCrashed = false ∧ s.workerCrashed = true
  collector_iff : answer = .error .collector ↔
    s.generator.isCrashed = false ∧ s.workerCrashed = false ∧ s.collector = .crashed
  ok_iff : (∃ result, answer = .ok result) ↔ ¬ s.Crashed
  stands : s.ledger.Stands (recordings ts)
  delivered : ∀ c ∈ records ts, c ∈ deliveries ts
  started : s.ledger.started = p.started
  finished : ∃ span, s.ledger.finished = some span ∧ p.started + span ≤ s.now
  idle : ∀ us s', Trace (lateStep p) s us s' →
    s'.inFlight = 0 ∧ ∀ x ∈ us, ∀ actor, x.label ≠ .act actor

/-- A finished run fails with what the supervisor has taken down, and with nothing else. -/
theorem answer_iff_failure {answer : Except Task Result} (houtcome : s.outcome? p = some answer) :
    (∀ task, answer = .error task ↔ s.failure = some task) ∧
      ((∃ result, answer = .ok result) ↔ s.failure = none) := by
  unfold State.outcome? at houtcome
  split at houtcome
  · split at houtcome <;> cases houtcome
    · rename_i hfailure
      simp [hfailure]
    · rename_i hnone
      simp [hnone]
  · cases houtcome

/-- Every run that ends does so, whatever the order of its steps. -/
theorem concludes_of_outcome? {answer : Except Task Result}
    (ht : Trace (lateStep p) (.initial p cancelled b l) ts s)
    (houtcome : s.outcome? p = some answer) : Concludes p ts s answer := by
  have hfinished := finished_of_outcome? houtcome
  have hdated := dated_of_trace ht
  obtain ⟨herror, hok⟩ := answer_iff_failure houtcome
  have hblame : s.failure = if s.generator.isCrashed then some .generator
      else if s.workerCrashed then some .worker
      else if s.collector == .crashed then some .collector
      else none := by
    rw [(orderly_of_trace ht).failure_eq, State.blame, hfinished]
    rfl
  rw [hblame] at hok
  simp only [hblame] at herror
  -- What is left of the answer is a table of which tasks have died.
  refine
    { generator_iff := (herror .generator).trans ?generator
      worker_iff := (herror .worker).trans ?worker
      collector_iff := (herror .collector).trans ?collector
      ok_iff := hok.trans ?alive
      stands := stands_of_trace ht
      delivered := fun _ => mem_deliveries_of_records ht
      started := hdated.started
      finished := hdated.finished_after hfinished
      idle := fun _ _ => idle_of_finished ht hfinished }
  case alive =>
    unfold State.Crashed
    cases s.generator.isCrashed <;> cases s.workerCrashed <;> cases s.collector <;> decide
  case generator | worker | collector =>
    cases s.generator.isCrashed <;> cases s.workerCrashed <;> cases s.collector <;> decide

end Run
end LoadGen
