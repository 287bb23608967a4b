import LoadGen.Proofs.Retry.Standing
import LoadGen.Proofs.Run.Progress
import LoadGen.Proofs.Time.Timers

/-!
# The clock of a run

In a run of prompt tasks time passes only when no task has a step, and it stops at the next instant
for which a task waits.  Timers fire on whole milliseconds, so a run that begins on one makes all of
its steps on whole milliseconds, and no worker oversleeps.

* `Trace.mono`, `late_of_prompt` — prompt runs are runs.
* `wait_inv` — how time passes.
* `due_of_step` — a task that has a step only later has waited for an instant in between.
* `Punctual` — what is known of the clock at every moment of a run of prompt tasks.
* `aligned_of_step` — all steps are made on whole milliseconds.
-/

namespace LoadGen

/-- A history of some steps is a history of any further steps. -/
theorem Trace.mono {σ ι : Type} {step step' : σ → ι → Option σ} {s₀ s : σ}
    {ts : List (Transition σ ι)} (hstep : ∀ s label s', step s label = some s' →
      step' s label = some s') (ht : Trace step s₀ ts s) : Trace step' s₀ ts s := by
  induction ht with
  | nil => exact .nil
  | snoc _ h ih => exact ih.snoc (hstep _ _ _ h)

/-- An execution that has a step only later has waited for an instant in between. -/
theorem Retry.Execution.due_of_step {α : Type} {S : Retry.Setting α} {now later : Nat}
    {cancelled : Bool} {b : Circuit.Breaker} {e : Retry.Execution α} {move : Retry.Move α}
    (hnone : e.step S now cancelled b = none) (h : e.step S later cancelled b = some move) :
    ∃ wake, e.wake? = some wake ∧ wake ≤ later := by
  rcases waits_of_step_eq_none hnone with ⟨outcome, hdone⟩ | ⟨cause, hcrashed⟩ | ⟨hrun, wake, hwake, -⟩
  · simp [step, hdone] at h
  · simp [step, hcrashed] at h
  · refine ⟨wake, hwake, ?_⟩
    cases makes_of_step h with
    | interrupt hcancelled =>
        rw [hrun] at hcancelled
        cases hcancelled
    | start hphase | refuse hphase => simp [wake?, hphase] at hwake
    | answer hphase _ hdue | resume hphase _ hdue =>
        rw [wake?, hphase] at hwake
        cases hwake
        exact hdue

/-- The instant for which an execution begins to wait is some time from now. -/
theorem Retry.Execution.Makes.wake_eq {α : Type} {S : Retry.Setting α} {now wake : Nat}
    {cancelled : Bool} {b : Circuit.Breaker} {e : Retry.Execution α} {move : Retry.Move α}
    (h : Makes S now cancelled b e move) (hwake : move.execution.wake? = some wake) :
    ∃ d, wake = Nanos.wakeAt now d := by
  cases h with
  | start =>
      cases hwake
      exact ⟨_, rfl⟩
  | interrupt | refuse | resume => cases hwake
  | @answer wake' reply =>
      cases hanswer : reply.answer with
      | value a | crash text => simp [settle, hanswer, wake?] at hwake
      | fault chain =>
          rw [wake?, phase_settle hanswer] at hwake
          split at hwake
          · rename_i hphase
            split at hphase
            · cases hphase
            · split at hphase <;> cases hphase
          · rename_i hphase
            cases hwake
            split at hphase
            · cases hphase
            · split at hphase
              · cases hphase
                exact ⟨_, rfl⟩
              · cases hphase
          · cases hwake

namespace Run

variable {p : Plan} {cancelled : Bool} {b : Circuit.Breaker} {l : Ledger} {ts : History}
  {s s' : State} {label : Label} {i : Nat} {w : Worker}

theorem late_of_prompt {s₀ : State} (ht : Trace (step p) s₀ ts s) : Trace (lateStep p) s₀ ts s :=
  ht.mono fun _ _ _ => lateStep_of_step

/-- Every state that a run of prompt tasks can reach is the end of one of its histories. -/
theorem prompt_of_reachable {s₀ : State} (h : Reachable p s₀ s) :
    ∃ ts : History, Trace (step p) s₀ ts s := by
  induction h with
  | refl => exact ⟨[], .nil⟩
  | step label _ hstep ih =>
      obtain ⟨ts, ht⟩ := ih
      exact ⟨_, ht.snoc hstep⟩

/-- Time passes when no task has a step, and not beyond an instant for which a task waits. -/
theorem wait_inv {instant : Nat} (h : step p s (.wait instant) = some s') :
    s' = { s with now := instant } ∧ s.now < instant ∧
      (∀ actor, stepActor p s actor = none) ∧ ∀ wake ∈ s.wakes p, instant ≤ wake := by
  rw [step] at h
  split at h
  · rename_i hpasses
    simp only [Bool.and_eq_true, decide_eq_true_eq, List.all_eq_true] at hpasses
    obtain ⟨⟨hquiet, hlater⟩, hwakes⟩ := hpasses
    cases h
    exact ⟨rfl, hlater, quiet_iff.1 hquiet, hwakes⟩
  · cases h

/-! ## Who is due -/

theorem mem_wakes_of_worker {wake : Nat} (hw : s.workers[i]? = some w)
    (hwake : w.wake? = some wake) : wake ∈ s.wakes p := by
  rw [State.wakes, List.mem_append]
  exact .inr (List.mem_filterMap.2 ⟨w, Array.mem_toList_iff.2 (Array.mem_of_getElem? hw), hwake⟩)

theorem generator_due {instant : Nat} (hnone : stepGenerator p s = none)
    (h : stepGenerator p { s with now := instant } = some s') :
    ∃ wake ∈ s.generatorWakes p, wake ≤ instant := by
  have hstop (hexpired : p.expired instant = true) : ∃ stop ∈ p.stopAt, stop ≤ instant := by
    simpa [Plan.expired, Option.any_eq_true] using hexpired
  rcases generator_waits hnone with
    hended | ⟨hrun, -, ⟨id, wake, hat, -⟩ | ⟨job, hat, hfull⟩⟩
  · have halive : s.generator.ended = false := (generatorMove_of_step h).not_ended
    rw [halive] at hended
    cases hended
  · rw [State.generatorWakes, hat]
    by_cases hdue : wake ≤ instant
    · exact ⟨wake, List.mem_cons_self, hdue⟩
    · have hrun' : (s.callerCancelled || s.runCancelled) = false := hrun
      simp only [stepGenerator, State.cancelled, hat, hrun', hdue, Bool.false_eq_true,
        if_false] at h
      split at h
      · obtain ⟨stop, hmem, hle⟩ := hstop ‹_›
        exact ⟨stop, List.mem_cons_of_mem _ (Option.mem_toList.2 hmem), hle⟩
      · cases h
  · rw [State.generatorWakes, hat]
    have hrun' : (s.callerCancelled || s.runCancelled) = false := hrun
    simp only [stepGenerator, State.cancelled, hat, hrun', Nat.not_lt_of_le hfull,
      Bool.false_eq_true, if_false] at h
    split at h
    · obtain ⟨stop, hmem, hle⟩ := hstop ‹_›
      exact ⟨stop, Option.mem_toList.2 hmem, hle⟩
    · cases h

theorem worker_due {instant : Nat} (hnone : stepWorker p s i = none)
    (h : stepWorker p { s with now := instant } i = some s') :
    ∃ w wake, s.workers[i]? = some w ∧ w.wake? = some wake ∧ wake ≤ instant := by
  obtain ⟨w, hw, hmove⟩ := workerMove_of_step h
  have hw₀ : s.workers[i]? = some w := hw
  refine ⟨w, ?_⟩
  -- Apart from executions, what a worker does next has nothing to do with time.
  cases hmove with
  | leave hcancelled =>
      have hcancelled₀ : s.cancelled = true := hcancelled
      simp [stepWorker, hw₀, hcancelled₀] at hnone
  | queueUp hrun =>
      have hrun₀ : s.cancelled = false := hrun
      simp [stepWorker, hw₀, hrun₀] at hnone
  | giveUp hcancelled =>
      have hcancelled₀ : s.cancelled = true := hcancelled
      simp [stepWorker, hw₀, hcancelled₀] at hnone
  | take hrun hfirst hjobs =>
      have hrun₀ : s.cancelled = false := hrun
      have hfirst₀ : s.line.head? = some i := hfirst
      have hjobs₀ : s.jobs = _ :: _ := hjobs
      simp [stepWorker, hw₀, hrun₀, hfirst₀, hjobs₀] at hnone
  | retire hrun hfirst hjobs hended =>
      have hrun₀ : s.cancelled = false := hrun
      have hfirst₀ : s.line.head? = some i := hfirst
      have hjobs₀ : s.jobs = [] := hjobs
      have hended₀ : s.generator.ended = true := hended
      simp [stepWorker, hw₀, hrun₀, hfirst₀, hjobs₀, hended₀] at hnone
  | conclude hphase | fall hphase => simp [stepWorker, hw₀, stepExecution, hphase] at hnone
  | @advance job since execution move hmove =>
      simp only [stepWorker, hw₀, stepExecution] at hnone
      split at hnone
      · cases hnone
      · cases hnone
      · obtain ⟨wake, hwake, hdue⟩ :=
          Retry.Execution.due_of_step (Option.map_eq_none_iff.1 hnone) hmove
        exact ⟨wake, hw₀, hwake, hdue⟩
  | abandon hdeaf =>
      have hdeaf₀ : s.collector ≠ .listening := hdeaf
      simp [stepWorker, hw₀, hdeaf₀] at hnone
  | deliver hlistens hroom =>
      have hlistens₀ : s.collector = .listening := hlistens
      have hroom₀ : s.results.length < p.resultCapacity := hroom
      simp [stepWorker, hw₀, hlistens₀, hroom₀] at hnone
  | count => simp [stepWorker, hw₀] at hnone

/-- The collector and the supervisor do not wait for time to pass. -/
theorem timeless_of_step {instant : Nat} {actor : Actor}
    (hactor : actor = .collector ∨ actor = .supervisor)
    (h : stepActor p { s with now := instant } actor = some s') : stepActor p s actor ≠ none := by
  intro hnone
  rcases hactor with rfl | rfl
  · cases collectorMove_of_step h with
    | accept hat hresults | refuse hat hresults =>
        have hat₀ : s.collector = .listening := hat
        have hresults₀ : s.results = _ :: _ := hresults
        simp only [stepActor, stepCollector, hat₀, hresults₀] at hnone
        split at hnone <;> cases hnone
    | close hat hresults hended =>
        have hat₀ : s.collector = .listening := hat
        have hresults₀ : s.results = [] := hresults
        have hended₀ : s.workersEnded = true := hended
        simp [stepActor, stepCollector, hat₀, hresults₀, hended₀] at hnone
  · cases supervisorMove_of_step h with
    | joinGenerator hat hgenerator | buryGenerator hat hgenerator =>
        have hat₀ : s.supervisor = .awaitingGenerator := hat
        have hgenerator₀ : s.generator = _ := hgenerator
        simp [stepActor, stepSupervisor, hat₀, hgenerator₀] at hnone
    | buryWorker hat hcrashed =>
        have hat₀ : s.supervisor = .awaitingWorkers false := hat
        have hcrashed₀ : s.workerCrashed = true := hcrashed
        simp [stepActor, stepSupervisor, hat₀, hcrashed₀] at hnone
    | @joinWorkers alarmed hat hseen hended =>
        have hat₀ : s.supervisor = .awaitingWorkers alarmed := hat
        have hended₀ : s.workersEnded = true := hended
        simp only [stepActor, stepSupervisor, hat₀, hended₀, if_true] at hnone
        split at hnone <;> cases hnone
    | joinCollector hat hcollector | buryCollector hat hcollector =>
        have hat₀ : s.supervisor = .awaitingCollector := hat
        have hcollector₀ : s.collector = _ := hcollector
        simp [stepActor, stepSupervisor, hat₀, hcollector₀] at hnone

/-- A task that has a step only later has waited for an instant in between. -/
theorem due_of_step {instant : Nat} {actor : Actor} (hnone : stepActor p s actor = none)
    (h : stepActor p { s with now := instant } actor = some s') :
    ∃ wake ∈ s.wakes p, wake ≤ instant := by
  cases actor with
  | generator =>
      obtain ⟨wake, hmem, hle⟩ := generator_due hnone h
      exact ⟨wake, List.mem_append_left _ hmem, hle⟩
  | worker i =>
      obtain ⟨w, wake, hw, hwake, hle⟩ := worker_due hnone h
      exact ⟨wake, mem_wakes_of_worker hw hwake, hle⟩
  | collector => exact absurd hnone (timeless_of_step (.inl rfl) h)
  | supervisor => exact absurd hnone (timeless_of_step (.inr rfl) h)

/-! ## Steps on whole milliseconds -/

/-- While a run goes on, the clock shows a whole millisecond unless no task has a step, all timers
are set to whole milliseconds, and no worker has overslept. -/
structure Punctual (p : Plan) (s : State) : Prop where
  now : Nanos.perMilli ∣ s.now ∨ ∀ actor, stepActor p s actor = none
  generator : ∀ wake ∈ s.generatorWakes p, Nanos.perMilli ∣ wake
  worker : ∀ (i : Nat) (w : Worker) (wake : Nat), s.workers[i]? = some w → w.wake? = some wake →
    s.now ≤ wake ∧ Nanos.perMilli ∣ wake

/-- All steps are made on whole milliseconds. -/
theorem Punctual.aligned_of_step (h : Punctual p s) {actor : Actor}
    (hstep : stepActor p s actor = some s') : Nanos.perMilli ∣ s.now := by
  rcases h.now with haligned | hquiet
  · exact haligned
  · rw [hquiet actor] at hstep
    cases hstep

/-- A worker that begins to wait sets its timer to a whole millisecond from now on. -/
theorem WorkerMove.sets_timer (h : WorkerMove p s i w s') (haligned : Nanos.perMilli ∣ s.now) :
    ∃ w', s'.workers = s.workers.setIfInBounds i w' ∧
      ∀ wake, w'.wake? = some wake → s.now ≤ wake ∧ Nanos.perMilli ∣ wake := by
  have htimer (d : Nat) : s.now ≤ Nanos.wakeAt s.now d ∧ Nanos.perMilli ∣ Nanos.wakeAt s.now d := by
    refine ⟨Nat.le_trans (Nat.le_add_right _ _) (Nanos.le_wakeAt s.now d), ?_⟩
    exact Nanos.wakeAt_dvd haligned d
  cases h with
  | @advance job since execution move hmove =>
      refine ⟨_, rfl, fun wake hwake => ?_⟩
      obtain ⟨d, rfl⟩ := (Retry.Execution.makes_of_step hmove).wake_eq hwake
      exact htimer d
  | @conclude job since execution outcome =>
      refine ⟨_, rfl, fun wake hwake => ?_⟩
      unfold concludeJob at hwake
      split at hwake <;> cases hwake
  | take => exact ⟨_, rfl, fun wake hwake => by cases hwake⟩
  | leave | queueUp | giveUp | retire | fall | abandon | deliver | count =>
      exact ⟨_, rfl, fun wake hwake => by cases hwake⟩

/-- The generator sets its timer to a whole millisecond. -/
theorem GeneratorMove.sets_timer (h : GeneratorMove p s s') (haligned : Nanos.perMilli ∣ s.now)
    (hstop : ∀ stop ∈ p.stopAt, Nanos.perMilli ∣ stop) :
    ∀ wake ∈ s'.generatorWakes p, Nanos.perMilli ∣ wake := by
  intro wake hwake
  cases h with
  | schedule =>
      rcases List.mem_cons.1 hwake with rfl | hlimit
      · exact Nanos.wakeBy_dvd haligned _
      · exact hstop wake (Option.mem_toList.1 hlimit)
  | offer => exact hstop wake (Option.mem_toList.1 hwake)
  | finish | fail | overflow | quit | expire | send | count => cases hwake

namespace Punctual

theorem initial (hstart : Nanos.perMilli ∣ p.started) (cancelled : Bool) (b : Circuit.Breaker)
    (l : Ledger) : Punctual p (.initial p cancelled b l) where
  now := .inl hstart
  generator wake hwake := by cases hwake
  worker i w wake hw hwake := by
    rw [initial_getElem? hw] at hwake
    cases hwake

theorem act (h : Punctual p s) (hstop : ∀ stop ∈ p.stopAt, Nanos.perMilli ∣ stop) {actor : Actor}
    (hstep : stepActor p s actor = some s') : Punctual p s' := by
  have haligned := h.aligned_of_step hstep
  cases actor with
  | generator =>
      have hmove := generatorMove_of_step hstep
      have hframe := hmove.frame
      refine ⟨.inl ?_, hmove.sets_timer haligned hstop, ?_⟩
      · rw [hframe]
        exact haligned
      · intro i w wake hw hwake
        rw [hframe] at hw ⊢
        exact h.worker i w wake hw hwake
  | worker i =>
      obtain ⟨w, hw, hmove⟩ := workerMove_of_step hstep
      obtain ⟨-, hgenerator, -, -, -, -, -, hnow⟩ := hmove.frame
      obtain ⟨w', hworkers, htimer⟩ := hmove.sets_timer haligned
      refine ⟨.inl (hnow ▸ haligned), ?_, ?_⟩
      · rw [State.generatorWakes, hgenerator]
        exact h.generator
      · intro j v wake hv hwake
        rw [hworkers] at hv
        rw [hnow]
        by_cases hij : i = j
        · subst hij
          rw [getElem?_setWorker_self hw] at hv
          cases hv
          exact htimer wake hwake
        · rw [getElem?_setWorker_ne hij] at hv
          exact h.worker j v wake hv hwake
  | collector =>
      rw [(collectorMove_of_step hstep).frame]
      exact ⟨.inl haligned, h.generator, h.worker⟩
  | supervisor =>
      rw [(supervisorMove_of_step hstep).frame]
      exact ⟨.inl haligned, h.generator, h.worker⟩

theorem wait (h : Punctual p s) {instant : Nat} (hstep : step p s (.wait instant) = some s') :
    Punctual p s' := by
  obtain ⟨rfl, -, hquiet, hwakes⟩ := wait_inv hstep
  have hworker (i : Nat) (w : Worker) (wake : Nat) (hw : s.workers[i]? = some w)
      (hwake : w.wake? = some wake) : instant ≤ wake ∧ Nanos.perMilli ∣ wake :=
    ⟨hwakes wake (mem_wakes_of_worker hw hwake), (h.worker i w wake hw hwake).2⟩
  refine ⟨?_, h.generator, hworker⟩
  by_cases haligned : Nanos.perMilli ∣ instant
  · exact .inl haligned
  · refine .inr fun actor => ?_
    cases hactor : stepActor p { s with now := instant } actor with
    | none => rfl
    | some s' =>
        -- Whoever can go on has waited for this very instant, so it is a whole millisecond.
        obtain ⟨wake, hmem, hle⟩ := due_of_step (hquiet actor) hactor
        obtain rfl := Nat.le_antisymm hle (hwakes wake hmem)
        refine absurd ?_ haligned
        rcases List.mem_append.1 hmem with hgenerator | hworkers
        · exact h.generator wake hgenerator
        · obtain ⟨w, hmem, hwake⟩ := List.mem_filterMap.1 hworkers
          obtain ⟨i, hw⟩ := Array.getElem?_of_mem (Array.mem_toList_iff.1 hmem)
          exact (h.worker i w wake hw hwake).2

end Punctual

/-- A run of prompt tasks that begins on a whole millisecond is punctual until it is cancelled. -/
theorem punctual_of_trace (ht : Trace (step p) (.initial p cancelled b l) ts s)
    (hstart : Nanos.perMilli ∣ p.started) (hstop : ∀ stop ∈ p.stopAt, Nanos.perMilli ∣ stop)
    (hrun : s.cancelled = false) : Punctual p s := by
  induction ht with
  | nil => exact .initial hstart cancelled b l
  | @snoc ts s s' label hs hstep ih =>
      have hmove := move_of_step (lateStep_of_step hstep)
      have hrun₀ : s.cancelled = false :=
        Bool.eq_false_iff.2 fun hcancelled => by simp [hmove.cancelled_mono hcancelled] at hrun
      cases label with
      | act actor => exact (ih hrun₀).act hstop hstep
      | wait instant => exact (ih hrun₀).wait hstep
      | cancel =>
          cases hmove
          simp [State.cancelled] at hrun

end Run
end LoadGen
