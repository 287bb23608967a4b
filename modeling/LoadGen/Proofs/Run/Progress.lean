import LoadGen.Data.Soonest
import LoadGen.Proofs.Run.Excuses

/-!
# A run goes on

As long as a run has not finished, a task has a step or the run waits for time to pass.  Were all
tasks stuck for good, each would wait for another one: the supervisor for the generator or the
workers, the generator for room in the job queue, the first worker in line for a job, a worker with
a result for room in the result queue, and the collector for the workers.  The only circle among
these that can close is broken off at the workers: they have ended and the generator waits for them.

* `Lined` — the line for the job queue consists of the workers that wait.
* `wait_of_quiet`, `lt_of_mem_wakes` — time passes when no task has a step.
* `GoesOn` — a task has a step, or the instant comes for which one waits.
* `Deserted` — the generator offers a job, the queue is full, and all workers have ended.
* `progress_of_trace` — a run goes on until it has finished, unless it is deserted.
* `not_deserted` — while no task has died, no run is deserted.
-/

namespace LoadGen
namespace Run

variable {p : Plan} {cancelled : Bool} {b : Circuit.Breaker} {l : Ledger} {ts : History}
  {s s' : State} {label : Label} {i : Nat} {w : Worker}

/-! ## The line for the job queue -/

/-- The line for the job queue consists of the workers that wait. -/
structure Lined (s : State) : Prop where
  nodup : s.line.Nodup
  mem_iff : ∀ i : Nat, i ∈ s.line ↔ s.workers[i]? = some .waiting

namespace Lined

theorem initial (cancelled : Bool) (b : Circuit.Breaker) (l : Ledger) :
    Lined (.initial p cancelled b l) where
  nodup := List.nodup_nil
  mem_iff i := by
    constructor
    · intro hi
      cases hi
    · intro hw
      cases initial_getElem? hw

/-- Whoever is in the line keeps the place, and others wait no more than before. -/
theorem of_away (h : Lined s) {w w' : Worker} (hw : s.workers[i]? = some w) (haway : w ≠ .waiting)
    (haway' : w' ≠ .waiting) (hline : s'.line = s.line)
    (hworkers : s'.workers = s.workers.setIfInBounds i w') : Lined s' := by
  refine ⟨hline ▸ h.nodup, fun j => ?_⟩
  rw [hline, hworkers, h.mem_iff j]
  by_cases hij : i = j
  · subst hij
    rw [getElem?_setWorker_self hw, hw]
    simp [haway, haway']
  · rw [getElem?_setWorker_ne hij]

/-- A worker that leaves the line takes only its own place away. -/
theorem of_erase (h : Lined s) {w' : Worker} (hw : s.workers[i]? = some .waiting)
    (haway : w' ≠ .waiting) (hline : s'.line = s.line.erase i)
    (hworkers : s'.workers = s.workers.setIfInBounds i w') : Lined s' := by
  refine ⟨hline ▸ h.nodup.erase i, fun j => ?_⟩
  rw [hline, hworkers, h.nodup.mem_erase_iff, h.mem_iff j]
  by_cases hij : i = j
  · subst hij
    rw [getElem?_setWorker_self hw]
    simp [haway]
  · rw [getElem?_setWorker_ne hij]
    exact and_iff_right (Ne.symm hij)

theorem workerMove (h : Lined s) (hw : s.workers[i]? = some w) (hmove : WorkerMove p s i w s') :
    Lined s' := by
  have herase (hfirst : s.line.head? = some i) : s.line.tail = s.line.erase i := by
    obtain ⟨rest, hline⟩ := List.head?_eq_some_iff.1 hfirst
    rw [hline, List.tail_cons, List.erase_cons_head]
  cases hmove with
  | queueUp =>
      -- Nobody stands in the line twice, for who stands there waits and asks no more.
      have hout : i ∉ s.line := fun hi => by
        cases hw.symm.trans ((h.mem_iff i).1 hi)
      refine ⟨?_, fun j => ?_⟩
      · refine List.nodup_append.2 ⟨h.nodup, List.pairwise_singleton _ i, ?_⟩
        intro j hj k hk hjk
        rw [hjk, List.mem_singleton.1 hk] at hj
        exact hout hj
      · show j ∈ s.line ++ [i] ↔ (s.workers.setIfInBounds i .waiting)[j]? = some .waiting
        rw [List.mem_append, List.mem_singleton, h.mem_iff j]
        by_cases hij : i = j
        · subst hij
          simp [getElem?_setWorker_self hw]
        · simp [getElem?_setWorker_ne hij, Ne.symm hij]
  | giveUp => exact h.of_erase hw (by simp) rfl rfl
  | take _ hfirst => exact h.of_erase hw (by simp) (herase hfirst) rfl
  | retire _ hfirst => exact h.of_erase hw (by simp) (herase hfirst) rfl
  | conclude =>
      refine h.of_away hw (by simp) ?_ rfl rfl
      unfold concludeJob
      split <;> simp
  | leave | fall | advance | abandon | deliver | count =>
      exact h.of_away hw (by simp) (by simp) rfl rfl

theorem move (h : Lined s) (hmove : Move p s label s') : Lined s' := by
  cases hmove with
  | worker hw hmove => exact h.workerMove hw hmove
  | generator hmove | collector hmove | supervisor hmove =>
      rw [hmove.frame]
      exact ⟨h.nodup, h.mem_iff⟩
  | wait | cancel => exact ⟨h.nodup, h.mem_iff⟩

end Lined

theorem lined_of_trace (ht : Trace (lateStep p) (.initial p cancelled b l) ts s) : Lined s :=
  invariant_of_moves ht (.initial cancelled b l) fun _ _ _ h hmove => h.move hmove

/-! ## Tasks without a step -/

theorem quiet_iff : quiet p s = true ↔ ∀ actor, stepActor p s actor = none := by
  simp only [quiet, Bool.and_eq_true, Option.isNone_iff_eq_none, List.all_eq_true, List.mem_range]
  constructor
  · rintro ⟨⟨⟨hgenerator, hcollector⟩, hsupervisor⟩, hworkers⟩ actor
    cases actor with
    | generator => exact hgenerator
    | collector => exact hcollector
    | supervisor => exact hsupervisor
    | worker i =>
        by_cases hi : i < s.workers.size
        · exact hworkers i hi
        · simp [stepActor, stepWorker, Array.getElem?_eq_none (Nat.le_of_not_lt hi)]
  · intro h
    exact ⟨⟨⟨h .generator, h .collector⟩, h .supervisor⟩, fun i _ => h (.worker i)⟩

/-- A generator without a step has ended, or it waits for a tick or for room in the job queue. -/
theorem generator_waits (h : stepGenerator p s = none) : s.generator.ended = true ∨
      (s.cancelled = false ∧ p.expired s.now = false ∧
        ((∃ id wake, s.generator = .ticking id wake ∧ s.now < wake) ∨
          ∃ job, s.generator = .offering job ∧ p.jobCapacity ≤ s.jobs.length)) := by
  unfold stepGenerator at h
  cases hat : s.generator with
  | next id =>
      simp only [hat] at h
      split at h
      · cases h
      · split at h
        · split at h <;> cases h
        · cases h
  | ticking id wake =>
      simp only [hat] at h
      split at h
      · cases h
      · rename_i hrun
        split at h
        · split at h <;> cases h
        · rename_i hearly
          split at h
          · cases h
          · rename_i hlimit
            exact .inr ⟨eq_false_of_ne_true hrun, eq_false_of_ne_true hlimit,
              .inl ⟨id, wake, rfl, Nat.lt_of_not_le hearly⟩⟩
  | offering job =>
      simp only [hat] at h
      split at h
      · cases h
      · rename_i hrun
        split at h
        · cases h
        · rename_i hfull
          split at h
          · cases h
          · rename_i hlimit
            exact .inr ⟨eq_false_of_ne_true hrun, eq_false_of_ne_true hlimit,
              .inr ⟨job, rfl, Nat.le_of_not_lt hfull⟩⟩
  | counting id => simp [hat] at h
  | stopped => exact .inl rfl
  | crashed => exact .inl rfl

/-- A worker without a step has ended, waits for time to pass, waits in line, or waits for room in
the result queue. -/
theorem worker_waits (hw : s.workers[i]? = some w) (h : stepWorker p s i = none) :
    w.ended = true ∨ (∃ wake, w.wake? = some wake ∧ s.now < wake) ∨
      (w = .waiting ∧ (s.line.head? = some i → s.jobs = [] ∧ s.generator.ended = false)) ∨
      (∃ completion, w = .sending completion ∧ s.collector = .listening ∧
        p.resultCapacity ≤ s.results.length) := by
  unfold stepWorker at h
  simp only [hw] at h
  cases w with
  | asking =>
      simp only at h
      split at h <;> cases h
  | waiting =>
      refine .inr (.inr (.inl ⟨rfl, fun hfirst => ?_⟩))
      simp only [hfirst, if_true] at h
      split at h
      · cases h
      · split at h
        · cases h
        · rename_i hjobs
          refine ⟨hjobs, ?_⟩
          split at h
          · cases h
          · rename_i hgenerator
            exact eq_false_of_ne_true hgenerator
  | running job since execution =>
      simp only [stepExecution] at h
      split at h
      · cases h
      · cases h
      · rename_i hdone hcrashed
        rcases Retry.Execution.waits_of_step_eq_none (Option.map_eq_none_iff.1 h) with
          ⟨outcome, hphase⟩ | ⟨cause, hphase⟩ | ⟨-, wake, hwake, hlater⟩
        · exact absurd hphase (hdone outcome)
        · exact absurd hphase (hcrashed cause)
        · exact .inr (.inl ⟨wake, hwake, hlater⟩)
  | sending completion =>
      simp only at h
      split at h
      · cases h
      · rename_i hlistens
        split at h
        · cases h
        · exact .inr (.inr (.inr
            ⟨completion, rfl, Decidable.not_not.1 hlistens, Nat.le_of_not_lt ‹_›⟩))
  | counting success => cases h
  | exited => exact .inl rfl
  | crashed => exact .inl rfl

/-- A collector without a step that still listens waits for the workers. -/
theorem collector_waits (h : stepCollector s = none) (hlistens : s.collector = .listening) :
    s.results = [] ∧ s.workersEnded = false := by
  unfold stepCollector at h
  simp only [hlistens] at h
  split at h
  · split at h <;> cases h
  · rename_i hresults
    split at h
    · cases h
    · rename_i hworkers
      exact ⟨hresults, eq_false_of_ne_true hworkers⟩

/-- A supervisor without a step has finished or waits for a task that has not ended. -/
theorem supervisor_waits (h : stepSupervisor s = none) :
    s.supervisor = .finished ∨ s.generator.ended = false ∨ s.workersEnded = false ∨
      s.collector = .listening := by
  unfold stepSupervisor at h
  split at h
  · split at h
    · cases h
    · cases h
    · rename_i hstopped hcrashed
      refine .inr (.inl ?_)
      cases hat : s.generator with
      | stopped => exact absurd hat hstopped
      | crashed => exact absurd hat hcrashed
      | _ => rfl
  · split at h
    · cases h
    · split at h
      · cases h
      · rename_i hworkers
        exact .inr (.inr (.inl (eq_false_of_ne_true hworkers)))
  · split at h
    · exact .inr (.inr (.inr ‹_›))
    · cases h
    · cases h
  · exact .inl ‹_›

/-! ## The passing of time -/

/-- A generator that has ended waits for nothing. -/
theorem generatorWakes_of_ended (h : s.generator.ended = true) : s.generatorWakes p = [] := by
  unfold State.generatorWakes
  cases hat : s.generator with
  | ticking id wake | offering job =>
      rw [hat] at h
      cases h
  | _ => rfl

/-- Neither does a worker. -/
theorem Worker.wake?_of_ended (h : w.ended = true) : w.wake? = none := by
  cases w with
  | asking | waiting | running _ _ _ | sending _ | counting _ => cases h
  | exited | crashed => rfl

/-- What a run without a step waits for lies ahead. -/
theorem lt_of_mem_wakes (hquiet : ∀ actor, stepActor p s actor = none) {wake : Nat}
    (hwake : wake ∈ s.wakes p) : s.now < wake := by
  rw [State.wakes, List.mem_append] at hwake
  rcases hwake with hgenerator | hworker
  · have hlimit (hexpired : p.expired s.now = false) (hstop : wake ∈ p.stopAt.toList) :
        s.now < wake := by
      rw [Option.mem_toList] at hstop
      simpa [Plan.expired, hstop] using hexpired
    rcases generator_waits (hquiet .generator) with
      hended | ⟨-, hexpired, ⟨id, tick, hat, hlater⟩ | ⟨job, hat, -⟩⟩
    · rw [generatorWakes_of_ended hended] at hgenerator
      cases hgenerator
    · rw [State.generatorWakes, hat, List.mem_cons] at hgenerator
      rcases hgenerator with rfl | hstop
      · exact hlater
      · exact hlimit hexpired hstop
    · rw [State.generatorWakes, hat] at hgenerator
      exact hlimit hexpired hgenerator
  · obtain ⟨w, hmem, hw⟩ := List.mem_filterMap.1 hworker
    obtain ⟨i, hi⟩ := Array.getElem?_of_mem (Array.mem_toList_iff.1 hmem)
    rcases worker_waits hi (hquiet (.worker i)) with
      hended | ⟨wake', hwake', hlater⟩ | ⟨rfl, -⟩ | ⟨completion, rfl, -⟩
    · cases hw.symm.trans (Worker.wake?_of_ended hended)
    · cases hw.symm.trans hwake'
      exact hlater
    · cases hw
    · cases hw

/-- Time passes when no task has a step, up to the first instant for which a task waits. -/
theorem wait_of_quiet (hquiet : ∀ actor, stepActor p s actor = none) {instant : Nat}
    (hlater : s.now < instant) (hwakes : ∀ wake ∈ s.wakes p, instant ≤ wake) :
    step p s (.wait instant) = some { s with now := instant } := by
  have hpasses : (quiet p s && decide (s.now < instant) &&
      (s.wakes p).all (decide <| instant ≤ ·)) = true := by
    simp only [Bool.and_eq_true, decide_eq_true_eq, List.all_eq_true]
    exact ⟨⟨quiet_iff.2 hquiet, hlater⟩, hwakes⟩
  exact if_pos hpasses

/-- A run without a step that waits for an instant gets to it. -/
theorem exists_wait (hquiet : ∀ actor, stepActor p s actor = none) {instant : Nat}
    (hwaits : instant ∈ s.wakes p) : ∃ wake ∈ s.wakes p, ∃ s', step p s (.wait wake) = some s' := by
  obtain ⟨wake, hsoonest⟩ := Option.isSome_iff_exists.1 (soonest_isSome_of_mem hwaits)
  have hmem := soonest_mem hsoonest
  refine ⟨wake, hmem, _, wait_of_quiet hquiet (lt_of_mem_wakes hquiet hmem) ?_⟩
  exact fun _ hwake => soonest_le hsoonest hwake

/-! ## No deadlock -/

/-- A task has a step, or it waits for an instant and the run gets to it. -/
def GoesOn (p : Plan) (s : State) : Prop :=
  (∃ actor s', step p s (.act actor) = some s') ∨
    ∃ wake ∈ s.wakes p, ∃ s', step p s (.wait wake) = some s'

/-- The generator waits for room in the job queue, and nobody is left to make it. -/
def Deserted (p : Plan) (s : State) : Prop :=
  s.workersEnded = true ∧ s.cancelled = false ∧
    ∃ job, s.generator = .offering job ∧ p.jobCapacity ≤ s.jobs.length

/-- When no task has a step and nobody waits for time to pass, all workers have ended: who waits in
line for an empty queue waits for the generator, and the generator does not wait for an empty
queue. -/
theorem workersEnded_of_quiet (hlined : Lined s) (hquiet : ∀ actor, stepActor p s actor = none)
    (htimeless : ∀ wake, wake ∉ s.wakes p) : s.workersEnded = true := by
  rw [workersEnded_iff]
  intro i w hw
  rcases worker_waits hw (hquiet (.worker i)) with
    hended | ⟨wake, hwake, -⟩ | ⟨rfl, -⟩ | ⟨completion, rfl, hlistens, hfull⟩
  · exact hended
  · refine absurd ?_ (htimeless wake)
    rw [State.wakes, List.mem_append]
    exact .inr (List.mem_filterMap.2 ⟨w, Array.mem_toList_iff.2 (Array.mem_of_getElem? hw), hwake⟩)
  · exfalso
    -- The first worker in line finds the queue empty and the generator alive.
    obtain ⟨first, rest, hline⟩ : ∃ first rest, s.line = first :: rest := by
      cases hline : s.line with
      | nil =>
          have hmem := (hlined.mem_iff i).2 hw
          rw [hline] at hmem
          cases hmem
      | cons first rest => exact ⟨first, rest, rfl⟩
    have hfirst : s.workers[first]? = some .waiting := (hlined.mem_iff first).1 (by simp [hline])
    obtain ⟨hjobs, hgenerator⟩ : s.jobs = [] ∧ s.generator.ended = false := by
      rcases worker_waits hfirst (hquiet (.worker first)) with
        hended | ⟨wake, hwake, -⟩ | ⟨-, hhead⟩ | ⟨completion, hat, -⟩
      · cases hended
      · cases hwake
      · exact hhead (by simp [hline])
      · cases hat
    rcases generator_waits (hquiet .generator) with
      hended | ⟨-, -, ⟨id, tick, hat, -⟩ | ⟨job, hat, hfull⟩⟩
    · rw [hgenerator] at hended
      cases hended
    · exact htimeless tick (by simp [State.wakes, State.generatorWakes, hat])
    · have hroom := p.jobCapacity_pos
      rw [hjobs, List.length_nil] at hfull
      omega
  · exfalso
    have hroom := p.resultCapacity_pos
    obtain ⟨hresults, -⟩ := collector_waits (hquiet .collector) hlistens
    rw [hresults, List.length_nil] at hfull
    omega

/-- A run that has not finished goes on, unless it is deserted. -/
theorem progress_of_trace (ht : Trace (lateStep p) (.initial p cancelled b l) ts s)
    (hunfinished : s.supervisor ≠ .finished) : GoesOn p s ∨ Deserted p s := by
  by_cases hstep : ∃ actor s', step p s (.act actor) = some s'
  · exact .inl (.inl hstep)
  have hquiet (actor : Actor) : stepActor p s actor = none := by
    cases hactor : stepActor p s actor with
    | none => rfl
    | some s' => exact absurd ⟨actor, s', hactor⟩ hstep
  by_cases hwaits : ∃ wake, wake ∈ s.wakes p
  · obtain ⟨wake, hwake⟩ := hwaits
    exact .inl (.inr (exists_wait hquiet hwake))
  have htimeless (wake : Nat) : wake ∉ s.wakes p := fun hwake => hwaits ⟨wake, hwake⟩
  refine .inr ?_
  have hended := workersEnded_of_quiet (lined_of_trace ht) hquiet htimeless
  refine ⟨hended, ?_⟩
  -- The collector does not wait for the workers, so the supervisor waits for the generator.
  have hgenerator : s.generator.ended = false := by
    rcases supervisor_waits (hquiet .supervisor) with hfinished | hgenerator | hworkers | hlistens
    · exact absurd hfinished hunfinished
    · exact hgenerator
    · rw [hended] at hworkers
      cases hworkers
    · rw [(collector_waits (hquiet .collector) hlistens).2] at hended
      cases hended
  rcases generator_waits (hquiet .generator) with
    hover | ⟨hrun, -, ⟨id, tick, hat, -⟩ | hoffering⟩
  · rw [hgenerator] at hover
    cases hover
  · exact absurd (by simp [State.wakes, State.generatorWakes, hat]) (htimeless tick)
  · exact ⟨hrun, hoffering⟩

/-- Only death takes the workers away from a generator. -/
theorem not_deserted (ht : Trace (lateStep p) (.initial p cancelled b l) ts s)
    (halive : ¬ s.Crashed) : ¬ Deserted p s := by
  rintro ⟨hended, hrun, job, hat, -⟩
  rcases excuse_of_workersEnded ht hended with hreason | hreason | ⟨hover, -⟩
  · rw [hrun] at hreason
    cases hreason
  · exact halive hreason
  · rw [hat] at hover
    cases hover

end Run
end LoadGen
