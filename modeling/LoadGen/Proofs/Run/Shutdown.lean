import LoadGen.Proofs.Run.Moves
import Mathlib.Tactic.ByContra

/-!
# How a run comes to its end

The supervisor waits for the generator, then for the workers, then for the collector, and the
collector ends only after the last worker.  So the place of the supervisor tells which tasks have
ended, and the failure of the run names the first dead task in this order.

* `State.Crashed` — some task has died; `Move.crashed_mono` says that it stays dead.
* `Orderly` — which tasks have ended at each place of the supervisor, and what the failure is.
* `orderly_of_trace` — every run comes to its end in this order.
* `ended_of_finished`, `no_act_of_finished`, `untouched_of_finished` — what is left of a run after its
  end.
-/

namespace LoadGen
namespace Run

variable {p : Plan} {cancelled : Bool} {b : Circuit.Breaker} {l : Ledger} {ts : History}
  {s s' : State} {label : Label} {i : Nat} {w : Worker}

/-- Whether the generator died. -/
def Generator.isCrashed : Generator → Bool
  | .crashed => true
  | _ => false

/-- Some task of the run has died. -/
def State.Crashed (s : State) : Prop :=
  s.generator.isCrashed = true ∨ s.workerCrashed = true ∨ s.collector = .crashed

instance (s : State) : Decidable s.Crashed :=
  inferInstanceAs (Decidable (_ ∨ _ ∨ _))

/-- The first dead task among those that the supervisor has waited for at a place, a dead worker
that it has seen while waiting included.  The flags tell which tasks have died. -/
def Supervisor.blame (generator worker collector : Bool) : Supervisor → Option Task
  | .awaitingGenerator => none
  | .awaitingWorkers alarmed =>
    if generator then some .generator else if alarmed && worker then some .worker else none
  | .awaitingCollector =>
    if generator then some .generator else if worker then some .worker else none
  | .finished =>
    if generator then some .generator
    else if worker then some .worker
    else if collector then some .collector
    else none

/-- The failure that a run has come to so far. -/
def State.blame (s : State) : Option Task :=
  s.supervisor.blame s.generator.isCrashed s.workerCrashed (s.collector == .crashed)

/-- What has happened when the supervisor is at a place. -/
def Supervisor.Knows (s : State) : Supervisor → Prop
  | .awaitingGenerator => True
  | .awaitingWorkers alarmed =>
    s.generator.ended = true ∧ (alarmed = true → s.workerCrashed = true)
  | .awaitingCollector => s.generator.ended = true ∧ s.workersEnded = true
  | .finished => s.generator.ended = true ∧ s.workersEnded = true ∧ s.collector ≠ .listening

/-- The tasks end in the order in which the supervisor waits for them. -/
structure Orderly (s : State) : Prop where
  knows : s.supervisor.Knows s
  collector_last : s.collector = .ended → s.workersEnded = true ∧ s.results = []
  failure_eq : s.failure = s.blame

/-! ## The end of the workers -/

theorem workersEnded_eq_false (hw : s.workers[i]? = some w) (hrunning : w.ended = false) :
    s.workersEnded = false := by
  cases hall : s.workersEnded with
  | false => rfl
  | true => rw [workersEnded_iff.1 hall i w hw] at hrunning; cases hrunning

/-- A dead worker stays dead while another one moves. -/
theorem workerCrashed_mono {w w' : Worker} (hw : s.workers[i]? = some w)
    (hrunning : w.ended = false) (hworkers : s'.workers = s.workers.setIfInBounds i w')
    (hcrashed : s.workerCrashed = true) : s'.workerCrashed = true := by
  obtain ⟨j, hj⟩ := workerCrashed_iff.1 hcrashed
  have hij : i ≠ j := by
    rintro rfl
    rw [hw] at hj
    cases hj
    cases hrunning
  exact workerCrashed_iff.2 ⟨j, by rw [hworkers, getElem?_setWorker_ne hij, hj]⟩

/-- The dead stay dead. -/
theorem Move.crashed_mono (h : Move p s label s') (hcrashed : s.Crashed) : s'.Crashed := by
  cases h with
  | generator hmove =>
      rw [hmove.frame]
      rcases hcrashed with hgenerator | hother
      · have hrunning := hmove.not_ended
        cases hat : s.generator <;>
          simp [hat, Generator.isCrashed, Generator.ended] at hgenerator hrunning
      · exact .inr hother
  | worker hw hmove =>
      obtain ⟨⟨w', hworkers⟩, hgenerator, hcollector, -⟩ := hmove.frame
      rcases hcrashed with hdead | hdead | hdead
      · exact .inl (hgenerator ▸ hdead)
      · exact .inr (.inl (workerCrashed_mono hw hmove.not_ended hworkers hdead))
      · exact .inr (.inr (hcollector ▸ hdead))
  | collector hmove =>
      rw [hmove.frame]
      rcases hcrashed with hdead | hdead | hdead
      · exact .inl hdead
      · exact .inr (.inl hdead)
      · cases hmove.listening.symm.trans hdead
  | supervisor hmove =>
      rw [hmove.frame]
      exact hcrashed
  | wait | cancel => exact hcrashed

theorem initial_getElem? (hw : (State.initial p cancelled b l).workers[i]? = some w) :
    w = .asking := by
  simp only [State.initial, Array.getElem?_replicate] at hw
  split at hw
  · exact (Option.some.inj hw).symm
  · cases hw

/-! ## The order of the ends -/

namespace Orderly

theorem generator_ended (h : Orderly s) (hlate : s.supervisor ≠ .awaitingGenerator) :
    s.generator.ended = true := by
  have hknows := h.knows
  cases hat : s.supervisor with
  | awaitingGenerator => exact absurd hat hlate
  | awaitingWorkers | awaitingCollector | finished =>
      rw [hat] at hknows
      exact hknows.1

theorem workers_ended (h : Orderly s)
    (hlate : s.supervisor = .awaitingCollector ∨ s.supervisor = .finished) :
    s.workersEnded = true := by
  have hknows := h.knows
  rcases hlate with hat | hat <;> rw [hat] at hknows
  · exact hknows.2
  · exact hknows.2.1

theorem collector_gone (h : Orderly s) (hlate : s.supervisor = .finished) :
    s.collector ≠ .listening := by
  have hknows := h.knows
  rw [hlate] at hknows
  exact hknows.2.2

theorem initial (cancelled : Bool) (b : Circuit.Breaker) (l : Ledger) :
    Orderly (.initial p cancelled b l) where
  knows := trivial
  collector_last h := by cases h
  failure_eq := rfl

theorem generatorMove (h : Orderly s) (hmove : GeneratorMove p s s') : Orderly s' := by
  -- The supervisor leaves its first place only once the generator has ended.
  have hwaiting : s.supervisor = .awaitingGenerator := by
    by_contra hlate
    have hended := h.generator_ended hlate
    rw [hmove.not_ended] at hended
    cases hended
  have hfailure : s.failure = none := by rw [h.failure_eq, State.blame, hwaiting, Supervisor.blame]
  rw [hmove.frame]
  refine ⟨?_, h.collector_last, ?_⟩
  · simp only [hwaiting, Supervisor.Knows]
  · simp only [hfailure, State.blame, hwaiting, Supervisor.blame]

/-- While a worker moves, the supervisor waits for the generator or for the workers. -/
theorem early_of_running (h : Orderly s) (hw : s.workers[i]? = some w)
    (hrunning : w.ended = false) :
    s.supervisor = .awaitingGenerator ∨ ∃ alarmed, s.supervisor = .awaitingWorkers alarmed := by
  have hsome := workersEnded_eq_false hw hrunning
  cases hat : s.supervisor with
  | awaitingGenerator => exact .inl rfl
  | awaitingWorkers alarmed => exact .inr ⟨alarmed, rfl⟩
  | awaitingCollector =>
      rw [h.workers_ended (.inl hat)] at hsome
      cases hsome
  | finished =>
      rw [h.workers_ended (.inr hat)] at hsome
      cases hsome

theorem workerMove (h : Orderly s) (hw : s.workers[i]? = some w) (hmove : WorkerMove p s i w s') :
    Orderly s' := by
  have hknows := h.knows
  obtain ⟨⟨w', hworkers⟩, hgenerator, hcollector, hsupervisor, hfailure, -⟩ := hmove.frame
  have hstill := workerCrashed_mono hw hmove.not_ended hworkers
  have hlast : s'.collector = .ended → s'.workersEnded = true ∧ s'.results = [] := by
    rw [hcollector]
    intro hended
    have hsome := workersEnded_eq_false hw hmove.not_ended
    rw [(h.collector_last hended).1] at hsome
    cases hsome
  rcases h.early_of_running hw hmove.not_ended with hat | ⟨alarmed, hat⟩
  · refine ⟨?_, hlast, ?_⟩
    · rw [hsupervisor, hat]
      trivial
    · rw [hfailure, h.failure_eq, State.blame, State.blame, hsupervisor, hat]
      rfl
  · rw [hat] at hknows
    refine ⟨?_, hlast, ?_⟩
    · rw [hsupervisor, hat]
      exact ⟨hgenerator ▸ hknows.1, fun halarm => hstill (hknows.2 halarm)⟩
    · rw [hfailure, h.failure_eq, State.blame, State.blame, hsupervisor, hgenerator, hcollector,
        hat]
      cases alarmed with
      | false => rfl
      | true => rw [hknows.2 rfl, hstill (hknows.2 rfl)]

theorem collectorMove (h : Orderly s) (hmove : CollectorMove s s') : Orderly s' := by
  have hunfinished : s.supervisor ≠ .finished := fun hlate =>
    h.collector_gone hlate hmove.listening
  refine ⟨?_, ?_, ?_⟩
  · have hknows := h.knows
    rw [hmove.frame]
    cases hat : s.supervisor with
    | finished => exact absurd hat hunfinished
    | awaitingGenerator | awaitingWorkers | awaitingCollector =>
        rw [hat] at hknows
        exact hknows
  · cases hmove with
    | accept hat =>
        intro hended
        cases hat.symm.trans hended
    | refuse =>
        intro hended
        cases hended
    | close _ hresults hended => exact fun _ => ⟨hended, hresults⟩
  · rw [hmove.frame]
    simp only [h.failure_eq, State.blame]
    cases hat : s.supervisor with
    | finished => exact absurd hat hunfinished
    | awaitingGenerator | awaitingWorkers | awaitingCollector => rfl

theorem supervisorMove (h : Orderly s) (hmove : SupervisorMove s s') : Orderly s' := by
  have hfailure : s.failure = s.supervisor.blame _ _ _ := h.failure_eq
  have hknows := h.knows
  cases hmove with
  | joinGenerator hat hgenerator =>
      rw [hat, hgenerator] at hfailure
      refine ⟨⟨?_, fun halarm => by cases halarm⟩, h.collector_last, ?_⟩
      · simp only [hgenerator, Generator.ended]
      · rw [State.blame, hgenerator]
        exact hfailure
  | buryGenerator hat hgenerator =>
      refine ⟨⟨?_, fun halarm => by cases halarm⟩, h.collector_last, ?_⟩
      · simp only [hgenerator, Generator.ended]
      · rw [State.blame, hgenerator]
        rfl
  | buryWorker hat hcrashed =>
      rw [hat] at hfailure hknows
      refine ⟨⟨hknows.1, fun _ => hcrashed⟩, h.collector_last, ?_⟩
      show some (s.failure.getD .worker) = Supervisor.blame _ s.workerCrashed _ _
      rw [hfailure, hcrashed]
      cases s.generator.isCrashed <;> rfl
  | @joinWorkers alarmed hat hseen hended =>
      rw [hat] at hfailure hknows
      refine ⟨⟨hknows.1, hended⟩, h.collector_last, hfailure.trans ?_⟩
      have hsame : (alarmed && s.workerCrashed) = s.workerCrashed := by
        rcases hseen with rfl | hnone
        · rfl
        · rw [hnone, Bool.and_false]
      rw [Supervisor.blame, hsame]
      rfl
  | joinCollector hat hcollector =>
      rw [hat, hcollector] at hfailure
      rw [hat] at hknows
      refine ⟨⟨hknows.1, hknows.2, ?_⟩, h.collector_last, ?_⟩
      · simp only [hcollector, ne_eq, reduceCtorEq, not_false_eq_true]
      · rw [State.blame, hcollector]
        exact hfailure
  | buryCollector hat hcollector =>
      rw [hat] at hfailure hknows
      refine ⟨⟨hknows.1, hknows.2, ?_⟩, h.collector_last, ?_⟩
      · simp only [hcollector, ne_eq, reduceCtorEq, not_false_eq_true]
      · show some (s.failure.getD .collector) =
          Supervisor.blame s.generator.isCrashed s.workerCrashed (s.collector == .crashed) .finished
        rw [hfailure, hcollector]
        cases s.generator.isCrashed <;> cases s.workerCrashed <;> rfl

/-- The tasks of a run end in order, whatever the order of the steps. -/
theorem move (h : Orderly s) (hmove : Move p s label s') : Orderly s' := by
  cases hmove with
  | generator hmove => exact h.generatorMove hmove
  | worker hw hmove => exact h.workerMove hw hmove
  | collector hmove => exact h.collectorMove hmove
  | supervisor hmove => exact h.supervisorMove hmove
  | wait | cancel => exact ⟨h.knows, h.collector_last, h.failure_eq⟩

/-- Nothing is under way any more once a run has ended well. -/
theorem settled (h : Orderly s) (hfinished : s.supervisor = .finished) (hnone : s.failure = none) :
    s.generator = .stopped ∧ s.workersEnded = true ∧ s.collector = .ended ∧ s.results = [] := by
  have hgenerator := h.generator_ended (by simp [hfinished])
  have hworkers := h.workers_ended (.inr hfinished)
  have hgone := h.collector_gone hfinished
  have hblame : s.supervisor.blame _ _ _ = none := h.failure_eq.symm.trans hnone
  rw [hfinished, Supervisor.blame] at hblame
  have hcollector : s.collector = .ended := by
    cases hat : s.collector with
    | ended => rfl
    | listening => exact absurd hat hgone
    | crashed =>
        cases hg : s.generator.isCrashed <;> cases hw : s.workerCrashed <;>
          simp [hat, hg, hw] at hblame
  refine ⟨?_, hworkers, hcollector, (h.collector_last hcollector).2⟩
  cases hat : s.generator with
  | stopped => rfl
  | crashed => simp [hat, Generator.isCrashed] at hblame
  | _ => simp [hat, Generator.ended] at hgenerator

/-- A run without a dead task does not fail. -/
theorem failure_eq_none (h : Orderly s) (halive : ¬ s.Crashed) : s.failure = none := by
  have hgenerator : s.generator.isCrashed = false :=
    Bool.eq_false_iff.2 fun hdead => halive (.inl hdead)
  have hworker : s.workerCrashed = false :=
    Bool.eq_false_iff.2 fun hdead => halive (.inr (.inl hdead))
  have hcollector : (s.collector == .crashed) = false :=
    Bool.eq_false_iff.2 fun hdead => halive (.inr (.inr (eq_of_beq hdead)))
  rw [h.failure_eq, State.blame, hgenerator, hworker, hcollector]
  cases s.supervisor <;> simp [Supervisor.blame]

end Orderly

theorem orderly_of_trace (ht : Trace (lateStep p) (.initial p cancelled b l) ts s) : Orderly s :=
  invariant_of_moves ht (.initial cancelled b l) fun _ _ _ h hmove => h.move hmove

/-! ## After the end -/

/-- When a run has ended, no task of it is alive any more. -/
theorem ended_of_finished (ht : Trace (lateStep p) (.initial p cancelled b l) ts s)
    (hfinished : s.supervisor = .finished) :
    s.generator.ended = true ∧ s.workersEnded = true ∧ s.collector ≠ .listening := by
  have hknows := (orderly_of_trace ht).knows
  rw [hfinished] at hknows
  exact hknows

/-- A task of a run that has ended has no step. -/
theorem no_act_of_finished (ht : Trace (lateStep p) (.initial p cancelled b l) ts s)
    (hfinished : s.supervisor = .finished) (actor : Actor) : stepActor p s actor = none := by
  obtain ⟨hgenerator, hworkers, hcollector⟩ := ended_of_finished ht hfinished
  cases hact : stepActor p s actor with
  | none => rfl
  | some s' =>
      exfalso
      have hstep : lateStep p s (.act actor) = some s' := hact
      cases move_of_step hstep with
      | generator hmove =>
          rw [hmove.not_ended] at hgenerator
          cases hgenerator
      | worker hw hmove =>
          have hrunning := hmove.not_ended
          rw [workersEnded_iff.1 hworkers _ _ hw] at hrunning
          cases hrunning
      | collector hmove => exact hcollector hmove.listening
      | supervisor hmove =>
          cases hmove with
          | joinGenerator hat | buryGenerator hat | buryWorker hat | joinWorkers hat
          | joinCollector hat | buryCollector hat => cases hat.symm.trans hfinished

/-- Whatever happens after the end of a run, nothing of it touches the ledger or the breaker. -/
theorem untouched_of_finished {us : History}
    (ht : Trace (lateStep p) (.initial p cancelled b l) ts s)
    (hfinished : s.supervisor = .finished) (hu : Trace (lateStep p) s us s') :
    s'.supervisor = .finished ∧ s'.ledger = s.ledger ∧ s'.breaker = s.breaker := by
  induction hu with
  | nil => exact ⟨hfinished, rfl, rfl⟩
  | @snoc us m m' label hm hstep ih =>
      obtain ⟨hstill, hledger, hbreaker⟩ := ih
      cases label with
      | act actor =>
          have hnone := no_act_of_finished (ht.append hm) hstill actor
          cases hnone.symm.trans hstep
      | wait instant | cancel =>
          cases move_of_step hstep
          exact ⟨hstill, hledger, hbreaker⟩

end Run
end LoadGen
