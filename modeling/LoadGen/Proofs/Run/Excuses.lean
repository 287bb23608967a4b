import LoadGen.Proofs.Retry.Moves
import LoadGen.Proofs.Run.Dispatch
import LoadGen.Proofs.Run.Shutdown

/-!
# Why tasks end

A task of a run that ends without having died has a reason: the run is cancelled, a task has died,
or its work is done.

* `Excused` — the reasons of the workers and of the generator.
* `Excused.move`, `excused_of_trace` — every task that has ended had one of them.
-/

namespace LoadGen
namespace Run

variable {p : Plan} {cancelled : Bool} {b : Circuit.Breaker} {l : Ledger} {ts : History}
  {s s' : State} {label : Label} {i : Nat} {w : Worker}

/-- Who has ended had a reason. -/
structure Excused (p : Plan) (s : State) : Prop where
  execution : ∀ (i : Nat) (job : Job) (since : Nat) (e : Retry.Execution OperationResult),
    s.workers[i]? = some (.running job since e) → e.phase = .done (.error .cancelled) →
      s.cancelled = true
  worker : ∀ (i : Nat) (w : Worker), s.workers[i]? = some w → w.ended = true →
    s.cancelled = true ∨ s.Crashed ∨ (s.generator.ended = true ∧ s.jobs = [])
  generator : s.generator = .stopped →
    s.cancelled = true ∨ p.stopAt ≠ none ∨ p.total ≤ s.dispatched

/-- A cancelled run stays cancelled. -/
theorem Move.cancelled_mono (h : Move p s label s') (hcancelled : s.cancelled = true) :
    s'.cancelled = true := by
  cases h with
  | generator hmove =>
      rw [hmove.frame]
      exact hcancelled
  | worker _ hmove =>
      cases hmove with
      | advance =>
          simp only [State.cancelled, Bool.or_eq_true] at hcancelled ⊢
          rcases hcancelled with hcaller | hrun
          · exact .inl hcaller
          · exact .inr (.inl hrun)
      | _ => exact hcancelled
  | collector hmove =>
      rw [hmove.frame]
      exact hcancelled
  | supervisor hmove =>
      cases hmove with
      | buryGenerator | buryWorker => simp [State.cancelled]
      | _ => exact hcancelled
  | wait => exact hcancelled
  | cancel => simp [State.cancelled]

namespace Excused

theorem initial (cancelled : Bool) (b : Circuit.Breaker) (l : Ledger) :
    Excused p (.initial p cancelled b l) where
  execution i job since e hw := by cases initial_getElem? hw
  worker i w hw hended := by
    rw [initial_getElem? hw] at hended
    cases hended
  generator hstopped := by cases hstopped

/-- Reasons remain while the workers, the generator and the job queue are left alone. -/
theorem of_frame (h : Excused p s) (hworkers : s'.workers = s.workers)
    (hgenerator : s'.generator = s.generator) (hjobs : s'.jobs = s.jobs)
    (hdispatched : s'.dispatched = s.dispatched)
    (hcancelled : s.cancelled = true → s'.cancelled = true) (hcrashed : s.Crashed → s'.Crashed) :
    Excused p s' := by
  refine ⟨?_, ?_, ?_⟩
  · intro i job since e hw hphase
    rw [hworkers] at hw
    exact hcancelled (h.execution i job since e hw hphase)
  · intro i w hw hended
    rw [hworkers] at hw
    rw [hgenerator, hjobs]
    exact (h.worker i w hw hended).imp hcancelled (Or.imp_left hcrashed)
  · intro hstopped
    rw [hgenerator] at hstopped
    rw [hdispatched]
    exact (h.generator hstopped).imp_left hcancelled

theorem generatorMove (h : Excused p s) (hn : Numbered p s) (hmove : GeneratorMove p s s') :
    Excused p s' := by
  have hcancelled := Move.cancelled_mono (.generator hmove)
  have hcrashed := Move.crashed_mono (.generator hmove)
  have hrunning := hmove.not_ended
  refine ⟨?_, ?_, ?_⟩
  · intro i job since e hw hphase
    rw [hmove.frame] at hw
    exact hcancelled (h.execution i job since e hw hphase)
  · intro i w hw hended
    rw [hmove.frame] at hw
    rcases h.worker i w hw hended with hreason | hreason | ⟨hover, -⟩
    · exact .inl (hcancelled hreason)
    · exact .inr (.inl (hcrashed hreason))
    · rw [hrunning] at hover
      cases hover
  · intro hstopped
    cases hmove with
    | @finish id hat hdone =>
        have hplace := hn.place
        simp only [hat, Generator.Numbers, State.sent] at hplace
        exact .inr (.inr (hplace ▸ hdone))
    | quit _ hquit => exact .inl hquit
    | expire _ _ hexpired =>
        refine .inr (.inl fun hnone => ?_)
        simp [Plan.expired, hnone] at hexpired
    | schedule | offer | fail | overflow | send | count => cases hstopped

/-- A worker that ends has a reason; if it is neither cancellation nor death, it holds no job. -/
theorem of_end (h : Excused p s) (ho : Orderly s) {w w' : Worker} (hw : s.workers[i]? = some w)
    (hmove : WorkerMove p s i w s') (hw' : s'.workers[i]? = some w') (hended : w'.ended = true) :
    s'.cancelled = true ∨ s'.Crashed ∨
      (w = .waiting ∧ s.generator.ended = true ∧ s.jobs = []) := by
  have hself := getElem?_setWorker_self hw
  cases hmove with
  | leave hcancelled | giveUp hcancelled => exact .inl hcancelled
  | retire _ _ hjobs hover => exact .inr (.inr ⟨rfl, hover, hjobs⟩)
  | fall => exact .inr (.inl (.inr (.inl (workerCrashed_iff.2 ⟨i, hself _⟩))))
  | abandon hdeaf =>
      refine .inr (.inl (.inr (.inr ?_)))
      cases hat : s.collector with
      | listening => exact absurd hat hdeaf
      | crashed => exact hat
      | ended =>
          -- The collector would have outlived this worker.
          have hall := workersEnded_iff.1 (ho.collector_last hat).1 i _ hw
          cases hall
  | @conclude job since execution outcome hphase =>
      cases (hself _).symm.trans hw'
      cases outcome with
      | ok value => cases hended
      | error e =>
          cases e with
          | cancelled => exact .inl (h.execution i job since execution hw hphase)
          | circuitOpen | failed => cases hended
  | queueUp | take | advance | deliver | count =>
      cases (hself _).symm.trans hw'
      cases hended

theorem workerMove (h : Excused p s) (ho : Orderly s) (hw : s.workers[i]? = some w)
    (hmove : WorkerMove p s i w s') : Excused p s' := by
  have hcancelled := Move.cancelled_mono (.worker hw hmove)
  have hcrashed := Move.crashed_mono (.worker hw hmove)
  obtain ⟨⟨w', hworkers⟩, hgenerator, -, -, -, -, hdispatched, -⟩ := hmove.frame
  have hjobs : s.jobs = [] → s'.jobs = [] := by
    intro hnone
    cases hmove with
    | take _ _ hsome => cases hnone.symm.trans hsome
    | _ => exact hnone
  refine ⟨?_, ?_, ?_⟩
  · intro j job since e hj hphase
    by_cases hij : i = j
    · -- An execution that has just ended as cancelled was cancelled in this very move.
      subst hij
      have hself := getElem?_setWorker_self hw
      cases hmove with
      | take =>
          cases (hself _).symm.trans hj
          cases hphase
      | advance hadvance =>
          cases (hself _).symm.trans hj
          exact hcancelled (Retry.Execution.cancelled_of_step hadvance hphase)
      | @conclude job since execution outcome =>
          have hplace := (hself _).symm.trans hj
          unfold concludeJob at hplace
          split at hplace <;> cases hplace
      | _ => cases (hself _).symm.trans hj
    · rw [hworkers, getElem?_setWorker_ne hij] at hj
      exact hcancelled (h.execution j job since e hj hphase)
  · intro j w'' hj hended
    rw [hgenerator]
    by_cases hij : i = j
    · subst hij
      rcases h.of_end ho hw hmove hj hended with hreason | hreason | ⟨-, hover, hnone⟩
      · exact .inl hreason
      · exact .inr (.inl hreason)
      · exact .inr (.inr ⟨hover, hjobs hnone⟩)
    · rw [hworkers, getElem?_setWorker_ne hij] at hj
      rcases h.worker j w'' hj hended with hreason | hreason | ⟨hover, hnone⟩
      · exact .inl (hcancelled hreason)
      · exact .inr (.inl (hcrashed hreason))
      · exact .inr (.inr ⟨hover, hjobs hnone⟩)
  · intro hstopped
    rw [hgenerator] at hstopped
    rw [hdispatched]
    exact (h.generator hstopped).imp_left hcancelled

theorem move (h : Excused p s) (ho : Orderly s) (hn : Numbered p s) (hmove : Move p s label s') :
    Excused p s' := by
  have hcancelled := hmove.cancelled_mono
  have hcrashed := hmove.crashed_mono
  cases hmove with
  | generator hmove => exact h.generatorMove hn hmove
  | worker hw hmove => exact h.workerMove ho hw hmove
  | collector hmove =>
      rw [hmove.frame] at hcancelled hcrashed ⊢
      exact h.of_frame rfl rfl rfl rfl hcancelled hcrashed
  | supervisor hmove =>
      rw [hmove.frame] at hcancelled hcrashed ⊢
      exact h.of_frame rfl rfl rfl rfl hcancelled hcrashed
  | wait | cancel => exact h.of_frame rfl rfl rfl rfl hcancelled hcrashed

end Excused

theorem excused_of_trace (ht : Trace (lateStep p) (.initial p cancelled b l) ts s) :
    Excused p s := by
  induction ht with
  | nil => exact .initial cancelled b l
  | snoc hs hstep ih =>
      exact ih.move (orderly_of_trace hs) (numbered_of_trace hs) (move_of_step hstep)

/-- The number of workers does not change. -/
theorem size_workers_of_trace (ht : Trace (lateStep p) (.initial p cancelled b l) ts s) :
    s.workers.size = p.workers := by
  refine invariant_of_moves (P := fun s => s.workers.size = p.workers) ht ?_ ?_
  · simp [State.initial]
  · intro s label s' h hmove
    by_cases hlabel : ∃ i, label = .act (.worker i)
    · obtain ⟨i, rfl⟩ := hlabel
      cases hmove with
      | worker _ hmove =>
          obtain ⟨⟨w', hworkers⟩, -⟩ := hmove.frame
          rw [hworkers, Array.size_setIfInBounds, h]
    · rw [hmove.workers_eq fun i hi => hlabel ⟨i, hi⟩, h]

/-- When all workers have ended, they had the same reason to. -/
theorem excuse_of_workersEnded (ht : Trace (lateStep p) (.initial p cancelled b l) ts s)
    (hended : s.workersEnded = true) :
    s.cancelled = true ∨ s.Crashed ∨ (s.generator.ended = true ∧ s.jobs = []) := by
  have hfirst : 0 < s.workers.size := by
    rw [size_workers_of_trace ht]
    exact p.workers_pos
  have hw : s.workers[0]? = some s.workers[0] := Array.getElem?_eq_getElem hfirst
  exact (excused_of_trace ht).worker 0 _ hw (workersEnded_iff.1 hended 0 _ hw)

end Run
end LoadGen
