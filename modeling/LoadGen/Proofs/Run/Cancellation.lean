import LoadGen.Proofs.Run.Circuit
import LoadGen.Proofs.Run.Termination
import LoadGen.Proofs.Run.Whereabouts

/-!
# After the cancellation

From the moment a run is cancelled no task begins anything: no job is put into the job queue or taken
from it, no call starts, and the breaker hears of no outcome.  A job that is being executed is
dropped, and a result that a worker has come to by then is still recorded.  All this takes steps and
no time, so the run ends at the instant of its cancellation.

* `Halts`, `halts_of_trace` — what no step does any more.
* `State.decided`, `State.underway`, `State.outgoing` — the jobs that have an outcome, those that
  have none yet, and the results about to be handed over.
* `countP_decided` — whatever is handed over from now on was decided before.
* `records_perm_decided`, `underway_not_recorded` — what a cancelled run that ended well has
  recorded.
* `act_of_cancelled`, `ends_of_cancelled` — prompt tasks end at once.
* `CutShort`, `EndsAt` — the whole of it, and `cutShort_of_trace`, `endsAt_of_trace`.
-/

namespace LoadGen
namespace Run

variable {p : Plan} {cancelled : Bool} {b : Circuit.Breaker} {l : Ledger} {ts us : History}
  {m s s' : State} {label : Label} {i : Nat} {w : Worker}

/-! ## Nothing begins -/

/-- A step that begins nothing: it puts no job into the queue and takes none from it, starts no call
and leaves no outcome on the breaker. -/
structure Halts (x : Transition State Label) : Prop where
  dispatched : dispatched? x = none
  taken : taken? x = none
  answered : answered? x = none
  sent : x.target.sent = x.source.sent
  calls : x.target.calls = x.source.calls
  breaker : x.target.breaker = x.source.breaker

/-- A cancelled execution does nothing but end. -/
theorem interrupt_of_cancelled {α : Type} {S : Retry.Setting α} {now : Nat}
    {e : Retry.Execution α} {move : Retry.Move α} (h : e.step S now true b = some move) :
    move.execution = e.toPhase (.done (.error .cancelled)) ∧ move.breaker = b := by
  cases Retry.Execution.makes_of_step h with
  | interrupt => exact ⟨rfl, rfl⟩
  | start _ hrun | refuse _ hrun | answer _ hrun | resume _ hrun => cases hrun

theorem WorkerMove.halts (h : WorkerMove p s i w s') (hw : s.workers[i]? = some w)
    (hcancelled : s.cancelled = true) : Halts ⟨s, .act (.worker i), s'⟩ := by
  have hself := getElem?_setWorker_self hw
  have hanswered : answered? ⟨s, .act (.worker i), s'⟩ = none := by
    simp only [answered?, hw, hcancelled]
    cases w <;> rfl
  have hdispatched : dispatched? ⟨s, .act (.worker i), s'⟩ = none :=
    dispatched?_eq_none (by simp)
  cases h with
  | queueUp hrun | take hrun | retire hrun =>
      rw [hrun] at hcancelled
      cases hcancelled
  | advance hmove =>
      rw [hcancelled] at hmove
      obtain ⟨hended, hbreaker⟩ := interrupt_of_cancelled hmove
      refine ⟨hdispatched, by simp [taken?, hw], hanswered, rfl, ?_, hbreaker⟩
      show (if _ then _ else s.calls) = s.calls
      rw [hended]
      rfl
  | giveUp => exact ⟨hdispatched, by simp [taken?, hw, hself], hanswered, rfl, rfl, rfl⟩
  | leave | conclude | fall | abandon | deliver | count =>
      exact ⟨hdispatched, by simp only [taken?, hw], hanswered, rfl, rfl, rfl⟩

/-- No step of a cancelled run begins anything. -/
theorem Move.halts (h : Move p s label s') (hcancelled : s.cancelled = true) :
    Halts ⟨s, label, s'⟩ := by
  have hquiet (hothers : ∀ i, label ≠ .act (.worker i)) := quiet_of_label s s' hothers
  cases h with
  | generator hmove =>
      obtain ⟨htaken, -⟩ := hquiet (by simp)
      rcases hmove.sends with ⟨job, hat, hsent, -⟩ | ⟨hnone, -, hsent⟩
      · cases hmove with
        | send _ hrun =>
            rw [hrun] at hcancelled
            cases hcancelled
        | quit | expire => simp [dispatched?, hat] at hsent
        | finish hat' | schedule hat' | overflow hat' | count hat' => cases hat.symm.trans hat'
        | offer hmakes | fail hmakes =>
            rcases hmakes with ⟨hat', _⟩ | ⟨wake, hat', _⟩ <;> cases hat.symm.trans hat'
      · rw [hmove.frame] at *
        exact ⟨hnone, htaken, rfl, hsent, rfl, rfl⟩
  | worker hw hmove => exact hmove.halts hw hcancelled
  | collector hmove | supervisor hmove =>
      obtain ⟨htaken, -⟩ := hquiet (by simp)
      rw [hmove.frame] at *
      exact ⟨dispatched?_eq_none (by simp), htaken, rfl, rfl, rfl, rfl⟩
  | wait | cancel =>
      obtain ⟨htaken, -⟩ := hquiet (by simp)
      exact ⟨dispatched?_eq_none (by simp), htaken, rfl, rfl, rfl, rfl⟩

/-- Nothing begins any more once a run is cancelled. -/
theorem halts_of_trace (ht : Trace (lateStep p) m us s) (hcancelled : m.cancelled = true) :
    s.cancelled = true ∧ (∀ x ∈ us, Halts x) ∧ s.sent = m.sent ∧ s.calls = m.calls ∧
      s.breaker = m.breaker := by
  induction ht with
  | nil => exact ⟨hcancelled, fun x hx => (by cases hx), rfl, rfl, rfl⟩
  | snoc _ hstep ih =>
      obtain ⟨hstill, hall, hsent, hcalls, hbreaker⟩ := ih
      have hmove := move_of_step hstep
      have hhalts := hmove.halts hstill
      refine ⟨hmove.cancelled_mono hstill, ?_, hhalts.sent.trans hsent, hhalts.calls.trans hcalls,
        hhalts.breaker.trans hbreaker⟩
      intro x hx
      rcases List.mem_append.1 hx with hold | hnew
      · exact hall x hold
      · rw [List.mem_singleton.1 hnew]
        exact hhalts

/-- A history in which the caller cancels the run, cut at that moment. -/
theorem cancelled_of_label {s₀ : State} {x : Transition State Label}
    (ht : Trace (lateStep p) s₀ (ts ++ x :: us) s) (hcancel : x.label = .cancel) :
    Trace (lateStep p) s₀ (ts ++ [x]) x.target ∧ Trace (lateStep p) x.target us s ∧
      x.target.callerCancelled = true := by
  obtain ⟨hbefore, hstep, hafter⟩ := ht.split_at
  refine ⟨hbefore.snoc hstep, hafter, ?_⟩
  rw [hcancel] at hstep
  generalize x.target = target at hstep
  cases move_of_step hstep
  rfl

/-! ## What becomes of the jobs -/

/-- The job of a worker that has come to an outcome other than cancellation and is still to hand it
over. -/
def Worker.decided? : Worker → Option Job
  | .running job _ execution =>
    match execution.phase with
    | .done (.error .cancelled) => none
    | .done _ => some job
    | _ => none
  | .sending completion => some completion.job
  | _ => none

/-- The job of a worker that is in a call, about to make one, or waiting to make it again. -/
def Worker.underway? : Worker → Option Job
  | .running job _ execution =>
    match execution.phase with
    | .ready _ => some job
    | .calling _ _ => some job
    | .waiting _ _ => some job
    | _ => none
  | _ => none

/-- The result that a worker is about to hand over. -/
def Worker.outgoing? : Worker → Option Completion
  | .sending completion => some completion
  | _ => none

def State.decided (s : State) : List Job :=
  s.workers.toList.filterMap Worker.decided?

def State.underway (s : State) : List Job :=
  s.workers.toList.filterMap Worker.underway?

def State.outgoing (s : State) : List Completion :=
  s.workers.toList.filterMap Worker.outgoing?

/-- What a worker that has an outcome does with it, as long as the collector listens. -/
theorem WorkerMove.settles (h : WorkerMove p s i w s') (hw : s.workers[i]? = some w)
    (hcancelled : s.cancelled = true) (horderly : Orderly s) (halive : ¬ s'.Crashed) :
    ∃ w', s'.workers = s.workers.setIfInBounds i w' ∧
      w.decided?.toList = (delivered? ⟨s, .act (.worker i), s'⟩).toList.map Completion.job ++
        w'.decided?.toList ∧
      ∀ c, w.outgoing? = some c →
        delivered? ⟨s, .act (.worker i), s'⟩ = some c ∨ w'.outgoing? = some c := by
  have hself := getElem?_setWorker_self hw
  cases h with
  | queueUp hrun | take hrun | retire hrun =>
      rw [hrun] at hcancelled
      cases hcancelled
  | @advance job since execution move hmove =>
      have hactive : (Worker.running job since execution).decided? = none := by
        cases hphase : execution.phase with
        | done outcome => simp [Retry.Execution.step, hphase] at hmove
        | _ => simp only [Worker.decided?, hphase]
      rw [hcancelled] at hmove
      obtain ⟨hended, -⟩ := interrupt_of_cancelled hmove
      refine ⟨_, rfl, ?_, fun c hc => by cases hc⟩
      have hover : (Worker.running job since move.execution).decided? = none := by
        rw [hended]
        rfl
      rw [hactive, hover]
      simp [delivered?, hw]
  | @conclude job since execution outcome hphase =>
      refine ⟨_, rfl, ?_, fun c hc => by cases hc⟩
      rcases outcome with e | value
      · cases e <;> simp [delivered?, hw, Worker.decided?, hphase, concludeJob]
      · simp [delivered?, hw, Worker.decided?, hphase, concludeJob]
  | fall => exact absurd (.inr (.inl (workerCrashed_iff.2 ⟨i, hself _⟩))) halive
  | abandon hdeaf =>
      -- Either the collector has died, or it would have outlived this worker.
      exfalso
      cases hat : s.collector with
      | listening => exact hdeaf hat
      | crashed => exact halive (.inr (.inr hat))
      | ended => cases workersEnded_iff.1 (horderly.collector_last hat).1 i _ hw
  | @deliver completion =>
      refine ⟨_, rfl, ?_, fun c hc => .inl ?_⟩
      · simp [delivered?, hw, hself, Worker.decided?]
      · cases hc
        simp [delivered?, hw, hself]
  | leave | giveUp | count =>
      exact ⟨_, rfl, by simp [delivered?, hw, hself, Worker.decided?], fun c hc => by cases hc⟩

/-- Whatever is handed over after the cancellation was decided before, and the other way round. -/
theorem countP_decided (hm : Trace (lateStep p) (.initial p cancelled b l) ts m)
    (ht : Trace (lateStep p) m us s) (hcancelled : m.cancelled = true) (halive : ¬ s.Crashed)
    (P : Job → Bool) :
    ((deliveries us).map Completion.job).countP P + s.decided.countP P = m.decided.countP P := by
  induction ht with
  | nil => exact Nat.zero_add _
  | @snoc us s s' label hs hstep ih =>
      have hmove := move_of_step hstep
      have hbefore := ih fun hdead => halive (hmove.crashed_mono hdead)
      have hstill := (halts_of_trace hs hcancelled).1
      rw [deliveries, filterMap_snoc, ← deliveries, List.map_append, List.countP_append, ← hbefore]
      by_cases hlabel : ∃ i, label = .act (.worker i)
      · obtain ⟨i, rfl⟩ := hlabel
        cases hmove with
        | worker hw hmove =>
            obtain ⟨w', hworkers, hdecided, -⟩ :=
              hmove.settles hw hstill (orderly_of_trace (hm.append hs)) halive
            have hsame := congrArg (List.countP P) hdecided
            rw [List.countP_append] at hsame
            have hexchange := countP_filterMap_setIfInBounds Worker.decided? P hw w'
            rw [← hworkers] at hexchange
            unfold State.decided
            omega
      · have hothers (i : Nat) : label ≠ .act (.worker i) := fun h => hlabel ⟨i, h⟩
        rw [(quiet_of_label s s' hothers).2.1, State.decided, State.decided,
          hmove.workers_eq hothers]
        simp

/-- A result that was about to be handed over when the run was cancelled is handed over. -/
theorem countP_outgoing_le (hm : Trace (lateStep p) (.initial p cancelled b l) ts m)
    (ht : Trace (lateStep p) m us s) (hcancelled : m.cancelled = true) (halive : ¬ s.Crashed)
    (P : Completion → Bool) :
    m.outgoing.countP P ≤ (deliveries us).countP P + s.outgoing.countP P := by
  induction ht with
  | nil => exact Nat.le_add_left _ _
  | @snoc us s s' label hs hstep ih =>
      have hmove := move_of_step hstep
      have hbefore := ih fun hdead => halive (hmove.crashed_mono hdead)
      have hstill := (halts_of_trace hs hcancelled).1
      rw [deliveries, filterMap_snoc, ← deliveries, List.countP_append]
      refine Nat.le_trans hbefore ?_
      by_cases hlabel : ∃ i, label = .act (.worker i)
      · obtain ⟨i, rfl⟩ := hlabel
        cases hmove with
        | @worker _ w _ hw hmove =>
            obtain ⟨w', hworkers, -, houtgoing⟩ :=
              hmove.settles hw hstill (orderly_of_trace (hm.append hs)) halive
            have hkept : w.outgoing?.toList.countP P ≤
                (delivered? ⟨s, .act (.worker i), s'⟩).toList.countP P +
                  w'.outgoing?.toList.countP P := by
              cases hc : w.outgoing? with
              | none => exact Nat.zero_le _
              | some c =>
                  rcases houtgoing c hc with hdelivered | hwaits
                  · rw [hdelivered]
                    exact Nat.le_add_right _ _
                  · rw [hwaits]
                    exact Nat.le_add_left _ _
            have hexchange := countP_filterMap_setIfInBounds Worker.outgoing? P hw w'
            rw [← hworkers] at hexchange
            unfold State.outgoing
            omega
      · have hothers (i : Nat) : label ≠ .act (.worker i) := fun h => hlabel ⟨i, h⟩
        rw [(quiet_of_label s s' hothers).2.1, State.outgoing, State.outgoing,
          hmove.workers_eq hothers]
        simp

/-! ## What a cancelled run has recorded -/

/-- A cancelled run that ended well has recorded the jobs whose results had been handed over by the
cancellation, those that were decided by then, and no others. -/
theorem records_perm_decided {r : Result}
    (hm : Trace (lateStep p) (.initial p cancelled b l) ts m) (ht : Trace (lateStep p) m us s)
    (hcancelled : m.cancelled = true) (halive : ¬ s.Crashed) (hr : s.outcome? p = some (.ok r)) :
    ((records (ts ++ us)).map Completion.job).Perm
      ((deliveries ts).map Completion.job ++ m.decided) := by
  have hsettled := settled_of_outcome? (hm.append ht) hr
  obtain ⟨hfinished, hnone, -⟩ := eq_of_outcome? hr
  have hended := ((orderly_of_trace (hm.append ht)).settled hfinished hnone).2.1
  have hnothing : s.decided = [] := by
    apply filterMap_workers_eq_nil hended
    intro w hw
    cases w <;> first | rfl | cases hw
  rw [← hsettled.results_eq, deliveries, List.filterMap_append, ← deliveries, ← deliveries,
    List.map_append]
  apply List.Perm.append_left
  classical
  rw [List.perm_iff_count]
  intro job
  have hcount := countP_decided hm ht hcancelled halive (· == job)
  rw [hnothing, List.countP_nil, Nat.add_zero] at hcount
  exact hcount

/-- A cancelled run that ended well has recorded every result that a worker had come to. -/
theorem mem_records_of_outgoing {r : Result} {c : Completion}
    (hm : Trace (lateStep p) (.initial p cancelled b l) ts m) (ht : Trace (lateStep p) m us s)
    (hcancelled : m.cancelled = true) (halive : ¬ s.Crashed) (hr : s.outcome? p = some (.ok r))
    (hc : c ∈ deliveries ts ++ m.outgoing) : c ∈ records (ts ++ us) := by
  have hsettled := settled_of_outcome? (hm.append ht) hr
  obtain ⟨hfinished, hnone, -⟩ := eq_of_outcome? hr
  have hended := ((orderly_of_trace (hm.append ht)).settled hfinished hnone).2.1
  have hnothing : s.outgoing = [] := by
    apply filterMap_workers_eq_nil hended
    intro w hw
    cases w <;> first | rfl | cases hw
  rw [← hsettled.results_eq, deliveries, List.filterMap_append, ← deliveries, ← deliveries,
    List.mem_append]
  rcases List.mem_append.1 hc with hdelivered | houtgoing
  · exact .inl hdelivered
  · classical
    have hcount := countP_outgoing_le hm ht hcancelled halive (decide <| · = c)
    rw [hnothing, List.countP_nil, Nat.add_zero] at hcount
    have hpos : 0 < m.outgoing.countP (decide <| · = c) :=
      List.countP_pos_iff.2 ⟨c, houtgoing, by simp⟩
    obtain ⟨c', hmem, heq⟩ := List.countP_pos_iff.1 (Nat.lt_of_lt_of_le hpos hcount)
    obtain rfl : c' = c := by simpa using heq
    exact .inr hmem

/-- A worker has at most one job, and either it has an outcome or it has none. -/
theorem Worker.job?_of_decided? {job : Job} (h : w.decided? = some job) :
    w.job? = some job ∧ w.underway? = none := by
  cases w with
  | running job since execution =>
      unfold Worker.decided? at h
      unfold Worker.underway?
      cases hphase : execution.phase with
      | done outcome =>
          simp only [hphase] at h ⊢
          split at h
          · cases h
          · cases h
            exact ⟨rfl, trivial⟩
          · cases h
      | _ => simp [hphase] at h
  | sending completion =>
      cases h
      exact ⟨rfl, rfl⟩
  | _ => cases h

theorem Worker.job?_of_underway? {job : Job} (h : w.underway? = some job) : w.job? = some job := by
  cases w with
  | running job since execution =>
      simp only [Worker.underway?] at h
      split at h <;> cases h <;> rfl
  | _ => cases h

/-- No job whose call or wait was under way at the cancellation is recorded. -/
theorem underway_not_recorded {r : Result} {job : Job}
    (hm : Trace (lateStep p) (.initial p cancelled b l) ts m) (ht : Trace (lateStep p) m us s)
    (hcancelled : m.cancelled = true) (halive : ¬ s.Crashed) (hr : s.outcome? p = some (.ok r))
    (hjob : job ∈ m.underway) : job.id ∉ (records (ts ++ us)).map fun c => c.job.id := by
  obtain ⟨w, hmem, hunderway⟩ := List.mem_filterMap.1 hjob
  obtain ⟨i, hw⟩ := Array.getElem?_of_mem (Array.mem_toList_iff.1 hmem)
  have hholds := Worker.job?_of_underway? hunderway
  intro hrecorded
  have hperm := (records_perm_decided hm ht hcancelled halive hr).map Job.id
  rw [List.map_map] at hperm
  have hplaced := hperm.mem_iff.1 hrecorded
  rw [List.map_append, List.mem_append] at hplaced
  rcases hplaced with hdelivered | hdecided
  · obtain ⟨c, hc, hid⟩ := List.mem_map.1 (List.map_map ▸ hdelivered)
    exact holder_ne_delivered hm hw hholds hc hid
  · -- Another worker has decided it, and this one holds it.
    obtain ⟨job', hmem', hid⟩ := List.mem_map.1 hdecided
    obtain ⟨w', hmem', hdecided'⟩ := List.mem_filterMap.1 hmem'
    obtain ⟨j, hw'⟩ := Array.getElem?_of_mem (Array.mem_toList_iff.1 hmem')
    obtain ⟨hholds', hover⟩ := Worker.job?_of_decided? hdecided'
    obtain rfl := holder_unique hm hw' hw hholds' hholds hid
    cases hw.symm.trans hw'
    rw [hover] at hunderway
    cases hunderway

/-! ## The end of a cancelled run -/

/-- A cancelled run does not wait for time to pass. -/
theorem timeless_of_cancelled (hcancelled : s.cancelled = true)
    (hquiet : ∀ actor, stepActor p s actor = none) (wake : Nat) : wake ∉ s.wakes p := by
  intro hwake
  rw [State.wakes, List.mem_append] at hwake
  rcases hwake with hgenerator | hworker
  · rcases generator_waits (hquiet .generator) with hended | ⟨hrun, -⟩
    · rw [generatorWakes_of_ended hended] at hgenerator
      cases hgenerator
    · rw [hrun] at hcancelled
      cases hcancelled
  · obtain ⟨w, hmem, hw⟩ := List.mem_filterMap.1 hworker
    obtain ⟨i, hi⟩ := Array.getElem?_of_mem (Array.mem_toList_iff.1 hmem)
    have hnone := hquiet (.worker i)
    cases w with
    | running job since execution =>
        simp only [stepActor, stepWorker, hi, stepExecution] at hnone
        split at hnone
        · cases hnone
        · cases hnone
        · rename_i hdone hcrashed
          rcases Retry.Execution.waits_of_step_eq_none (Option.map_eq_none_iff.1 hnone) with
            ⟨outcome, hphase⟩ | ⟨cause, hphase⟩ | ⟨hrun, -⟩
          · exact hdone outcome hphase
          · exact hcrashed cause hphase
          · rw [hrun] at hcancelled
            cases hcancelled
    | _ => cases hw

/-- As long as a cancelled run has not finished, a task has a step. -/
theorem act_of_cancelled (ht : Trace (lateStep p) (.initial p cancelled b l) ts s)
    (hcancelled : s.cancelled = true) (hunfinished : s.supervisor ≠ .finished) :
    ∃ actor s', step p s (.act actor) = some s' := by
  rcases progress_of_trace ht hunfinished with (hact | ⟨wake, hwake, s', hwait⟩) | ⟨-, hrun, -⟩
  · exact hact
  · exact absurd hwake (timeless_of_cancelled hcancelled (wait_inv hwait).2.2.1 wake)
  · rw [hrun] at hcancelled
    cases hcancelled

/-- In a run of prompt tasks no time passes between the cancellation and the end: all that is left are
steps of tasks. -/
theorem ends_of_cancelled (hm : Trace (step p) (.initial p cancelled b l) ts m)
    (ht : Trace (step p) m us s) (hcaller : m.callerCancelled = true)
    (hopen : ∀ x ∈ us, x.source.supervisor ≠ .finished) :
    s.callerCancelled = true ∧ s.now = m.now ∧ acts us = us.length := by
  induction ht with
  | nil => exact ⟨hcaller, rfl, rfl⟩
  | @snoc us s s' label hs hstep ih =>
      obtain ⟨hstill, hnow, hacts⟩ := ih fun x hx => hopen x (List.mem_append_left _ hx)
      have hunfinished : s.supervisor ≠ .finished :=
        hopen _ (List.mem_append_right _ (List.mem_singleton_self _))
      have hcancelled : s.cancelled = true := by rw [State.cancelled, hstill, Bool.true_or]
      have hmove := move_of_step (lateStep_of_step hstep)
      cases label with
      | act actor =>
          obtain ⟨hsame, hkept⟩ := hmove.act_frame
          refine ⟨hkept.trans hstill, hsame.trans hnow, ?_⟩
          rw [acts, List.countP_append, ← acts, hacts, List.length_append]
          rfl
      | wait instant =>
          obtain ⟨actor, s'', hact⟩ :=
            act_of_cancelled (late_of_prompt (hm.append hs)) hcancelled hunfinished
          cases ((wait_inv hstep).2.2.1 actor).symm.trans hact
      | cancel =>
          cases hmove with
          | cancel hrun => cases hrun.symm.trans hstill

/-! ## A cancelled run as a whole -/

/-- What becomes of a run that its caller has cancelled by the state `m`, to which the steps `ts` have
led: it makes the steps `us` up to the state `s`. -/
structure CutShort (p : Plan) (ts : History) (m : State) (us : History) (s : State) : Prop where
  /-- No job is put into the job queue. -/
  dispatched : ∀ x ∈ us, dispatched? x = none
  sent : s.sent = m.sent
  /-- No call starts. -/
  calls : s.calls = m.calls
  /-- No outcome reaches the breaker. -/
  answered : ∀ x ∈ us, answered? x = none
  breaker : s.breaker = m.breaker
  /-- In the end the run has recorded the jobs that had an outcome. -/
  recorded : s.supervisor = .finished → ((records (ts ++ us)).map Completion.job).Perm
    ((deliveries ts).map Completion.job ++ m.decided)
  /-- So a job whose call or wait was under way is not recorded. -/
  underway : s.supervisor = .finished →
    ∀ job ∈ m.underway, job.id ∉ (records (ts ++ us)).map fun c => c.job.id
  /-- The results that a worker had come to are recorded as they were. -/
  produced : s.supervisor = .finished →
    ∀ c ∈ deliveries ts ++ m.outgoing, c ∈ records (ts ++ us)

/-- What is left of a run that is cancelled at an instant: a few steps that take no time, and a good
end. -/
structure EndsAt (p : Plan) (instant : Nat) (us : History) (s : State) : Prop where
  now : s.now = instant
  steps : us.length ≤ p.total * (3 * p.policy.maxRetries + 15) + 2 * p.workers + 6
  goes_on : s.supervisor ≠ .finished → ∃ actor s', step p s (.act actor) = some s'
  ends_well : s.supervisor = .finished →
    ∃ r, s.outcome? p = some (.ok r) ∧ r.duration = instant - p.started

theorem ok_of_finished (ht : Trace (lateStep p) (.initial p cancelled b l) ts s)
    (halive : ¬ s.Crashed) (hfinished : s.supervisor = .finished) :
    s.outcome? p = some (.ok
      ⟨p.workers, s.dispatched, s.completed, s.succeeded, s.failed, s.now - p.started⟩) :=
  outcome?_of_finished hfinished ((orderly_of_trace ht).failure_eq_none halive)

theorem cutShort_of_trace (hm : Trace (lateStep p) (.initial p cancelled b l) ts m)
    (ht : Trace (lateStep p) m us s) (hcancelled : m.cancelled = true) (halive : ¬ s.Crashed) :
    CutShort p ts m us s := by
  obtain ⟨-, hhalts, hsent, hcalls, hbreaker⟩ := halts_of_trace ht hcancelled
  have hok := ok_of_finished (hm.append ht) halive
  refine ⟨?_, hsent, hcalls, ?_, hbreaker, ?_, ?_, ?_⟩
  · intro x hx
    exact (hhalts x hx).dispatched
  · intro x hx
    exact (hhalts x hx).answered
  · intro hfinished
    exact records_perm_decided hm ht hcancelled halive (hok hfinished)
  · intro hfinished job hjob
    exact underway_not_recorded hm ht hcancelled halive (hok hfinished) hjob
  · intro hfinished c hc
    exact mem_records_of_outgoing hm ht hcancelled halive (hok hfinished) hc

theorem endsAt_of_trace (hm : Trace (step p) (.initial p cancelled b l) ts m)
    (ht : Trace (step p) m us s) (hcaller : m.callerCancelled = true) (halive : ¬ s.Crashed)
    (hopen : ∀ x ∈ us, x.source.supervisor ≠ .finished) : EndsAt p m.now us s := by
  obtain ⟨hstill, hnow, hacts⟩ := ends_of_cancelled hm ht hcaller hopen
  have hall := late_of_prompt (hm.append ht)
  refine ⟨hnow, ?_, ?_, ?_⟩
  · have hbound := acts_le hall
    rw [acts, List.countP_append, ← acts, ← acts, hacts] at hbound
    omega
  · intro hunfinished
    apply act_of_cancelled hall
    · rw [State.cancelled, hstill, Bool.true_or]
    · exact hunfinished
  · intro hfinished
    refine ⟨_, ok_of_finished hall halive hfinished, ?_⟩
    show s.now - p.started = m.now - p.started
    rw [hnow]

/-- A run that begins cancelled makes no job and no call. -/
theorem idle_of_cancelled {r : Result} (ht : Trace (lateStep p) (.initial p true b l) ts s)
    (hr : s.outcome? p = some (.ok r)) : s.calls = [] ∧ r.dispatched = 0 ∧ r.completed = 0 := by
  obtain ⟨-, -, hsent, hcalls, -⟩ := halts_of_trace ht rfl
  obtain ⟨-, hle, -⟩ := accounts_of_outcome? ht hr
  have hnothing := (settled_of_outcome? ht hr).sent_eq.symm.trans hsent
  obtain ⟨-, -, rfl⟩ := eq_of_outcome? hr
  refine ⟨hcalls, hnothing, ?_⟩
  exact Nat.le_zero.1 (Nat.le_trans hle (Nat.le_of_eq hnothing))

end Run
end LoadGen
