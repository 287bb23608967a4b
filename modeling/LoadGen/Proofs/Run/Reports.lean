import LoadGen.Proofs.Decimal.Whole
import LoadGen.Proofs.Measure.Agreement
import LoadGen.Proofs.Retry.LastCall
import LoadGen.Proofs.Run.Recording
import LoadGen.Proofs.Run.Whereabouts
import Mathlib.Algebra.BigOperators.Ring.Finset

/-!
# What a run reports of its jobs

A run keeps a record of every call.  The calls of one job are made by the one worker that holds it, so
they are the calls of one execution, and the result that the worker hands over tells of the last one.
What other workers do in the meantime shows only in a refusal by the breaker.

* `Kind.Spelled`, `Severity.Spelled`, `Circuit.State.Spelled` — the words in the result of a job.
* `State.callsFor` — the calls that were made for a job.
* `OperationResult.TellsOf`, `Plan.Reports` — what the result of a job has to say.
* `Worker.Keeps`, `Accounted` — what the workers keep up, and with it the run.
* `reports_of_trace` — the result of every job that was handed over says what it has to.
* `sum_attempts_of_trace` — the calls that the results tell of are all calls of a complete run.
* `numbers?_attempts_of_trace` — the ledger counts a number of calls for every result.
-/

namespace LoadGen

namespace Fault

/-- How a kind of failure is spelled in the result of a job. -/
inductive Kind.Spelled : Kind → String → Prop
  | timeout : Spelled .timeout "timeout"
  | connection : Spelled .connection "connection"
  | network : Spelled .network "network"
  | authentication : Spelled .authentication "authentication"
  | rateLimit : Spelled .rateLimit "rate_limit"
  | temporary : Spelled .temporary "temporary"
  | permanent : Spelled .permanent "permanent"
  | unknown : Spelled .unknown "unknown"

/-- How the severity of a failure is spelled in the result of a job. -/
inductive Severity.Spelled : Severity → String → Prop
  | low : Spelled .low "low"
  | medium : Spelled .medium "medium"
  | high : Spelled .high "high"
  | critical : Spelled .critical "critical"

@[simp] theorem Kind.spelled_name (kind : Kind) : kind.Spelled kind.name := by
  cases kind <;> constructor

@[simp] theorem Severity.spelled_name (severity : Severity) : severity.Spelled severity.name := by
  cases severity <;> constructor

end Fault

/-- How the state of the circuit is spelled in the result of a job. -/
inductive Circuit.State.Spelled : Circuit.State → String → Prop
  | closed : Spelled .closed "closed"
  | opened : Spelled .opened "open"
  | halfOpen : Spelled .halfOpen "half_open"

theorem Circuit.State.spelled_name (state : Circuit.State) : state.Spelled state.name := by
  cases state <;> constructor

/-- The result of a job that the backend did not complete tells of a number of calls and of the
failure of the last one, if there was any. -/
structure OperationResult.TellsOf (r : OperationResult) (job : Job) (attempts : Nat)
    (last : Option Retry.Failure) : Prop where
  success : r.success = false
  isRead : r.isRead = job.operation.isRead
  error : r.error = some (last.elim "circuit breaker is open" fun failure => failure.chain.text)
  circuitState : ∃ (state : Circuit.State) (text : String), state.Spelled text ∧
    r.metadata.get? .circuitState = some (.text text)
  attempts : r.metadata.get? .attempts = some (.int attempts)
  errorType : last.Rel
    (fun failure value => ∃ text, failure.info.kind.Spelled text ∧ value = .text text)
    (r.metadata.get? .errorType)
  errorSeverity : last.Rel
    (fun failure value => ∃ text, failure.info.severity.Spelled text ∧ value = .text text)
    (r.metadata.get? .errorSeverity)
  retryable : r.metadata.get? .retryable = last.map fun failure => .bool failure.info.retryable
  recoverable : r.metadata.get? .recoverable =
    last.map fun failure => .bool failure.info.recoverable

/-- The number of calls that a result tells of. -/
def OperationResult.attempts (r : OperationResult) : Int :=
  match r.metadata.get? .attempts with
  | some (.int n) => n
  | _ => 0

/-- The numbers of times that members of a list are seen add up. -/
theorem sum_map_count {ids xs : List Nat} (hnodup : ids.Nodup) (h : ∀ x ∈ xs, x ∈ ids) :
    (ids.map fun i => xs.count i).sum = xs.length := by
  have hcard := Multiset.sum_count_eq_card (s := ids.toFinset) (m := (xs : Multiset Nat))
    (by simpa using h)
  simp only [Multiset.coe_count, Multiset.coe_card] at hcard
  rw [← List.sum_toFinset _ hnodup, hcard]

namespace Run

open Retry (Execution ExecuteError)

variable {p : Plan} {cancelled : Bool} {b : Circuit.Breaker} {l : Ledger} {ts : History}
  {s s' : State} {label : Label} {i : Nat} {w : Worker} {id : Nat}

/-! ## The result of a job -/

/-- The calls that were made for the job with the given number, first to last. -/
def State.callsFor (s : State) (id : Nat) : List CallRecord :=
  (s.calls.filter fun call => decide (call.job.id = id)).reverse

/-- What the result of a job has to say when the given calls were made for it: the last one decides. -/
def Plan.Tells (p : Plan) (job : Job) (calls : List CallRecord) (r : OperationResult) : Prop :=
  match calls.getLast? with
  | none => r.TellsOf job 0 none
  | some call =>
    match (p.call job call.attempt call.elapsed).answer with
    | .value answered => r = answered.withMeta .attempts (.int calls.length)
    | .fault chain => r.TellsOf job calls.length (some ⟨chain, p.classifier.classify chain⟩)
    | .crash _ => False

/-- The result of a job for which the given calls were made, numbered from zero, says what it has
to. -/
structure Plan.Reports (p : Plan) (calls : List CallRecord) (c : Completion) : Prop where
  jobs : ∀ call ∈ calls, call.job = c.job
  numbers : calls.map CallRecord.attempt = List.range calls.length
  few : calls.length ≤ p.policy.maxRetries + 1
  tells : p.Tells c.job calls c.result

/-- What an error is reported as. -/
theorem tellsOf_failedResult (duration : Nat) (circuit : Circuit.State) (job : Job)
    (error : ExecuteError)
    (hrefused : error.failure? = none → error.message = "circuit breaker is open") :
    (failedResult duration job.operation.isRead circuit error).TellsOf job error.attempts
      error.failure? := by
  have hcircuit : ∃ state : Circuit.State, state.Spelled circuit.name :=
    ⟨circuit, circuit.spelled_name⟩
  unfold failedResult failureText
  cases hfailure : error.failure? with
  | none =>
      constructor <;>
        simp [OperationResult.withMeta, OperationResult.failed, Assoc.get?_insert, hrefused hfailure,
          hcircuit]
  | some failure =>
      constructor <;>
        simp [OperationResult.withMeta, OperationResult.failed, Assoc.get?_insert, hcircuit]

/-! ## The calls of a worker -/

theorem mem_callsFor {call : CallRecord} :
    call ∈ s.callsFor id ↔ call ∈ s.calls ∧ call.job.id = id := by
  simp [State.callsFor]

/-- Only the worker that holds a job makes calls for it. -/
theorem WorkerMove.callsFor_eq (h : WorkerMove p s i w s')
    (hother : ∀ job, w.job? = some job → job.id ≠ id) : s'.callsFor id = s.callsFor id := by
  cases h with
  | @advance job since e move hmove =>
      have hne := hother job rfl
      simp only [State.callsFor]
      split
      · rw [List.filter_cons_of_neg (by simpa using hne)]
      · rfl
  | _ => rfl

theorem WorkerMove.mem_calls (h : WorkerMove p s i w s') {call : CallRecord}
    (hcall : call ∈ s'.calls) : call ∈ s.calls ∨ w.job? = some call.job := by
  cases h with
  | @advance job since e move hmove =>
      simp only at hcall
      split at hcall
      · rcases List.mem_cons.1 hcall with rfl | hold
        · exact .inr rfl
        · exact .inl hold
      · exact .inl hcall
  | _ => exact .inl hcall

/-- The records of some calls for a job are those of the calls that an execution has started. -/
structure Plan.Logs (p : Plan) (job : Job) (us : Execution.History OperationResult)
    (calls : List CallRecord) : Prop where
  jobs : ∀ call ∈ calls, call.job = job
  starts : calls.map (fun call => (call.attempt, call.elapsed)) =
    (Execution.starts us).map fun start => (start.1, start.2 - p.started)

namespace Plan.Logs

variable {job : Job} {us : Execution.History OperationResult} {calls : List CallRecord}
  {e : Execution OperationResult}

theorem length_eq (h : p.Logs job us calls) : calls.length = (Execution.starts us).length := by
  have hlength := congrArg List.length h.starts
  rwa [List.length_map, List.length_map] at hlength

/-- The calls are numbered from zero, and there are no more of them than the policy allows. -/
theorem numbers (h : p.Logs job us calls) (ht : Trace (Execution.stepAt (p.setting job)) {} us e) :
    calls.map CallRecord.attempt = List.range calls.length ∧
      calls.length ≤ p.policy.maxRetries + 1 := by
  obtain ⟨k, hfollows, hstarts, -⟩ := Execution.follows_of_trace ht
  have hk := congrArg List.length hstarts
  rw [List.length_map, List.length_range, ← h.length_eq] at hk
  have hfst := congrArg (List.map Prod.fst) h.starts
  rw [List.map_map, List.map_map] at hfst
  rw [hk]
  exact ⟨hfst.trans hstarts, hfollows.earlier.1⟩

/-- The last call was scripted to answer as the record of it tells. -/
theorem getLast? (h : p.Logs job us calls) {n now : Nat}
    (hlast : (Execution.starts us).getLast? = some (n, now)) :
    ∃ call, calls.getLast? = some call ∧
      p.call job call.attempt call.elapsed = (p.setting job).call n now := by
  have hboth := congrArg List.getLast? h.starts
  rw [List.getLast?_map, List.getLast?_map, hlast] at hboth
  obtain ⟨call, hcall, hsame⟩ := Option.map_eq_some_iff.1 hboth
  obtain ⟨hattempt, helapsed⟩ := Prod.mk.injEq .. ▸ hsame
  refine ⟨call, hcall, ?_⟩
  rw [hattempt, helapsed]
  rfl

end Plan.Logs

/-- A cancelled job is dropped, and any other one is reported. -/
theorem concludeJob_of_ne_cancelled {job : Job} {since : Nat} {error : ExecuteError}
    (hrun : error ≠ .cancelled) : concludeJob s job since (.error error) =
      .sending ⟨job, failedResult (s.now - since) job.operation.isRead s.breaker.state error⟩ := by
  cases error with
  | cancelled => exact absurd rfl hrun
  | circuitOpen | failed => rfl

/-- What a worker keeps up: the calls for the job that it executes are those of the execution, and the
result that it has to hand over says what it has to. -/
def Worker.Keeps (p : Plan) (s : State) : Worker → Prop
  | .running job _ e =>
    ∃ us, Trace (Execution.stepAt (p.setting job)) {} us e ∧ p.Logs job us (s.callsFor job.id)
  | .sending c => p.Reports (s.callsFor c.job.id) c
  | _ => True

theorem Worker.Keeps.congr (h : w.Keeps p s)
    (hcalls : ∀ job, w.job? = some job → s'.callsFor job.id = s.callsFor job.id) : w.Keeps p s' := by
  cases w with
  | running job since e =>
      simp only [Worker.Keeps, hcalls job rfl]
      exact h
  | sending c =>
      simp only [Worker.Keeps, hcalls c.job rfl]
      exact h
  | asking | waiting | counting | exited | crashed => trivial

/-- The result of a job tells of the last call that its execution has made. -/
theorem Worker.Keeps.conclude {job : Job} {since : Nat} {e : Execution OperationResult}
    {outcome : Except ExecuteError (OperationResult × Nat)} (hphase : e.phase = .done outcome)
    (h : (Worker.running job since e).Keeps p s) : (concludeJob s job since outcome).Keeps p s := by
  obtain ⟨us, ht, hlogs⟩ := h
  obtain ⟨hnumbers, hfew⟩ := hlogs.numbers ht
  by_cases hrun : outcome = .error .cancelled
  · subst hrun
    trivial
  cases Execution.concludes_of_trace ht hphase hrun with
  | refused hnone =>
      have hnil : s.callsFor job.id = [] :=
        List.length_eq_zero_iff.1 (by rw [hlogs.length_eq, hnone]; rfl)
      refine ⟨hlogs.jobs, hnumbers, hfew, ?_⟩
      rw [Plan.Tells, hnil]
      exact tellsOf_failedResult _ _ job (.circuitOpen .opened 0 none) fun _ => by decide
  | value hstart hanswer =>
      obtain ⟨call, hcall, hscript⟩ := hlogs.getLast? hstart
      refine ⟨hlogs.jobs, hnumbers, hfew, ?_⟩
      simp only [Plan.Tells, hcall, hscript, hanswer, hlogs.length_eq]
  | @fault n now chain error hstart hanswer hfailure hattempts =>
      obtain ⟨call, hcall, hscript⟩ := hlogs.getLast? hstart
      have hreported := tellsOf_failedResult (s.now - since) s.breaker.state job error fun hnone => by
        rw [hfailure] at hnone
        cases hnone
      rw [hattempts, hfailure, ← hlogs.length_eq] at hreported
      rw [concludeJob_of_ne_cancelled fun hcancelled => hrun (congrArg _ hcancelled)]
      refine ⟨hlogs.jobs, hnumbers, hfew, ?_⟩
      simp only [Plan.Tells, hcall, hscript, hanswer]
      exact hreported

/-- A move of an execution makes the next call or none, and the record of it is kept. -/
theorem Worker.Keeps.advance {job : Job} {since : Nat} {e : Execution OperationResult}
    {move : Retry.Move OperationResult}
    (hmove : e.step (p.setting job) s.now s.cancelled s.breaker = some move)
    (h : (Worker.running job since e).Keeps p s)
    (hcalls : s'.calls = if move.execution.isCalling then
      ⟨s.now - p.started, job, e.attempts⟩ :: s.calls else s.calls) :
    (Worker.running job since move.execution).Keeps p s' := by
  obtain ⟨us, ht, hlogs⟩ := h
  have hstep : Execution.stepAt (p.setting job) e ⟨s.now, s.cancelled, s.breaker⟩ =
      some move.execution := by
    rw [Execution.stepAt, hmove]
    rfl
  -- No move leads from one call into the next, so a call that is recorded has just started.
  have hidle : move.execution.isCalling = true → e.isCalling = false :=
    (Execution.makes_of_step hmove).isCalling_eq
  refine ⟨_, ht.snoc hstep, ?_⟩
  rw [State.callsFor, hcalls]
  cases hcalling : move.execution.isCalling with
  | false =>
      have hnone : Execution.started? ⟨e, ⟨s.now, s.cancelled, s.breaker⟩, move.execution⟩ = none := by
        simp [Execution.started?, hcalling]
      refine ⟨hlogs.jobs, ?_⟩
      rw [Execution.starts, filterMap_snoc, hnone, Option.toList_none, List.append_nil]
      exact hlogs.starts
  | true =>
      have hsome : Execution.started? ⟨e, ⟨s.now, s.cancelled, s.breaker⟩, move.execution⟩ =
          some (e.attempts, s.now) := by
        simp [Execution.started?, hcalling, hidle hcalling]
      rw [if_pos rfl, List.filter_cons_of_pos (by simp), List.reverse_cons]
      refine ⟨?_, ?_⟩
      · intro call hcall
        rcases List.mem_append.1 hcall with hold | hnew
        · exact hlogs.jobs call hold
        · rw [List.mem_singleton.1 hnew]
      · rw [Execution.starts, filterMap_snoc, hsome, List.map_append, List.map_append]
        exact congrArg (· ++ [(e.attempts, s.now - p.started)]) hlogs.starts

/-! ## The whole run -/

/-- What the workers keep up, and with it the run. -/
structure Accounted (p : Plan) (ts : History) (s : State) : Prop where
  taken : ∀ call ∈ s.calls, call.job ∈ (takes ts).map Prod.snd
  workers : ∀ (i : Nat) (w : Worker), s.workers[i]? = some w → w.Keeps p s
  delivered : ∀ c ∈ deliveries ts, p.Reports (s.callsFor c.job.id) c

namespace Accounted

theorem initial (cancelled : Bool) (b : Circuit.Breaker) (l : Ledger) :
    Accounted p [] (.initial p cancelled b l) where
  taken := fun _ hcall => absurd hcall List.not_mem_nil
  workers := by
    intro i w hw
    obtain ⟨hi, hasking⟩ := Array.getElem?_eq_some_iff.1 hw
    rw [show w = .asking by simpa [State.initial] using hasking.symm]
    trivial
  delivered := fun _ hc => absurd hc List.not_mem_nil

/-- A job that is still in the queue has had no call. -/
theorem callsFor_eq_nil (h : Accounted p ts s)
    (ht : Trace (lateStep p) (.initial p cancelled b l) ts s) {job : Job} (hjob : job ∈ s.jobs) :
    s.callsFor job.id = [] := by
  -- A call is made for a job that was taken, and no such job is in the queue any more.
  have hnodup := (whereabouts_of_trace ht).2
  rw [dispatches_eq_takes ht, List.map_append] at hnodup
  rw [List.eq_nil_iff_forall_not_mem]
  intro call hcall
  obtain ⟨hmade, hid⟩ := mem_callsFor.1 hcall
  exact (List.nodup_append.1 hnodup).2.2 _ (List.mem_map_of_mem (h.taken call hmade)) _
    (List.mem_map_of_mem hjob) hid

/-- What the step of a worker leaves the worker itself to keep up. -/
theorem keeps_self (h : Accounted p ts s)
    (ht : Trace (lateStep p) (.initial p cancelled b l) ts s) (hw : s.workers[i]? = some w)
    (hmove : WorkerMove p s i w s') {w' : Worker} (hw' : s'.workers[i]? = some w') :
    w'.Keeps p s' := by
  have hself := getElem?_setWorker_self hw
  have hkeeps := h.workers i w hw
  cases hmove with
  | @take job rest _ _ hjobs =>
      cases (hself _).symm.trans hw'
      have hnone : s.callsFor job.id = [] := h.callsFor_eq_nil ht (by simp [hjobs])
      refine ⟨[], .nil, ?_⟩
      show p.Logs job [] (s.callsFor job.id)
      rw [hnone]
      exact ⟨fun _ hcall => absurd hcall List.not_mem_nil, rfl⟩
  | conclude hphase =>
      cases (hself _).symm.trans hw'
      exact (hkeeps.conclude hphase).congr fun _ _ => rfl
  | advance hmove =>
      cases (hself _).symm.trans hw'
      exact hkeeps.advance hmove rfl
  | leave | queueUp | giveUp | retire | fall | abandon | deliver | count =>
      cases (hself _).symm.trans hw'
      trivial

/-- The step of a worker: it holds its job alone, so what the others keep up stays as it is. -/
theorem worker (h : Accounted p ts s) (ht : Trace (lateStep p) (.initial p cancelled b l) ts s)
    (hw : s.workers[i]? = some w) (hmove : WorkerMove p s i w s') :
    Accounted p (ts ++ [⟨s, .act (.worker i), s'⟩]) s' := by
  refine ⟨?_, ?_, ?_⟩
  · intro call hcall
    rw [takes, filterMap_snoc, List.map_append]
    apply List.mem_append_left
    rcases hmove.mem_calls hcall with hold | hjob
    · exact h.taken call hold
    · exact (takes_perm ht).mem_iff.2 (List.mem_append_right _ (mem_held_of_workers hw hjob))
  · intro j w' hw'
    by_cases hij : i = j
    · subst hij
      exact h.keeps_self ht hw hmove hw'
    · obtain ⟨⟨w₁, hworkers⟩, -⟩ := hmove.frame
      rw [hworkers, getElem?_setWorker_ne hij] at hw'
      exact (h.workers j w' hw').congr fun job hjob => hmove.callsFor_eq fun job' hjob' hid =>
        hij (holder_unique ht hw hw' hjob' hjob hid)
  · intro c hc
    rw [deliveries, filterMap_snoc] at hc
    rcases List.mem_append.1 hc with hold | hnew
    · rw [hmove.callsFor_eq fun job hjob hid => holder_ne_delivered ht hw hjob hold hid.symm]
      exact h.delivered c hold
    · have hsending := sending_of_delivered? (Option.mem_toList.1 hnew)
      have hkeeps := h.workers i _ hsending
      cases hw.symm.trans hsending
      -- Handing a result over makes no call.
      cases hmove with
      | abandon | deliver => exact hkeeps

theorem move (h : Accounted p ts s) (ht : Trace (lateStep p) (.initial p cancelled b l) ts s)
    (hmove : Move p s label s') : Accounted p (ts ++ [⟨s, label, s'⟩]) s' := by
  by_cases hlabel : ∃ i, label = .act (.worker i)
  · obtain ⟨i, rfl⟩ := hlabel
    cases hmove with
    | worker hw hmove => exact h.worker ht hw hmove
  · have hothers (i : Nat) : label ≠ .act (.worker i) := fun hi => hlabel ⟨i, hi⟩
    obtain ⟨htaken, hdelivered, -⟩ := quiet_of_label s s' hothers
    have hcalls : s'.calls = s.calls := by
      cases hmove with
      | worker => exact absurd rfl (hothers _)
      | generator hmove | collector hmove | supervisor hmove => rw [hmove.frame]
      | wait | cancel => rfl
    have hfor (id : Nat) : s'.callsFor id = s.callsFor id := by
      rw [State.callsFor, State.callsFor, hcalls]
    refine ⟨?_, ?_, ?_⟩
    · intro call hcall
      rw [takes, filterMap_snoc, htaken, Option.toList_none, List.append_nil]
      exact h.taken call (hcalls ▸ hcall)
    · intro j w hw
      rw [hmove.workers_eq hothers] at hw
      exact (h.workers j w hw).congr fun job _ => hfor job.id
    · intro c hc
      rw [deliveries, filterMap_snoc, hdelivered, Option.toList_none, List.append_nil] at hc
      rw [hfor]
      exact h.delivered c hc

end Accounted

theorem accounted_of_trace (ht : Trace (lateStep p) (.initial p cancelled b l) ts s) :
    Accounted p ts s := by
  induction ht with
  | nil => exact .initial cancelled b l
  | snoc hs hstep ih => exact ih.move hs (move_of_step hstep)

/-- Every result that was handed over tells of the last call that was made for its job. -/
theorem reports_of_trace (ht : Trace (lateStep p) (.initial p cancelled b l) ts s) :
    ∀ c ∈ deliveries ts, p.Reports (s.callsFor c.job.id) c :=
  (accounted_of_trace ht).delivered

/-! ## All results together -/

/-- Every result that was handed over tells of the number of calls that were made for its job. -/
theorem Plan.Reports.get?_attempts {calls : List CallRecord} {c : Completion}
    (h : p.Reports calls c) : c.result.metadata.get? .attempts = some (.int calls.length) := by
  have htells := h.tells
  unfold Plan.Tells at htells
  split at htells
  · rename_i hnone
    rw [List.getLast?_eq_none_iff.1 hnone]
    exact htells.attempts
  · split at htells
    · rw [htells]
      exact (Assoc.get?_insert _ _ _ _).trans (if_pos rfl)
    · exact htells.attempts
    · exact htells.elim

theorem length_callsFor (s : State) (id : Nat) :
    (s.callsFor id).length = (s.calls.map fun call => call.job.id).count id := by
  rw [State.callsFor, List.length_reverse, List.count_eq_countP, List.countP_map,
    List.countP_eq_length_filter]
  congr 1

/-- In a run that was not cancelled and lost no task, the results tell of all calls. -/
theorem sum_attempts_of_trace (ht : Trace (lateStep p) (.initial p cancelled b l) ts s)
    (hrun : s.cancelled = false) (halive : ¬ s.Crashed) (hfinished : s.supervisor = .finished) :
    ((records ts).map fun c => c.result.attempts).sum = s.calls.length := by
  obtain ⟨r, -, -, htaken, hrecorded, -⟩ := complete_of_trace ht hrun halive hfinished
  have hnodup : ((records ts).map fun c => c.job.id).Nodup :=
    hrecorded.nodup_iff.2 List.nodup_range
  -- Every call was made for a job that was taken, and each of these has a result of its own.
  have hall : ∀ id ∈ s.calls.map fun call => call.job.id,
      id ∈ (records ts).map fun c => c.job.id := by
    intro id hid
    obtain ⟨call, hcall, rfl⟩ := List.mem_map.1 hid
    obtain ⟨t, ht, hjob⟩ := List.mem_map.1 ((accounted_of_trace ht).taken call hcall)
    rw [hrecorded.mem_iff, ← htaken, ← hjob]
    exact List.mem_map_of_mem ht
  have hattempts : ∀ c ∈ records ts, c.result.attempts =
      ((s.calls.map fun call => call.job.id).count c.job.id : Nat) := by
    intro c hc
    have hdelivered := mem_deliveries_of_records ht hc
    rw [OperationResult.attempts, (reports_of_trace ht c hdelivered).get?_attempts, length_callsFor]
  have hsum := sum_map_count hnodup hall
  rw [List.map_map, List.length_map] at hsum
  rw [List.map_congr_left hattempts, ← hsum, Nat.cast_list_sum, List.map_map]
  rfl

/-- While the collector lives, the ledger has counted a number of calls for every result. -/
theorem numbers?_attempts_of_trace (ht : Trace (lateStep p) (.initial p cancelled b l) ts s)
    (hpolicy : p.policy.maxRetries < 2 ^ 32) (halive : s.collector ≠ .crashed) (now : Nat) :
    (s.ledger.view now).numbers? .attempts = Tally.entry (s.ledger.view now).total := by
  have hholds := holds_of_trace ht halive
  have htotal : (s.ledger.view now).total = (records ts).length := by
    show s.ledger.counts.total = _
    rw [counts_eq_tally ht, Counts.total_tally, List.length_map]
  rw [Ledger.numbers?_view_of_holds hholds, map_snd_recordings, htotal, List.filterMap_map,
    List.countP_filterMap]
  congr 1
  refine List.countP_eq_length.2 fun c hc => ?_
  have hreports := reports_of_trace ht c
    (mem_deliveries_of_records ht hc)
  have hsmall : (s.callsFor c.job.id).length < 2 ^ 53 := by
    have hfew := hreports.few
    omega
  have hnumber : (MetaValue.int (s.callsFor c.job.id).length).isNumber = true :=
    Decimal.isFinite_ofInt hsmall
  simp only [Function.comp_apply, hreports.get?_attempts, Option.map_some, Option.getD_some,
    hnumber]

end Run
end LoadGen
