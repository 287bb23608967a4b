import LoadGen.Proofs.Run.Circuit
import LoadGen.Proofs.Run.Handover
import LoadGen.Proofs.Run.Workload
import LoadGen.Proofs.Time.Timers

/-!
# Workers on course

While the circuit is closed and the run is not cancelled, every execution of a job makes the calls
that lead to the verdict of the job, at the instants at which they are made when the job has the
backend to itself.  Other workers neither hinder nor delay it.

* `Workload.Course` — an execution that is on its way to the verdict of its job; `Course.makes` says
  that every move keeps it there.
* `Worker.OnCourse` — the same for a worker, with the result that it has to hand over.
* `OnCourse.of_move`, `OnCourse.wait` — the steps of a worker and the passing of time.
-/

namespace LoadGen

namespace Run

open Retry (Execution ExecuteError)

variable {p : Plan} {w : Workload} {job : Job} {since now : Nat} {b : Circuit.Breaker}
  {e : Execution OperationResult} {move : Retry.Move OperationResult}

/-- An execution that was begun at `since` is on its way to the verdict of its job: the next call,
once it is made, is made at the right time after the first one. -/
def Workload.Course (w : Workload) (id since now : Nat) (e : Execution OperationResult) : Prop :=
  match e.phase with
  | .ready _ => w.Ahead id e.attempts (now - since)
  | .calling wake reply =>
    reply = w.reply id e.attempts ∧ ∃ elapsed, w.Ahead id e.attempts elapsed ∧
      wake = since + Nanos.wakeAt elapsed reply.latency
  | .waiting _ wake => since ≤ wake ∧ w.Ahead id e.attempts (wake - since)
  | .done outcome => w.outcome? id = some outcome ∧ (w.verdict id).elapsed = now - since
  | .crashed _ => True

/-! ## The settings of a job -/

theorem Plan.Serves.failure_eq (h : p.Serves w) (job : Job) (chain : Fault.Chain) :
    (p.setting job).failure chain = ⟨chain, w.classifier.classify chain⟩ := by
  rw [← h.classifier]
  rfl

/-- The execution of a job gives up when the workload does not ask for another call. -/
theorem Plan.Serves.givesUp_iff (h : p.Serves w) (job : Job) (n : Nat) (chain : Fault.Chain) :
    (p.setting job).givesUp (n + 1) ((p.setting job).failure chain).info = true ↔
      w.policy.maxRetries ≤ n ∨ w.retries chain = false := by
  have hretries : ¬ (p.setting job).retries chain ↔ w.retries chain = false := by
    rw [← Bool.not_eq_true, not_iff_not]
    simp [Retry.Setting.retries, Plan.setting, Workload.retries, h.policy, h.classifier]
  rw [Retry.Setting.givesUp_iff, hretries, ← h.policy]
  rfl

/-- Without a random share the wait before a call is the plain one. -/
theorem Plan.Serves.delay_eq (h : p.Serves w) (job : Job) (n : Nat) :
    (p.setting job).policy.delay n ((p.setting job).draw n) = .ok (w.policy.backoff n) := by
  have hpolicy : (p.setting job).policy = w.policy := h.policy
  rw [hpolicy]
  exact Retry.Policy.delay_of_jitter_eq_zero _ _ _ w.jitter_eq

/-! ## The moves of an execution -/

/-- The answer of a call takes an execution to its end or to the next call. -/
theorem Workload.Course.settle (hserves : p.Serves w) {elapsed : Nat}
    (hsince : Nanos.perMilli ∣ since) {reply : Retry.Reply OperationResult}
    (hreply : reply = w.reply job.id e.attempts) (hahead : w.Ahead job.id e.attempts elapsed)
    (hnow : now = since + Nanos.wakeAt elapsed reply.latency) :
    w.Course job.id since now (e.settle (p.setting job) now b reply).execution := by
  subst hreply
  have helapsed : now - since = Nanos.wakeAt elapsed (w.reply job.id e.attempts).latency := by omega
  cases hanswer : (w.reply job.id e.attempts).answer with
  | value r =>
      have hverdict := hahead.last (.inr fun chain hfault => by simp [hanswer] at hfault)
      simp only [Workload.Course, Execution.settle, hanswer]
      exact ⟨by simp [Workload.outcome?, hverdict, Workload.lastCall, hanswer],
        by rw [hverdict, helapsed]; rfl⟩
  | crash text =>
      simp only [Workload.Course, Execution.settle, hanswer]
  | fault chain =>
      have hattempts :
          (e.settle (p.setting job) now b (w.reply job.id e.attempts)).execution.attempts =
            e.attempts + 1 := by
        simp [Execution.settle, hanswer]
      have hgives := hserves.givesUp_iff job e.attempts chain
      rw [Workload.Course, Execution.phase_settle hanswer, hattempts, hserves.delay_eq job]
      cases hstops : (p.setting job).givesUp (e.attempts + 1)
          ((p.setting job).failure chain).info with
      | true =>
          have hverdict : w.verdict job.id = w.lastCall job.id e.attempts elapsed := by
            apply hahead.last
            refine (hgives.1 hstops).imp_right fun hnever chain' hfault => ?_
            rw [hanswer] at hfault
            cases hfault
            exact hnever
          rw [if_pos rfl]
          refine ⟨?_, by rw [hverdict, helapsed]; rfl⟩
          simp [Workload.outcome?, hverdict, Workload.lastCall, hanswer, hserves.failure_eq job]
      | false =>
          have hmore : ¬ (w.policy.maxRetries ≤ e.attempts ∨ w.retries chain = false) := by
            rw [← hgives, hstops]
            exact Bool.false_ne_true
          obtain ⟨hleft, hagain⟩ := not_or.1 hmore
          have hwake : Nanos.wakeAt now (w.policy.backoff e.attempts) = since + Nanos.wakeAt
              (Nanos.wakeAt elapsed (w.reply job.id e.attempts).latency)
              (w.policy.backoff e.attempts) := by
            rw [hnow, Nanos.wakeAt_add hsince]
          rw [if_neg Bool.false_ne_true]
          simp only [hwake, Nat.add_sub_cancel_left]
          exact ⟨Nat.le_add_right _ _,
            hahead.retry (Nat.lt_of_not_le hleft) hanswer (Bool.of_not_eq_false hagain)⟩

/-- Every move keeps an execution on its way: with the circuit closed no call is refused, and a
worker that does not oversleep goes on at the very instant for which it has waited. -/
theorem Workload.Course.makes (hserves : p.Serves w)
    (hoperation : w.operation job.id = some job.operation) (hsince : Nanos.perMilli ∣ since)
    (hbegun : since ≤ now) (hclosed : b.state = .closed)
    (hpunctual : ∀ wake, e.wake? = some wake → now ≤ wake) (h : w.Course job.id since now e)
    (hmakes : Execution.Makes (p.setting job) now false b e move) :
    w.Course job.id since now move.execution := by
  cases hmakes with
  | interrupt hcancelled => cases hcancelled
  | @start last hphase =>
      have hreply : (p.setting job).call e.attempts now = w.reply job.id e.attempts :=
        hserves.call job e.attempts _ hoperation
      rw [Workload.Course, hphase] at h
      refine ⟨hreply, now - since, h, ?_⟩
      rw [← Nanos.wakeAt_add hsince, Nat.add_sub_cancel' hbegun]
  | refuse _ _ hrefused =>
      rw [Retry.state_of_refused hrefused] at hclosed
      cases hclosed
  | @answer wake reply hphase _ hdue =>
      have hlate := hpunctual wake (by rw [Execution.wake?, hphase])
      rw [Workload.Course, hphase] at h
      obtain ⟨hreply, elapsed, hahead, hwake⟩ := h
      exact .settle hserves hsince hreply hahead (by omega)
  | @resume failure wake hphase _ hdue =>
      have hlate := hpunctual wake (by rw [Execution.wake?, hphase])
      obtain rfl : now = wake := Nat.le_antisymm hlate hdue
      rw [Workload.Course, hphase] at h
      exact h.2

/-! ## The workers -/

open Circuit.Breaker (failuresIn)

variable {s s' : State} {i : Nat} {worker worker' : Worker}

/-- A worker whose job comes to its verdict. -/
def Worker.OnCourse (w : Workload) (now : Nat) : Worker → Prop
  | .running job since e =>
    w.operation job.id = some job.operation ∧ since ≤ now ∧ Nanos.perMilli ∣ since ∧
      w.Course job.id since now e
  | .sending completion => w.result? completion.job.id = some completion.result
  | _ => True

/-- The failing calls that a worker has yet to make for its job. -/
def Worker.ahead (w : Workload) : Worker → Nat
  | .running job _ e => (w.verdict job.id).failures - e.attempts
  | _ => 0

/-- The failing calls that there are to make for the job that is taken in a step. -/
def Workload.assigned (w : Workload) (x : Transition State Label) : Nat :=
  ((taken? x).toList.map fun t => (w.verdict t.2.id).failures).sum

/-- The verdict of a job is what its worker hands over. -/
theorem onCourse_concludeJob {outcome : Except ExecuteError (OperationResult × Nat)}
    (hclosed : s.breaker.state = .closed) (hphase : e.phase = .done outcome)
    (h : (Worker.running job since e).OnCourse w s.now) :
    (concludeJob s job since outcome).OnCourse w s.now := by
  obtain ⟨hoperation, -, -, hcourse⟩ := h
  rw [Workload.Course, hphase] at hcourse
  obtain ⟨houtcome, helapsed⟩ := hcourse
  unfold concludeJob
  split
  · simp [Worker.OnCourse, Workload.result?, hoperation, houtcome]
  · trivial
  · simp [Worker.OnCourse, Workload.result?, hoperation, houtcome, helapsed, hclosed]

/-- Every step of a worker keeps it on course. -/
theorem Worker.OnCourse.of_move (hserves : p.Serves w) (haligned : Nanos.perMilli ∣ s.now)
    (hclosed : s.breaker.state = .closed) (hrun : s.cancelled = false)
    (hpunctual : ∀ wake, worker.wake? = some wake → s.now ≤ wake)
    (hjobs : ∀ job ∈ s.jobs, w.operation job.id = some job.operation)
    (hw : s.workers[i]? = some worker) (h : worker.OnCourse w s.now)
    (hmove : WorkerMove p s i worker s') (hw' : s'.workers[i]? = some worker') :
    worker'.OnCourse w s.now := by
  have hself := getElem?_setWorker_self hw
  cases hmove with
  | take _ _ hqueue =>
      cases (hself _).symm.trans hw'
      refine ⟨hjobs _ (by rw [hqueue]; exact List.mem_cons_self), Nat.le_refl _, haligned, ?_⟩
      have hstart := w.ahead_initial
      simpa [Workload.Course] using hstart _
  | conclude hphase =>
      cases (hself _).symm.trans hw'
      exact onCourse_concludeJob hclosed hphase h
  | @advance job since e move hmove =>
      cases (hself _).symm.trans hw'
      obtain ⟨hoperation, hbegun, hsince, hcourse⟩ := h
      rw [hrun] at hmove
      exact ⟨hoperation, hbegun, hsince, hcourse.makes hserves hoperation hsince hbegun hclosed
        hpunctual (Execution.makes_of_step hmove)⟩
  | leave | queueUp | giveUp | retire | fall | abandon | deliver | count =>
      cases (hself _).symm.trans hw'
      trivial

/-- The passing of time keeps a worker on course that waits for it or has no execution. -/
theorem Worker.OnCourse.wait (h : worker.OnCourse w now) {instant : Nat} (hlater : now ≤ instant)
    (hwaits : ∀ job since e, worker = .running job since e → ∃ wake, e.wake? = some wake) :
    worker.OnCourse w instant := by
  cases worker with
  | running job since e =>
      obtain ⟨hoperation, hbegun, hsince, hcourse⟩ := h
      refine ⟨hoperation, Nat.le_trans hbegun hlater, hsince, ?_⟩
      obtain ⟨wake, hwake⟩ := hwaits job since e rfl
      unfold Workload.Course at hcourse ⊢
      cases hphase : e.phase with
      | calling | waiting =>
          rw [hphase] at hcourse
          exact hcourse
      | ready | done | crashed => simp [Execution.wake?, hphase] at hwake
  | sending => exact h
  | asking | waiting | counting | exited | crashed => trivial

theorem ahead_concludeJob (outcome : Except ExecuteError (OperationResult × Nat)) :
    (concludeJob s job since outcome).ahead w = 0 := by
  unfold concludeJob
  split <;> rfl

theorem fault_of_returned? {cancelled : Bool} (h : e.returned? cancelled = some false) :
    ∃ wake reply chain, e.phase = .calling wake reply ∧ reply.answer = .fault chain := by
  unfold Execution.returned? at h
  split at h
  · rename_i wake reply hphase
    cases hanswer : reply.answer with
    | fault chain => exact ⟨wake, reply, chain, hphase, hanswer⟩
    | value | crash => simp [hanswer, Retry.Answer.ok?] at h
  · cases h

/-- A worker that makes a failing call has one less of them ahead, and all that it has ahead were
assigned to it with its job. -/
theorem Worker.OnCourse.spends (hw : s.workers[i]? = some worker) (h : worker.OnCourse w s.now)
    (hmove : WorkerMove p s i worker s') (hw' : s'.workers[i]? = some worker') :
    failuresIn (answered? ⟨s, .act (.worker i), s'⟩).toList + worker'.ahead w ≤
      worker.ahead w + w.assigned ⟨s, .act (.worker i), s'⟩ := by
  have hself := getElem?_setWorker_self hw
  cases hmove with
  | take =>
      cases (hself _).symm.trans hw'
      simp [answered?, taken?, hw, hself, Workload.assigned, Worker.ahead, failuresIn]
  | @advance job since e move hmove =>
      cases (hself _).symm.trans hw'
      have hattempts := (Execution.makes_of_step hmove).attempts_eq
      simp only [answered?, hw, Worker.ahead]
      cases hreturned : e.returned? s.cancelled with
      | none =>
          rw [hreturned, Option.toList_none, List.length_nil] at hattempts
          rw [hattempts]
          simp [failuresIn]
      | some ok =>
          rw [hreturned, Option.toList_some, List.length_singleton] at hattempts
          rw [hattempts]
          cases ok with
          | true =>
              have hnone : failuresIn [Circuit.Event.outcome s.now true] = 0 := rfl
              simp only [Option.map_some, Option.toList_some, hnone]
              omega
          | false =>
              have hone : failuresIn [Circuit.Event.outcome s.now false] = 1 := rfl
              simp only [Option.map_some, Option.toList_some, hone]
              -- The call that fails is among the failing calls of the job.
              obtain ⟨wake, reply, chain, hphase, hanswer⟩ := fault_of_returned? hreturned
              obtain ⟨-, -, -, hcourse⟩ := h
              rw [Workload.Course, hphase] at hcourse
              obtain ⟨rfl, elapsed, hahead, -⟩ := hcourse
              have hfailing : e.attempts < (w.verdictFrom job.id
                  (w.policy.maxRetries - e.attempts) e.attempts elapsed).failures :=
                Workload.lt_failures_verdictFrom hanswer
              rw [hahead.verdict_eq] at hfailing
              omega
  | conclude hphase =>
      cases (hself _).symm.trans hw'
      simp only [answered?, hw]
      rw [ahead_concludeJob, returned?_eq_none (by rw [Execution.isCalling, hphase])]
      exact Nat.zero_le _
  | fall hphase =>
      cases (hself _).symm.trans hw'
      simp only [answered?, hw]
      rw [returned?_eq_none (by rw [Execution.isCalling, hphase])]
      exact Nat.zero_le _
  | leave | queueUp | giveUp | retire | abandon | deliver | count =>
      cases (hself _).symm.trans hw'
      simp [answered?, hw, Worker.ahead, failuresIn]

end Run
end LoadGen
