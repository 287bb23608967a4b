import LoadGen.Proofs.Retry.Crowd
import LoadGen.Proofs.Retry.Standing

/-!
# The whole history of an execution

An execution is followed from its first move on.  Between two of its moves anything may happen: time
passes, others leave their outcomes on the breaker, somebody resets it, the execution is cancelled.
So every move finds a breaker, an instant and a cancellation flag of its own.

* `Execution.Moment`, `Execution.stepAt` — what a move finds, and the move.
* `starts`, `results` — the calls that a history starts, and what they return.
* `follows_of_trace`, `scripted_of_trace` — the calls come in the order of their numbers and return
  what their scripts say.
* `outcome_of_trace` — what an execution ends with, told from what its calls have returned.
* `Crowd.history_of_trace` — every execution of a crowd has such a history.
-/

namespace LoadGen
namespace Retry
namespace Execution

variable {α : Type}

/-- What an execution finds when it makes a move. -/
structure Moment where
  now : Nat
  cancelled : Bool
  breaker : Circuit.Breaker

/-- The execution after the move that it makes at a moment. -/
def stepAt (S : Setting α) (e : Execution α) (m : Moment) : Option (Execution α) :=
  (e.step S m.now m.cancelled m.breaker).map Move.execution

abbrev History (α : Type) : Type := List (Transition (Execution α) Moment)

/-- The call that starts in a step: its number, and when it starts. -/
def started? (x : Transition (Execution α) Moment) : Option (Nat × Nat) :=
  if !x.source.isCalling && x.target.isCalling then some (x.source.attempts, x.label.now) else none

/-- The call that returns in a step: its number, and what it returns. -/
def returns? (x : Transition (Execution α) Moment) : Option (Nat × Except Fault.Chain α) :=
  (x.source.result? x.label.cancelled).map (x.source.attempts, ·)

/-- The calls that a history starts, in their order. -/
def starts (ts : History α) : List (Nat × Nat) :=
  ts.filterMap started?

/-- What the calls of a history return, in the order in which they do. -/
def results (ts : History α) : List (Nat × Except Fault.Chain α) :=
  ts.filterMap returns?

variable {S : Setting α} {now : Nat} {cancelled : Bool} {b : Circuit.Breaker} {e : Execution α}
  {move : Move α} {ts : History α}

theorem makes_of_stepAt {e' : Execution α} {m : Moment} (h : stepAt S e m = some e') :
    ∃ move, Makes S m.now m.cancelled m.breaker e move ∧ e.Active ∧ e' = move.execution := by
  obtain ⟨move, hmove, rfl⟩ := Option.map_eq_some_iff.1 h
  exact ⟨move, makes_of_step hmove, active_of_step hmove, rfl⟩

/-! ## What a history shows -/

/-- The calls start in the order of their numbers and return in it. -/
theorem follows_of_trace (ht : Trace (stepAt S) {} ts e) :
    ∃ k, Follows S ((results ts).map Prod.snd) k e ∧ (starts ts).map Prod.fst = List.range k ∧
      (results ts).map Prod.fst = List.range e.attempts := by
  induction ht with
  | nil => exact ⟨0, follows_initial S, rfl, rfl⟩
  | @snoc ts e e' m _ hstep ih =>
      obtain ⟨k, hfollows, hstarts, hresults⟩ := ih
      obtain ⟨move, hmakes, hactive, rfl⟩ := makes_of_stepAt hstep
      obtain ⟨k', hfollows', hrange⟩ := hfollows.makes hactive hmakes
      have hreturned : (returns? ⟨e, m, move.execution⟩).toList =
          (e.result? m.cancelled).toList.map (e.attempts, ·) := by
        simp only [returns?]
        cases e.result? m.cancelled <;> rfl
      have hseen : (results (ts ++ [⟨e, m, move.execution⟩])).map Prod.snd =
          (results ts).map Prod.snd ++ (e.result? m.cancelled).toList := by
        rw [results, filterMap_snoc, List.map_append, hreturned, List.map_map]
        exact congrArg _ (List.map_id _)
      rw [← hseen] at hfollows'
      refine ⟨k', hfollows', ?_, ?_⟩
      · rw [hrange, ← hstarts, starts, filterMap_snoc, List.map_append]
        congr 1
        simp only [started?]
        split <;> rfl
      · have hattempts := hfollows'.attempts
        rw [hseen, List.length_append, ← hfollows.attempts] at hattempts
        rw [hattempts, results, filterMap_snoc, List.map_append, hreturned]
        rw [show List.map Prod.fst (ts.filterMap returns?) = List.range e.attempts from hresults]
        cases e.result? m.cancelled with
        | none => simp
        | some r => exact List.range_succ.symm

/-- What a call returns is what its script says about the instant at which it started. -/
theorem scripted_of_trace (ht : Trace (stepAt S) {} ts e) :
    (∀ wake reply, e.phase = .calling wake reply →
        ∃ now, (e.attempts, now) ∈ starts ts ∧ reply = S.call e.attempts now) ∧
      ∀ n r, (n, r) ∈ results ts →
        ∃ now, (n, now) ∈ starts ts ∧ (S.call n now).answer.result? = some r := by
  induction ht with
  | nil => simp [results]
  | @snoc ts e e' m _ hstep ih =>
      obtain ⟨hcalling, hscript⟩ := ih
      obtain ⟨move, hmakes, -, rfl⟩ := makes_of_stepAt hstep
      have hstarts : ∀ call ∈ starts ts, call ∈ starts (ts ++ [⟨e, m, move.execution⟩]) := by
        intro call hcall
        rw [starts, filterMap_snoc]
        exact List.mem_append_left _ hcall
      refine ⟨?_, ?_⟩
      · intro wake reply hphase
        cases hmakes with
        | @start last hready =>
            simp only [toPhase, Phase.calling.injEq] at hphase
            refine ⟨m.now, ?_, hphase.2.symm⟩
            rw [starts, filterMap_snoc]
            refine List.mem_append_right _ ?_
            simp [started?, isCalling, toPhase, hready]
        | interrupt | refuse | resume => simp [toPhase] at hphase
        | @answer wake' reply' =>
            have hidle : (e.settle S m.now m.breaker reply').execution.isCalling = false :=
              settle_isCalling reply'
            rw [isCalling, hphase] at hidle
            cases hidle
      · intro n r hr
        rw [results, filterMap_snoc] at hr
        rcases List.mem_append.1 hr with hold | hnew
        · obtain ⟨now, hstart, hanswer⟩ := hscript n r hold
          exact ⟨now, hstarts _ hstart, hanswer⟩
        · obtain ⟨r', hresult, heq⟩ := Option.map_eq_some_iff.1 (Option.mem_toList.1 hnew)
          cases heq
          cases hcancelled : m.cancelled with
          | true => simp [result?, hcancelled] at hresult
          | false =>
              cases hphase : e.phase with
              | calling wake reply =>
                  obtain ⟨now, hstart, rfl⟩ := hcalling wake reply hphase
                  refine ⟨now, hstarts _ hstart, ?_⟩
                  simpa [result?, hcancelled, hphase] using hresult
              | ready | waiting | done | crashed => simp [result?, hcancelled, hphase] at hresult

/-- An execution ends as refused in a move that finds the breaker refusing calls. -/
theorem refused_of_trace (ht : Trace (stepAt S) {} ts e) {state : Circuit.State} {n : Nat}
    {last : Option Failure} (hphase : e.phase = .done (.error (.circuitOpen state n last))) :
    ∃ us x, ts = us ++ [x] ∧ x.source.phase = .ready last ∧ x.source.attempts = n ∧
      x.label.cancelled = false ∧ x.label.breaker.state = state ∧
      x.label.breaker.canExecute S.thresholds x.label.now = false := by
  cases ht with
  | nil => cases hphase
  | @snoc us e₀ _ m _ hstep =>
      obtain ⟨move, hmakes, -, rfl⟩ := makes_of_stepAt hstep
      cases hmakes with
      | refuse hready hrun hrefused =>
          cases hphase
          exact ⟨us, _, rfl, hready, rfl, hrun, rfl, hrefused⟩
      | interrupt | start | resume => simp [toPhase] at hphase
      | @answer wake reply =>
          exact absurd hphase (settle_phase_ne_circuitOpen reply)

/-- In a list that is numbered from zero every entry stands at the place of its number. -/
theorem number_eq_of_getElem? {β : Type} {xs : List (Nat × β)} {k i : Nat} {entry : Nat × β}
    (hnumbers : xs.map Prod.fst = List.range k) (h : xs[i]? = some entry) : entry.1 = i := by
  have hfst : (List.range k)[i]? = some entry.1 := by
    rw [← hnumbers, List.getElem?_map, h]
    rfl
  obtain ⟨hi, hrange⟩ := List.getElem?_eq_some_iff.1 hfst
  rw [← hrange, List.getElem_range]

/-- The calls of a history by their numbers. -/
theorem mem_results_iff {n : Nat} {r : Except Fault.Chain α}
    (hnumbers : (results ts).map Prod.fst = List.range e.attempts) :
    (n, r) ∈ results ts ↔ ((results ts).map Prod.snd)[n]? = some r := by
  rw [List.getElem?_map, Option.map_eq_some_iff, List.mem_iff_getElem?]
  constructor
  · rintro ⟨i, hi⟩
    obtain rfl := number_eq_of_getElem? hnumbers hi
    exact ⟨(_, r), hi, rfl⟩
  · rintro ⟨⟨n', r'⟩, hcall, rfl⟩
    obtain rfl := number_eq_of_getElem? hnumbers hcall
    exact ⟨_, hcall⟩

/-- An execution makes its calls with the numbers `0`, `1`, ... and not more than the policy allows.
It ends with a value when its last call returns one, and as failed when its last call returns an
error and no other call is left or the kind is not retried.  It ends as refused only in a move that
finds the circuit open, and tells of the error of the call before, if there was one.  However it
ends, all calls before the last one have returned errors of kinds that are retried. -/
theorem outcome_of_trace (S : Setting α) {ts : History α} {e : Execution α}
    (ht : Trace (stepAt S) {} ts e) :
    ∃ k, (starts ts).map Prod.fst = List.range k ∧ k ≤ S.policy.maxRetries + 1 ∧
      (∀ n r, (n, r) ∈ results ts →
        ∃ now, (n, now) ∈ starts ts ∧ (S.call n now).answer.result? = some r) ∧
      (∀ a n, e.phase = .done (.ok (a, n)) ↔ n = k ∧ 1 ≤ k ∧ (k - 1, .ok a) ∈ results ts) ∧
      (∀ failure n, e.phase = .done (.error (.failed failure n)) ↔
        n = k ∧ 1 ≤ k ∧ (k - 1, .error failure.chain) ∈ results ts ∧
          failure.info = S.classifier.classify failure.chain ∧
          (k = S.policy.maxRetries + 1 ∨ failure.info.kind ∉ S.policy.retryable)) ∧
      (∀ state n last, e.phase = .done (.error (.circuitOpen state n last)) →
        state = .opened ∧ n = k ∧ (last = none ↔ k = 0) ∧
          (∀ failure, last = some failure → (k - 1, .error failure.chain) ∈ results ts ∧
            failure.info = S.classifier.classify failure.chain) ∧
          ∃ us x, ts = us ++ [x] ∧ x.source.phase = .ready last ∧ x.source.attempts = k ∧
            x.label.cancelled = false ∧ x.label.breaker.state = state ∧
            x.label.breaker.canExecute S.thresholds x.label.now = false) ∧
      ∀ n, n + 1 < k → ∃ chain, (n, .error chain) ∈ results ts ∧
        (S.classifier.classify chain).kind ∈ S.policy.retryable := by
  obtain ⟨k, hfollows, hstarts, hnumbers⟩ := follows_of_trace ht
  obtain ⟨hfew, hearlier⟩ := hfollows.earlier
  refine ⟨k, hstarts, hfew, (scripted_of_trace ht).2, ?_, ?_, ?_, ?_⟩
  · intro a n
    rw [mem_results_iff hnumbers]
    exact hfollows.ok_iff a n
  · intro failure n
    rw [mem_results_iff hnumbers, hfollows.failed_iff failure n]
    have hinfo : failure = S.failure failure.chain ↔
        failure.info = S.classifier.classify failure.chain := by
      constructor
      · exact congrArg Failure.info
      · intro hclassified
        rw [Setting.failure, ← hclassified]
    rw [hinfo]
    -- The kind of a failure with the right classification is the one that decides.
    refine and_congr_right fun _ => and_congr_right fun _ => and_congr_right fun _ =>
      and_congr_right fun hclassified => ?_
    rw [Setting.retries, hclassified]
  · intro state n last hphase
    obtain ⟨hstate, hn, hnone, hlast⟩ := hfollows.refused hphase
    obtain ⟨us, x, hts, hready, hattempts, hmove⟩ := refused_of_trace ht hphase
    refine ⟨hstate, hn, hnone, ?_, us, x, hts, hready, hattempts.trans hn, hmove⟩
    intro failure hfailure
    have hpos : 1 ≤ k := by
      apply Nat.one_le_iff_ne_zero.2
      intro hzero
      rw [hnone.2 hzero] at hfailure
      cases hfailure
    obtain ⟨chain, hchain, hsome⟩ := hlast hpos
    obtain rfl : failure = S.failure chain := by
      rw [hfailure] at hsome
      exact Option.some.inj hsome
    exact ⟨(mem_results_iff hnumbers).2 hchain, rfl⟩
  · intro n hn
    obtain ⟨chain, hchain, hretries⟩ := hearlier n hn
    exact ⟨chain, (mem_results_iff hnumbers).2 hchain, hretries⟩

/-- Every call fails at once in a way that is retried. -/
def flakySetting : Setting Unit where
  policy := { maxRetries := 2, jitter := 0.0, retryable := [.unknown] }
  thresholds := {}
  classifier := .empty
  draw := fun _ => 0.0
  call := fun _ _ => { answer := .fault ⟨["refused"]⟩ }

/-- A call, its answer and the wait for the next one, which finds that others have opened the
circuit. -/
def flakyMoments : List Moment :=
  [⟨0, false, {}⟩, ⟨0, false, {}⟩, ⟨100000000, false, {}⟩,
    ⟨100000000, false, { state := .opened, openedAt := some 99000000 }⟩]

/-- The error with which an execution has ended. -/
def error? (e : Execution α) : Option ExecuteError :=
  match e.phase with
  | .done (.error error) => some error
  | _ => none

theorem phase_of_error? {error : ExecuteError} (h : e.error? = some error) :
    e.phase = .done (.error error) := by
  unfold error? at h
  split at h
  · cases h
    assumption
  · cases h

theorem outcome_of_trace_refused :
    ∃ (ts : History Unit) (e : Execution Unit), Trace (stepAt flakySetting) {} ts e ∧
      starts ts = [(0, 0)] ∧
      e.phase = .done (.error (.circuitOpen .opened 1 (some ⟨⟨["refused"]⟩, .unknown⟩))) ∧
      (0, .error ⟨["refused"]⟩) ∈ results ts := by
  let run := Trace.drive (stepAt flakySetting) {} flakyMoments
  have hrun : (run.map fun r => (r.2.error?, starts r.1)) =
      some (some (.circuitOpen .opened 1 (some ⟨⟨["refused"]⟩, .unknown⟩)), [(0, 0)]) := by
    decide +kernel
  obtain ⟨⟨ts, e⟩, hdrive, hseen⟩ := Option.map_eq_some_iff.1 hrun
  simp only [Prod.mk.injEq] at hseen
  obtain ⟨herror, hstarts⟩ := hseen
  have ht := Trace.of_drive hdrive
  have hphase := phase_of_error? herror
  obtain ⟨k, hnumbers, -, -, -, -, hrefused, -⟩ := outcome_of_trace flakySetting ht
  obtain ⟨-, rfl, -, hlast, -⟩ := hrefused _ _ _ hphase
  exact ⟨ts, e, ht, hstarts, hphase, (hlast _ rfl).1⟩

end Execution

/-! ## Executions that share a breaker -/

namespace Crowd

variable {α : Type} {t : Circuit.Thresholds}

/-- Where one member is replaced, the others stay. -/
theorem eq_or_ne_of_getElem?_set {members : List (Member α)} {i j : Nat} {m m' : Member α}
    (h : (members.set j m')[i]? = some m) : (j = i ∧ m = m') ∨ (j ≠ i ∧ members[i]? = some m) := by
  by_cases hij : j = i
  · refine .inl ⟨hij, ?_⟩
    obtain ⟨hi, -⟩ := List.getElem?_eq_some_iff.1 h
    rw [List.length_set] at hi
    rw [hij, List.getElem?_set_self hi] at h
    exact (Option.some.inj h).symm
  · rw [List.getElem?_set_ne hij] at h
    exact .inr ⟨hij, h⟩

/-- Whatever the others do, every execution of a crowd has a history of its own. -/
theorem history_of_trace {ts : History α} {s : Crowd α} {now : Nat} {b : Circuit.Breaker}
    (ht : Trace (step t) (start now b) ts s) {i : Nat} {m : Member α}
    (hm : s.members[i]? = some m) :
    ∃ us, Trace (Execution.stepAt { m.setting with thresholds := t }) {} us m.execution := by
  induction ht generalizing i m with
  | nil => simp [start] at hm
  | @snoc ts s s' label _ hstep ih =>
      cases label with
      | join setting cancelled =>
          cases hstep
          rcases Nat.lt_or_ge i s.members.length with hold | hnew
          · rw [List.getElem?_append_left hold] at hm
            exact ih hm
          · rw [List.getElem?_append_right hnew] at hm
            obtain rfl := List.mem_singleton.1 (List.mem_of_getElem? hm)
            exact ⟨[], .nil⟩
      | act j =>
          rw [step] at hstep
          split at hstep
          · cases hstep
          · rename_i mover hmover
            obtain ⟨move, hmove, rfl⟩ := Option.map_eq_some_iff.1 hstep
            rcases eq_or_ne_of_getElem?_set hm with ⟨rfl, rfl⟩ | ⟨-, hold⟩
            · obtain ⟨us, hus⟩ := ih hmover
              have hlast : Execution.stepAt { mover.setting with thresholds := t }
                  mover.execution ⟨s.now, mover.cancelled, s.breaker⟩ = some move.execution := by
                rw [Execution.stepAt, hmove]
                rfl
              exact ⟨_, hus.snoc hlast⟩
            · exact ih hold
      | cancel j =>
          rw [step] at hstep
          split at hstep
          · cases hstep
          · rename_i target htarget
            cases hstep
            rcases eq_or_ne_of_getElem?_set hm with ⟨rfl, rfl⟩ | ⟨-, hold⟩
            · obtain ⟨us, hus⟩ := ih htarget
              exact ⟨us, hus⟩
            · exact ih hold
      | wait instant =>
          rw [step] at hstep
          split at hstep <;> cases hstep
          exact ih hm
      | reset =>
          cases hstep
          exact ih hm

end Crowd
end Retry
end LoadGen
