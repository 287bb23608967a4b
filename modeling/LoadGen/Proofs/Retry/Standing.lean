import LoadGen.Proofs.Retry.Moves

/-!
# Where an execution stands

What an execution does next follows from what its calls have returned so far: how many there were,
and what the last one was.

* `Answer.result?`, `Execution.result?` — what a call returns, and what the call under way returns.
* `Active` — an execution that has not ended.
* `Follows` — where an execution stands once its calls have returned; `Follows.makes` says that
  every move keeps to it.
* `Follows.ok_iff`, `Follows.failed_iff`, `Follows.refused` — how an execution ends, told from what
  its calls have returned.
* `Follows.earlier` — all calls before the last one have failed in a way that is retried.
* `effort`, `Makes.effort_lt` — how many moves are left at most.
-/

namespace LoadGen
namespace Retry

/-- What a call returns; none if it took the task down. -/
def Answer.result? {α : Type} : Answer α → Option (Except Fault.Chain α)
  | .value a => some (.ok a)
  | .fault chain => some (.error chain)
  | .crash _ => none

/-- A failed call is followed by another one if the kind of its failure is to be retried. -/
def Setting.retries {α : Type} (S : Setting α) (chain : Fault.Chain) : Prop :=
  (S.classifier.classify chain).kind ∈ S.policy.retryable

/-- The failure that an error is, with its classification. -/
def Setting.failure {α : Type} (S : Setting α) (chain : Fault.Chain) : Failure :=
  ⟨chain, S.classifier.classify chain⟩

theorem Setting.givesUp_iff {α : Type} {S : Setting α} {n : Nat} {chain : Fault.Chain} :
    S.givesUp (n + 1) (S.failure chain).info = true ↔
      S.policy.maxRetries ≤ n ∨ ¬ S.retries chain := by
  simp [Setting.givesUp, Setting.failure, Setting.retries]

/-- Only an open circuit refuses calls. -/
theorem state_of_refused {b : Circuit.Breaker} {t : Circuit.Thresholds} {now : Nat}
    (h : b.canExecute t now = false) : b.state = .opened := by
  unfold Circuit.Breaker.canExecute at h
  cases hstate : b.state with
  | closed | halfOpen => simp [hstate] at h
  | opened => rfl

namespace Execution

variable {α : Type}

/-- What the call under way returns in the next move; none if it does not return. -/
def result? (e : Execution α) (cancelled : Bool) : Option (Except Fault.Chain α) :=
  match cancelled, e.phase with
  | false, .calling _ reply => reply.answer.result?
  | _, _ => none

/-! ## Where an execution stands -/

variable {S : Setting α} {rs : List (Except Fault.Chain α)} {k : Nat}

/-- There is another call to come: all calls before have failed in a way that is retried, and there
have not been too many. -/
structure Goes (S : Setting α) (rs : List (Except Fault.Chain α)) : Prop where
  few : rs.length ≤ S.policy.maxRetries
  retried : ∀ r ∈ rs, ∃ chain, r = .error chain ∧ S.retries chain

/-- The failure of the latest of some calls. -/
def lastFailure (S : Setting α) (rs : List (Except Fault.Chain α)) : Option Failure :=
  match rs.getLast? with
  | some (.error chain) => some (S.failure chain)
  | _ => none

/-- Where an execution stands after `k` calls have been started and `rs` returned. -/
def Stands (S : Setting α) (rs : List (Except Fault.Chain α)) (k : Nat) : Phase α → Prop
  | .ready last => Goes S rs ∧ last = lastFailure S rs ∧ k = rs.length
  | .calling _ _ => Goes S rs ∧ k = rs.length + 1
  | .waiting failure _ => Goes S rs ∧ some failure = lastFailure S rs ∧ k = rs.length
  | .done (.ok (a, n)) =>
      ∃ before, rs = before ++ [.ok a] ∧ Goes S before ∧ n = k ∧ k = rs.length
  | .done (.error (.failed failure n)) =>
      ∃ before chain, rs = before ++ [.error chain] ∧ Goes S before ∧ failure = S.failure chain ∧
        (S.policy.maxRetries ≤ before.length ∨ ¬ S.retries chain) ∧ n = k ∧ k = rs.length
  | .done (.error (.circuitOpen state n last)) =>
      Goes S rs ∧ last = lastFailure S rs ∧ state = .opened ∧ n = k ∧ k = rs.length
  | .done (.error .cancelled) => Goes S rs ∧ (k = rs.length ∨ k = rs.length + 1)
  | .crashed _ => Goes S rs ∧ (k = rs.length ∨ k = rs.length + 1)

/-- An execution that has started `k` calls, of which the first ones have returned `rs`. -/
structure Follows (S : Setting α) (rs : List (Except Fault.Chain α)) (k : Nat)
    (e : Execution α) : Prop where
  attempts : e.attempts = rs.length
  stands : Stands S rs k e.phase

/-- An execution that has not ended. -/
def Active (e : Execution α) : Prop :=
  match e.phase with
  | .done _ => False
  | .crashed _ => False
  | _ => True

variable {now : Nat} {cancelled : Bool} {b : Circuit.Breaker} {e : Execution α} {move : Move α}

theorem active_of_step (h : e.step S now cancelled b = some move) : e.Active := by
  unfold step at h
  unfold Active
  cases hphase : e.phase with
  | ready | calling | waiting => trivial
  | done | crashed => simp [hphase] at h

/-- An execution has ended with an outcome, or it was taken down. -/
theorem not_active_iff :
    ¬ e.Active ↔ (∃ outcome, e.phase = .done outcome) ∨ ∃ cause, e.phase = .crashed cause := by
  unfold Active
  cases e.phase <;> simp

/-- An execution that has ended waits for nothing. -/
theorem active_of_wake? {wake : Nat} (h : e.wake? = some wake) : e.Active := by
  unfold wake? at h
  unfold Active
  cases hphase : e.phase with
  | ready | calling | waiting => trivial
  | done | crashed => simp [hphase] at h

theorem follows_initial (S : Setting α) : Follows S [] 0 {} where
  attempts := rfl
  stands := ⟨⟨Nat.zero_le _, fun _ hr => absurd hr List.not_mem_nil⟩, rfl, rfl⟩

/-- An execution that has not ended has retried everything so far. -/
theorem Follows.goes (h : Follows S rs k e) (hactive : e.Active) :
    Goes S rs ∧ (k = rs.length ∨ k = rs.length + 1) := by
  have hstands := h.stands
  unfold Active at hactive
  cases hphase : e.phase with
  | ready last =>
      rw [hphase] at hstands
      exact ⟨hstands.1, .inl hstands.2.2⟩
  | calling wake reply =>
      rw [hphase] at hstands
      exact ⟨hstands.1, .inr hstands.2⟩
  | waiting failure wake =>
      rw [hphase] at hstands
      exact ⟨hstands.1, .inl hstands.2.2⟩
  | done | crashed => simp [hphase] at hactive

theorem lastFailure_snoc (chain : Fault.Chain) :
    lastFailure S (rs ++ [.error chain]) = some (S.failure chain) := by
  simp [lastFailure]

/-- One more failure that is retried leaves room for another call. -/
theorem Goes.snoc {chain : Fault.Chain} (h : Goes S rs)
    (hgoes : ¬ (S.policy.maxRetries ≤ rs.length ∨ ¬ S.retries chain)) :
    Goes S (rs ++ [.error chain]) := by
  obtain ⟨hfew, hretried⟩ := not_or.1 hgoes
  refine ⟨?_, ?_⟩
  · rw [List.length_append]
    exact Nat.lt_of_not_le hfew
  · intro r hr
    rcases List.mem_append.1 hr with hold | hnew
    · exact h.retried r hold
    · obtain rfl := List.mem_singleton.1 hnew
      exact ⟨chain, rfl, Classical.not_not.1 hretried⟩

/-- What a failed call leads to: the end, a wait, or a crash where the wait has no length. -/
theorem phase_settle {reply : Reply α} {chain : Fault.Chain} (hanswer : reply.answer = .fault chain) :
    (e.settle S now b reply).execution.phase =
      if S.givesUp (e.attempts + 1) (S.failure chain).info then
        .done (.error (.failed (S.failure chain) (e.attempts + 1)))
      else
        match S.policy.delay e.attempts (S.draw e.attempts) with
        | .ok wait => .waiting (S.failure chain) (Nanos.wakeAt now wait)
        | .error fault => .crashed (.delay fault) := by
  simp only [settle, hanswer, Nat.add_sub_cancel]
  rfl

/-- The answer of a call does not end an execution as refused. -/
theorem settle_phase_ne_circuitOpen {state : Circuit.State} {n : Nat} {last : Option Failure}
    (reply : Reply α) :
    (e.settle S now b reply).execution.phase ≠ .done (.error (.circuitOpen state n last)) := by
  cases hanswer : reply.answer with
  | value a | crash text => simp [Execution.settle, hanswer]
  | fault chain =>
      rw [phase_settle hanswer]
      split
      · simp
      · split <;> simp

/-- The answer of a call takes an execution to where it stands after it. -/
theorem Follows.settle {reply : Reply α} (hattempts : e.attempts = rs.length) (hgoes : Goes S rs) :
    Follows S (rs ++ reply.answer.result?.toList) (rs.length + 1)
      (e.settle S now b reply).execution := by
  cases hanswer : reply.answer with
  | value a =>
      refine ⟨?_, ?_⟩
      · simp [Execution.settle, hanswer, Answer.result?, hattempts]
      · simp only [Execution.settle, hanswer, hattempts]
        exact ⟨rs, rfl, hgoes, rfl, by simp [Answer.result?]⟩
  | crash text =>
      refine ⟨?_, ?_⟩
      · simp [Execution.settle, hanswer, Answer.result?, hattempts]
      · simp only [Execution.settle, hanswer, Answer.result?]
        rw [Option.toList_none, List.append_nil]
        exact ⟨hgoes, .inr rfl⟩
  | fault chain =>
      refine ⟨?_, ?_⟩
      · simp [Execution.settle, hanswer, Answer.result?, hattempts]
      · have hlength : (rs ++ [Except.error chain]).length = rs.length + 1 := by simp
        rw [phase_settle hanswer, hattempts]
        cases hgives : S.givesUp (rs.length + 1) (S.failure chain).info with
        | true =>
            exact ⟨rs, chain, rfl, hgoes, rfl, Setting.givesUp_iff.1 hgives, rfl, hlength.symm⟩
        | false =>
            have hmore : Goes S (rs ++ [.error chain]) := by
              apply hgoes.snoc
              intro hstops
              rw [Setting.givesUp_iff.2 hstops] at hgives
              cases hgives
            rw [if_neg Bool.false_ne_true]
            cases S.policy.delay rs.length (S.draw rs.length) with
            | ok wait => exact ⟨hmore, (lastFailure_snoc chain).symm, hlength.symm⟩
            | error fault => exact ⟨hmore, .inl hlength.symm⟩

/-- Every move takes an execution to where it stands after it, and starts the next call or none. -/
theorem Follows.makes (h : Follows S rs k e) (hactive : e.Active)
    (hmakes : Makes S now cancelled b e move) :
    ∃ k', Follows S (rs ++ (e.result? cancelled).toList) k' move.execution ∧
      List.range k' = List.range k ++
        if !e.isCalling && move.execution.isCalling then [e.attempts] else [] := by
  have hstands := h.stands
  cases hmakes with
  | interrupt hcancelled =>
      subst hcancelled
      obtain ⟨hgoes, hcount⟩ := h.goes hactive
      refine ⟨k, ⟨?_, ?_⟩, ?_⟩
      · simpa [result?, toPhase] using h.attempts
      · simp only [result?, Option.toList_none, List.append_nil]
        exact ⟨hgoes, hcount⟩
      · simp [isCalling, toPhase]
  | @start last hphase hrun =>
      rw [hphase] at hstands
      obtain ⟨hgoes, -, hcount⟩ := hstands
      have hnone : e.result? cancelled = none := by simp [result?, hphase]
      rw [hnone, Option.toList_none, List.append_nil]
      refine ⟨k + 1, ⟨h.attempts, hgoes, by rw [hcount]⟩, ?_⟩
      simp [isCalling, toPhase, hphase, List.range_succ, h.attempts, hcount]
  | @refuse last hphase hrun hrefused =>
      rw [hphase] at hstands
      obtain ⟨hgoes, hlast, hcount⟩ := hstands
      have hnone : e.result? cancelled = none := by simp [result?, hphase]
      rw [hnone, Option.toList_none, List.append_nil]
      refine ⟨k, ⟨h.attempts, hgoes, hlast, ?_, ?_, hcount⟩, ?_⟩
      · exact state_of_refused hrefused
      · rw [h.attempts, hcount]
      · simp [isCalling, toPhase]
  | @answer wake reply hphase hrun =>
      subst hrun
      rw [hphase] at hstands
      obtain ⟨hgoes, hcount⟩ := hstands
      have hresult : e.result? false = reply.answer.result? := by simp [result?, hphase]
      rw [hresult, hcount]
      refine ⟨rs.length + 1, Follows.settle h.attempts hgoes, ?_⟩
      simp [settle_isCalling]
  | @resume failure wake hphase =>
      rw [hphase] at hstands
      obtain ⟨hgoes, hlast, hcount⟩ := hstands
      have hnone : e.result? cancelled = none := by simp [result?, hphase]
      rw [hnone, Option.toList_none, List.append_nil]
      refine ⟨k, ⟨h.attempts, hgoes, hlast, hcount⟩, ?_⟩
      simp [isCalling, toPhase]

/-! ## What the results tell -/

/-- Either everything so far has been retried, or the last call ended the execution: with a value,
or with a failure that is not retried. -/
theorem Follows.goes_or_ends (h : Follows S rs k e) :
    (Goes S rs ∧ (k = rs.length ∨ k = rs.length + 1) ∧
        (∀ a n, e.phase ≠ .done (.ok (a, n))) ∧ ∀ f n, e.phase ≠ .done (.error (.failed f n))) ∨
      (∃ before a, rs = before ++ [.ok a] ∧ Goes S before ∧ k = rs.length ∧
        e.phase = .done (.ok (a, k))) ∨
      ∃ before chain, rs = before ++ [.error chain] ∧ Goes S before ∧ k = rs.length ∧
        (S.policy.maxRetries ≤ before.length ∨ ¬ S.retries chain) ∧
        e.phase = .done (.error (.failed (S.failure chain) k)) := by
  have hstands := h.stands
  cases hphase : e.phase with
  | ready last | waiting failure wake =>
      rw [hphase] at hstands
      exact .inl ⟨hstands.1, .inl hstands.2.2, by simp, by simp⟩
  | calling wake reply =>
      rw [hphase] at hstands
      exact .inl ⟨hstands.1, .inr hstands.2, by simp, by simp⟩
  | crashed cause =>
      rw [hphase] at hstands
      exact .inl ⟨hstands.1, hstands.2, by simp, by simp⟩
  | done outcome =>
      rw [hphase] at hstands
      rcases outcome with (⟨state, n, last⟩ | _ | ⟨failure, n⟩) | ⟨a, n⟩
      · obtain ⟨hgoes, -, -, -, hk⟩ := hstands
        exact .inl ⟨hgoes, .inl hk, by simp, by simp⟩
      · exact .inl ⟨hstands.1, hstands.2, by simp, by simp⟩
      · obtain ⟨before, chain, hrs, hgoes, hfailure, hstops, hn, hk⟩ := hstands
        exact .inr (.inr ⟨before, chain, hrs, hgoes, hk, hstops, by rw [hn, hfailure]⟩)
      · obtain ⟨before, hrs, hgoes, hn, hk⟩ := hstands
        exact .inr (.inl ⟨before, a, hrs, hgoes, hk, by rw [hn]⟩)

theorem Goes.error_of_getElem? {n : Nat} {r : Except Fault.Chain α} (h : Goes S rs)
    (hr : rs[n]? = some r) : ∃ chain, r = .error chain ∧ S.retries chain :=
  h.retried r (List.mem_of_getElem? hr)

/-- A value ends an execution, and nothing else ends it with a value. -/
theorem Follows.ok_iff (h : Follows S rs k e) (a : α) (n : Nat) :
    e.phase = .done (.ok (a, n)) ↔ n = k ∧ 1 ≤ k ∧ rs[k - 1]? = some (.ok a) := by
  rcases h.goes_or_ends with ⟨hgoes, -, hok, -⟩ | ⟨before, a', rfl, -, hk, hphase⟩ |
    ⟨before, chain, rfl, -, hk, -, hphase⟩
  · refine ⟨fun hphase => absurd hphase (hok a n), ?_⟩
    rintro ⟨-, -, hlast⟩
    obtain ⟨chain, hchain, -⟩ := hgoes.error_of_getElem? hlast
    cases hchain
  · rw [hphase, hk]
    simp only [List.length_append, List.length_singleton, Nat.add_sub_cancel,
      List.getElem?_concat_length]
    constructor
    · intro hdone
      cases hdone
      exact ⟨rfl, Nat.le_add_left 1 _, rfl⟩
    · rintro ⟨rfl, -, hlast⟩
      cases hlast
      rfl
  · rw [hphase, hk]
    simp

/-- A failure ends an execution exactly when no call is left or its kind is not retried. -/
theorem Follows.failed_iff (h : Follows S rs k e) (failure : Failure) (n : Nat) :
    e.phase = .done (.error (.failed failure n)) ↔
      n = k ∧ 1 ≤ k ∧ rs[k - 1]? = some (.error failure.chain) ∧
        failure = S.failure failure.chain ∧
        (k = S.policy.maxRetries + 1 ∨ ¬ S.retries failure.chain) := by
  rcases h.goes_or_ends with ⟨hgoes, -, -, hfailed⟩ | ⟨before, a', rfl, -, hk, hphase⟩ |
    ⟨before, chain, rfl, hgoes, hk, hstops, hphase⟩
  · refine ⟨fun hphase => absurd hphase (hfailed failure n), ?_⟩
    rintro ⟨-, hpos, hlast, -, hstops⟩
    obtain ⟨chain, hchain, hretries⟩ := hgoes.error_of_getElem? hlast
    obtain ⟨hwithin, -⟩ := List.getElem?_eq_some_iff.1 hlast
    have hfew := hgoes.few
    cases hchain
    rcases hstops with hexhausted | hnot
    · omega
    · exact absurd hretries hnot
  · rw [hphase, hk]
    simp
  · rw [hphase, hk]
    simp only [List.length_append, List.length_singleton, Nat.add_sub_cancel,
      List.getElem?_concat_length]
    constructor
    · intro hdone
      cases hdone
      refine ⟨rfl, Nat.le_add_left 1 _, rfl, rfl, ?_⟩
      rcases hstops with hexhausted | hnot
      · exact .inl (congrArg (· + 1) (Nat.le_antisymm hgoes.few hexhausted))
      · exact .inr hnot
    · rintro ⟨rfl, -, hlast, hfailure, -⟩
      cases hlast
      rw [hfailure]
      rfl

/-- All calls before the last one have failed in a way that is retried, and there are not more than
the policy allows. -/
theorem Follows.earlier (h : Follows S rs k e) :
    k ≤ S.policy.maxRetries + 1 ∧
      ∀ n, n + 1 < k → ∃ chain, rs[n]? = some (.error chain) ∧ S.retries chain := by
  have hretried : ∀ {before : List (Except Fault.Chain α)}, Goes S before →
      ∀ n, n < before.length → ∃ chain, before[n]? = some (.error chain) ∧ S.retries chain := by
    intro before hgoes n hn
    obtain ⟨chain, hchain, hretries⟩ := hgoes.error_of_getElem? (List.getElem?_eq_getElem hn)
    exact ⟨chain, by rw [List.getElem?_eq_getElem hn, hchain], hretries⟩
  rcases h.goes_or_ends with ⟨hgoes, hk, -⟩ | ⟨before, a', rfl, hgoes, hk, -⟩ |
    ⟨before, chain, rfl, hgoes, hk, -⟩
  · have hfew := hgoes.few
    exact ⟨by omega, fun n hn => hretried hgoes n (by omega)⟩
  all_goals
    have hfew := hgoes.few
    rw [List.length_append, List.length_singleton] at hk
    refine ⟨by omega, fun n hn => ?_⟩
    have hbefore : n < before.length := by omega
    obtain ⟨c, hc, hretries⟩ := hretried hgoes n hbefore
    exact ⟨c, by rw [List.getElem?_append_left hbefore, hc], hretries⟩

/-- A refused execution tells of the failure of the call before, if there was one. -/
theorem Follows.refused (h : Follows S rs k e) {state : Circuit.State} {n : Nat}
    {last : Option Failure} (hphase : e.phase = .done (.error (.circuitOpen state n last))) :
    state = .opened ∧ n = k ∧ (last = none ↔ k = 0) ∧
      (1 ≤ k → ∃ chain, rs[k - 1]? = some (.error chain) ∧ last = some (S.failure chain)) := by
  have hstands := h.stands
  rw [hphase] at hstands
  obtain ⟨hgoes, hlast, hstate, hn, hk⟩ := hstands
  refine ⟨hstate, hn, ?_⟩
  rcases List.eq_nil_or_concat rs with rfl | ⟨before, r, hrs⟩
  · subst hk
    exact ⟨⟨fun _ => rfl, fun _ => hlast⟩, fun hpos => absurd hpos (by simp)⟩
  · rw [List.concat_eq_append] at hrs
    subst hrs
    obtain ⟨chain, rfl, -⟩ := hgoes.retried r (by simp)
    rw [lastFailure_snoc] at hlast
    rw [hk, hlast]
    exact ⟨by simp, fun _ => ⟨chain, by simp, rfl⟩⟩

/-! ## The effort that is left -/

/-- How many moves an execution has left at most: a wait, a start and an answer for each call. -/
def effort (maxRetries : Nat) (e : Execution α) : Nat :=
  match e.phase with
  | .waiting _ _ => 3 * (maxRetries + 1 - e.attempts) + 3
  | .ready _ => 3 * (maxRetries + 1 - e.attempts) + 2
  | .calling _ _ => 3 * (maxRetries + 1 - e.attempts) + 1
  | .done _ => 0
  | .crashed _ => 0

/-- The answer of a call leaves less to do than there was during the call: a wait comes only while
there are calls left. -/
theorem effort_settle_lt {wake : Nat} {reply reply' : Reply α}
    (hphase : e.phase = .calling wake reply') :
    (e.settle S now b reply).execution.effort S.policy.maxRetries <
      e.effort S.policy.maxRetries := by
  have hcalling : e.effort S.policy.maxRetries =
      3 * (S.policy.maxRetries + 1 - e.attempts) + 1 := by
    rw [effort, hphase]
  rw [hcalling]
  cases hanswer : reply.answer with
  | value a | crash text => simp [effort, Execution.settle, hanswer]
  | fault chain =>
      have hattempts : (e.settle S now b reply).execution.attempts = e.attempts + 1 := by
        simp [Execution.settle, hanswer]
      rw [effort, phase_settle hanswer, hattempts]
      cases hgives : S.givesUp (e.attempts + 1) (S.failure chain).info with
      | true => exact Nat.succ_pos _
      | false =>
          have hleft : e.attempts < S.policy.maxRetries := by
            apply Nat.lt_of_not_le
            intro hexhausted
            rw [Setting.givesUp_iff.2 (.inl hexhausted)] at hgives
            cases hgives
          rw [if_neg Bool.false_ne_true]
          cases S.policy.delay e.attempts (S.draw e.attempts) with
          | ok wait =>
              show 3 * (S.policy.maxRetries + 1 - (e.attempts + 1)) + 3 < _
              omega
          | error fault => exact Nat.succ_pos _

/-- Every move leaves less to do. -/
theorem Makes.effort_lt (h : Makes S now cancelled b e move) (hactive : e.Active) :
    move.execution.effort S.policy.maxRetries < e.effort S.policy.maxRetries := by
  cases h with
  | interrupt =>
      unfold Active at hactive
      unfold effort
      cases hphase : e.phase with
      | ready | calling | waiting => exact Nat.succ_pos _
      | done | crashed => simp [hphase] at hactive
  | start hphase | resume hphase =>
      rw [effort, effort, hphase]
      exact Nat.lt_succ_self _
  | refuse hphase =>
      rw [effort, effort, hphase]
      exact Nat.succ_pos _
  | answer hphase => exact effort_settle_lt hphase

end Execution
end Retry
end LoadGen
