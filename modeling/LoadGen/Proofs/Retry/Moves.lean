import LoadGen.Proofs.Circuit.Replay
import LoadGen.Retry.Execution

/-!
# What a move of an execution can be

* `Execution.Makes` — the moves of an execution by name; `makes_of_step` says that there are no
  others.
* `waits_of_step_eq_none` — why an execution has no move.
* `Makes.breaker_eq`, `Makes.canExecute` — what a move leaves on the breaker, and what it asks.
* `cancelled_of_step` — only cancellation makes an execution end as cancelled.
-/

namespace LoadGen
namespace Retry

/-- Whether a call returned a value or an error; none if it took the task down. -/
def Answer.ok? {α : Type} : Answer α → Option Bool
  | .value _ => some true
  | .fault _ => some false
  | .crash _ => none

namespace Execution

variable {α : Type} {S : Setting α} {now : Nat} {cancelled : Bool} {b : Circuit.Breaker}
  {e : Execution α} {move : Move α}

/-- The moves of an execution at an instant, given the cancellation flag and the breaker. -/
inductive Makes (S : Setting α) (now : Nat) (cancelled : Bool) (b : Circuit.Breaker)
    (e : Execution α) : Move α → Prop
  /-- Cancellation ends an execution before, during and after a call. -/
  | interrupt (hcancelled : cancelled = true) :
      Makes S now cancelled b e ⟨e.toPhase (.done (.error .cancelled)), b, false⟩
  | start {last : Option Failure} (hphase : e.phase = .ready last) (hrun : cancelled = false)
      (hallowed : b.canExecute S.thresholds now = true) :
      Makes S now cancelled b e
        ⟨e.toPhase
          (.calling (Nanos.wakeAt now (S.call e.attempts now).latency) (S.call e.attempts now)),
          b, false⟩
  | refuse {last : Option Failure} (hphase : e.phase = .ready last) (hrun : cancelled = false)
      (hrefused : b.canExecute S.thresholds now = false) :
      Makes S now cancelled b e
        ⟨e.toPhase (.done (.error (.circuitOpen b.state e.attempts last))), b, false⟩
  | answer {wake : Nat} {reply : Reply α} (hphase : e.phase = .calling wake reply)
      (hrun : cancelled = false) (hdue : wake ≤ now) :
      Makes S now cancelled b e (e.settle S now b reply)
  | resume {failure : Failure} {wake : Nat} (hphase : e.phase = .waiting failure wake)
      (hrun : cancelled = false) (hdue : wake ≤ now) :
      Makes S now cancelled b e ⟨e.toPhase (.ready (some failure)), b, false⟩

theorem makes_of_step (h : e.step S now cancelled b = some move) :
    Makes S now cancelled b e move := by
  unfold step at h
  cases hphase : e.phase with
  | ready last =>
      simp only [hphase] at h
      cases cancelled with
      | true =>
          cases h
          exact .interrupt rfl
      | false =>
          simp only [Bool.false_eq_true, if_false] at h
          cases hallowed : b.canExecute S.thresholds now with
          | true =>
              simp only [hallowed, if_true] at h
              cases h
              exact .start hphase rfl hallowed
          | false =>
              simp only [hallowed, Bool.false_eq_true, if_false] at h
              cases h
              exact .refuse hphase rfl hallowed
  | calling wake reply =>
      simp only [hphase] at h
      cases cancelled with
      | true =>
          cases h
          exact .interrupt rfl
      | false =>
          simp only [Bool.false_eq_true, if_false] at h
          split at h
          · cases h
            exact .answer hphase rfl ‹_›
          · cases h
  | waiting failure wake =>
      simp only [hphase] at h
      cases cancelled with
      | true =>
          cases h
          exact .interrupt rfl
      | false =>
          simp only [Bool.false_eq_true, if_false] at h
          split at h
          · cases h
            exact .resume hphase rfl ‹_›
          · cases h
  | done outcome => simp [hphase] at h
  | crashed cause => simp [hphase] at h

/-- How the call under way returns in the next move; none if it does not. -/
def returned? (e : Execution α) (cancelled : Bool) : Option Bool :=
  match cancelled, e.phase with
  | false, .calling _ reply => reply.answer.ok?
  | _, _ => none

theorem settle_isCalling (reply : Reply α) :
    (e.settle S now b reply).execution.isCalling = false := by
  unfold settle
  cases reply.answer with
  | value a => rfl
  | crash text => rfl
  | fault chain =>
      simp only
      split
      · rfl
      · split <;> rfl

/-- A call that returns leaves one outcome on the breaker, and nothing else does. -/
theorem Makes.breaker_eq (h : Makes S now cancelled b e move) :
    move.breaker =
      b.replay S.thresholds ((e.returned? cancelled).map (Circuit.Event.outcome now)).toList := by
  cases h with
  | interrupt hcancelled =>
      subst hcancelled
      rfl
  | start hphase | refuse hphase | resume hphase =>
      cases cancelled <;> simp [returned?, hphase, Circuit.Breaker.replay]
  | @answer wake reply hphase hrun =>
      subst hrun
      cases hanswer : reply.answer <;>
        simp [returned?, hphase, settle, hanswer, Answer.ok?, Circuit.Breaker.replay,
          Circuit.Breaker.after, Circuit.Event.outcome]

/-- The calls of an execution that have returned are counted. -/
theorem Makes.attempts_eq (h : Makes S now cancelled b e move) :
    move.execution.attempts = e.attempts + (e.returned? cancelled).toList.length := by
  cases h with
  | interrupt hcancelled =>
      subst hcancelled
      rfl
  | start hphase | refuse hphase | resume hphase =>
      cases cancelled <;> simp [returned?, hphase, toPhase]
  | @answer wake reply hphase hrun =>
      subst hrun
      cases hanswer : reply.answer <;>
        simp [returned?, hphase, settle, hanswer, Answer.ok?]

/-- The calls that an execution has started are those that have returned, and one more if it is in a
call or has ended in one. -/
def Begun (e : Execution α) (k : Nat) : Prop :=
  match e.phase with
  | .ready _ => k = e.attempts
  | .waiting _ _ => k = e.attempts
  | .calling _ _ => k = e.attempts + 1
  | .done _ => e.attempts ≤ k ∧ k ≤ e.attempts + 1
  | .crashed _ => e.attempts ≤ k ∧ k ≤ e.attempts + 1

theorem Begun.attempts_le {k : Nat} (h : e.Begun k) : e.attempts ≤ k ∧ k ≤ e.attempts + 1 := by
  unfold Begun at h
  split at h <;> omega

/-- An execution that has ended may have started a call that did not return. -/
theorem begun_of_done {outcome : Except ExecuteError (α × Nat)} {k : Nat}
    (h : e.attempts ≤ k ∧ k ≤ e.attempts + 1) : (e.toPhase (.done outcome)).Begun k :=
  h

theorem begun_settle {reply : Reply α} {k : Nat} (hk : k = e.attempts + 1) :
    (e.settle S now b reply).execution.Begun k := by
  subst hk
  unfold settle
  cases reply.answer with
  | value a => exact ⟨Nat.le_refl _, Nat.le_succ _⟩
  | crash text => exact ⟨Nat.le_succ _, Nat.le_refl _⟩
  | fault chain =>
      simp only
      split
      · exact ⟨Nat.le_refl _, Nat.le_succ _⟩
      · split
        · rfl
        · exact ⟨Nat.le_refl _, Nat.le_succ _⟩

/-- A move starts the next call or none. -/
theorem Makes.begun {k : Nat} (h : Makes S now cancelled b e move) (hk : e.Begun k) :
    (move.execution.isCalling = true ∧ e.isCalling = false ∧ k = e.attempts ∧
        move.execution.Begun (k + 1)) ∨
      (move.execution.isCalling = false ∧ move.execution.Begun k) := by
  cases h with
  | start hphase =>
      have hready : k = e.attempts := by
        rw [Begun, hphase] at hk
        exact hk
      exact .inl ⟨rfl, by rw [isCalling, hphase], hready, congrArg (· + 1) hready⟩
  | interrupt | refuse => exact .inr ⟨rfl, begun_of_done hk.attempts_le⟩
  | answer hphase =>
      rw [Begun, hphase] at hk
      exact .inr ⟨settle_isCalling _, begun_settle hk⟩
  | resume hphase =>
      rw [Begun, hphase] at hk
      exact .inr ⟨rfl, hk⟩

/-- A call starts only where none is under way. -/
theorem Makes.isCalling_eq (h : Makes S now cancelled b e move)
    (hcalling : move.execution.isCalling = true) : e.isCalling = false := by
  cases h with
  | start hphase => rw [isCalling, hphase]
  | interrupt | refuse | resume => cases hcalling
  | answer => simp [settle_isCalling] at hcalling

/-- A call starts only if the breaker lets it pass. -/
theorem Makes.canExecute (h : Makes S now cancelled b e move)
    (hcalling : move.execution.isCalling = true) : b.canExecute S.thresholds now = true := by
  cases h with
  | start _ _ hallowed => exact hallowed
  | interrupt | refuse | resume => cases hcalling
  | answer => simp [settle_isCalling] at hcalling

/-- An execution without a move has ended, or it waits for time to pass. -/
theorem waits_of_step_eq_none (h : e.step S now cancelled b = none) :
    (∃ outcome, e.phase = .done outcome) ∨ (∃ cause, e.phase = .crashed cause) ∨
      (cancelled = false ∧ ∃ wake, e.wake? = some wake ∧ now < wake) := by
  unfold step at h
  cases hphase : e.phase with
  | ready last =>
      simp only [hphase] at h
      split at h
      · cases h
      · split at h <;> cases h
  | calling wake reply | waiting failure wake =>
      simp only [hphase] at h
      split at h
      · cases h
      · rename_i hrun
        split at h
        · cases h
        · rename_i hdue
          refine .inr (.inr ⟨by simpa using hrun, wake, ?_, Nat.lt_of_not_le hdue⟩)
          rw [wake?, hphase]
  | done outcome => exact .inl ⟨outcome, rfl⟩
  | crashed cause => exact .inr (.inl ⟨cause, rfl⟩)

/-- The answer of a call does not end an execution as cancelled. -/
theorem settle_phase_ne_cancelled (reply : Reply α) :
    (e.settle S now b reply).execution.phase ≠ .done (.error .cancelled) := by
  unfold settle
  cases reply.answer with
  | value a => simp
  | crash text => simp
  | fault chain =>
      simp only
      split
      · simp
      · split <;> simp

/-- An execution ends as cancelled only when it is. -/
theorem cancelled_of_step (h : e.step S now cancelled b = some move)
    (hdone : move.execution.phase = .done (.error .cancelled)) : cancelled = true := by
  cases makes_of_step h with
  | interrupt hcancelled => exact hcancelled
  | start | refuse | resume => simp [toPhase] at hdone
  | answer => exact absurd hdone (settle_phase_ne_cancelled _)

end Execution
end Retry
end LoadGen
