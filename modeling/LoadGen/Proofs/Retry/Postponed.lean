import LoadGen.Proofs.Time.Timers
import LoadGen.Retry.Execution

/-!
# Executions on a clock that is ahead

A breaker and an execution know the time only by the instants that they keep.  On a clock that is
ahead by a whole number of milliseconds they do the same at instants that are so much later.

* `Breaker.postpone`, `Execution.postpone` — the same thing with all of its instants put off.
* `Breaker.recordSuccess_postpone` and the like — a breaker does the same later.
* `Setting.Later`, `Execution.step_postpone` — and so does an execution.
-/

namespace LoadGen

namespace Circuit
namespace Breaker

variable {d now : Nat} {b : Breaker} {t : Thresholds}

/-- The breaker that has come to the same on a clock that is ahead. -/
def postpone (d : Nat) (b : Breaker) : Breaker :=
  { b with openedAt := b.openedAt.map (d + ·) }

@[simp] theorem probeReady_postpone :
    (b.postpone d).probeReady t (d + now) = b.probeReady t now := by
  unfold probeReady postpone
  cases b.openedAt with
  | none => rfl
  | some opened => simp only [Option.map_some, Nat.add_sub_add_left]

@[simp] theorem canExecute_postpone :
    (b.postpone d).canExecute t (d + now) = b.canExecute t now := by
  unfold canExecute
  rw [probeReady_postpone]
  rfl

theorem probeSucceeded_postpone :
    (b.postpone d).probeSucceeded t = (b.probeSucceeded t).postpone d := by
  unfold probeSucceeded
  simp only [apply_ite (postpone d)]
  rfl

@[simp] theorem recordSuccess_postpone :
    (b.postpone d).recordSuccess t (d + now) = (b.recordSuccess t now).postpone d := by
  unfold recordSuccess
  have hstate : (b.postpone d).state = b.state := rfl
  rw [hstate]
  cases b.state with
  | closed => rfl
  | opened =>
      simp only [probeReady_postpone, apply_ite (postpone d), ← probeSucceeded_postpone]
      rfl
  | halfOpen => exact probeSucceeded_postpone

@[simp] theorem recordFailure_postpone :
    (b.postpone d).recordFailure t (d + now) = (b.recordFailure t now).postpone d := by
  unfold recordFailure
  have hstate : (b.postpone d).state = b.state := rfl
  rw [hstate]
  cases b.state with
  | closed =>
      simp only [apply_ite (postpone d)]
      rfl
  | opened =>
      simp only [probeReady_postpone, apply_ite (postpone d)]
      rfl
  | halfOpen => rfl

end Breaker
end Circuit

namespace Retry

variable {α : Type} {d now : Nat} {b : Circuit.Breaker} {S S' : Setting α} {cancelled : Bool}

def Phase.postpone (d : Nat) : Phase α → Phase α
  | .calling wake reply => .calling (d + wake) reply
  | .waiting failure wake => .waiting failure (d + wake)
  | .ready last => .ready last
  | .done outcome => .done outcome
  | .crashed cause => .crashed cause

/-- The execution that has come to the same on a clock that is ahead. -/
def Execution.postpone (d : Nat) (e : Execution α) : Execution α :=
  e.toPhase (e.phase.postpone d)

def Move.postpone (d : Nat) (m : Move α) : Move α :=
  { m with execution := m.execution.postpone d, breaker := m.breaker.postpone d }

@[simp] theorem Execution.isCalling_postpone (e : Execution α) :
    (e.postpone d).isCalling = e.isCalling := by
  unfold postpone isCalling toPhase
  cases e.phase <;> rfl

@[simp] theorem Execution.wake?_postpone (e : Execution α) :
    (e.postpone d).wake? = e.wake?.map (d + ·) := by
  unfold postpone wake? toPhase
  cases e.phase <;> rfl

/-- The two settings are the same on clocks that differ by `d`.  The draws may differ, as long as the
waits have no random share. -/
structure Setting.Later (d : Nat) (S S' : Setting α) : Prop where
  policy : S'.policy = S.policy
  thresholds : S'.thresholds = S.thresholds
  classifier : S'.classifier = S.classifier
  call : ∀ n now, S'.call n (d + now) = S.call n now
  steady : S.policy.jitter = 0.0

theorem Execution.settle_postpone (h : S.Later d S') (hd : Nanos.perMilli ∣ d) (e : Execution α)
    (reply : Reply α) : (e.postpone d).settle S' (d + now) (b.postpone d) reply =
      (e.settle S now b reply).postpone d := by
  unfold settle
  have hattempts : (e.postpone d).attempts = e.attempts := rfl
  rw [hattempts, h.thresholds]
  cases reply.answer with
  | value a =>
      simp only [Circuit.Breaker.recordSuccess_postpone]
      rfl
  | crash text => rfl
  | fault chain =>
      have hgives (attempts : Nat) (info : Fault.Info) :
          S'.givesUp attempts info = S.givesUp attempts info := by
        unfold Setting.givesUp
        rw [h.policy]
      simp only [Circuit.Breaker.recordFailure_postpone, h.classifier, h.policy, hgives,
        Policy.delay_of_jitter_eq_zero _ _ _ h.steady, Nanos.wakeAt_add hd]
      split <;> rfl

/-- On a clock that is ahead an execution makes the same move later. -/
theorem Execution.step_postpone (h : S.Later d S') (hd : Nanos.perMilli ∣ d) (e : Execution α) :
    (e.postpone d).step S' (d + now) cancelled (b.postpone d) =
      (e.step S now cancelled b).map (Move.postpone d) := by
  obtain ⟨attempts, phase⟩ := e
  unfold step postpone toPhase
  cases phase with
  | ready last =>
      simp only [Phase.postpone, h.thresholds, h.call, Circuit.Breaker.canExecute_postpone,
        Nanos.wakeAt_add hd]
      split
      · rfl
      · split <;> rfl
  | calling wake reply =>
      simp only [Phase.postpone, Nat.add_le_add_iff_left]
      split
      · rfl
      · split
        · exact congrArg some (settle_postpone h hd ⟨attempts, .calling wake reply⟩ reply)
        · rfl
  | waiting failure wake =>
      simp only [Phase.postpone, Nat.add_le_add_iff_left]
      split
      · rfl
      · split <;> rfl
  | done outcome => rfl
  | crashed cause => rfl

end Retry
end LoadGen
