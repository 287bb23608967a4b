import LoadGen.Circuit.Breaker

/-!
# What a breaker has seen

A breaker is a fold over what happened to it: the outcomes that were recorded and the resets, each
at its instant.

* `Event`, `Breaker.replay` — what can happen to a breaker, and the breaker after all of it.
* `Breaker.OpenSince` — the circuit was opened at an instant and refuses calls for a while.
* `OpenSince.after` — an outcome within that while changes nothing about it.
* `openSince_after` — a circuit opens at the instant of the failure that opens it.
-/

namespace LoadGen
namespace Circuit

/-- What can happen to a breaker. -/
inductive Happening
  | success
  | failure
  | reset
  deriving DecidableEq, Repr

/-- Something that happens to a breaker at an instant. -/
structure Event where
  instant : Nat
  what : Happening
  deriving DecidableEq, Repr

/-- The outcome of a call that returned at an instant: whether it returned a value. -/
def Event.outcome (instant : Nat) (ok : Bool) : Event :=
  ⟨instant, if ok then .success else .failure⟩

namespace Breaker

variable {b : Breaker} {t : Thresholds} {now since : Nat}

/-- The breaker after an event. -/
def after (t : Thresholds) (b : Breaker) (e : Event) : Breaker :=
  match e.what with
  | .success => b.recordSuccess t e.instant
  | .failure => b.recordFailure t e.instant
  | .reset => b.reset

/-- The breaker after a list of events, oldest first. -/
def replay (t : Thresholds) (b : Breaker) (es : List Event) : Breaker :=
  es.foldl (after t) b

theorem replay_append (es fs : List Event) :
    b.replay t (es ++ fs) = (b.replay t es).replay t fs :=
  List.foldl_append

/-- The circuit is open, and it was last opened at `since`. -/
def OpenSince (b : Breaker) (since : Nat) : Prop :=
  b.state = .opened ∧ b.openedAt = some since

instance (b : Breaker) (since : Nat) : Decidable (b.OpenSince since) :=
  inferInstanceAs (Decidable (_ ∧ _))

theorem OpenSince.probeReady_iff (h : b.OpenSince since) :
    b.probeReady t now = true ↔ t.timeout ≤ now - since := by
  rw [probeReady, h.2]
  exact decide_eq_true_iff

/-- An open circuit lets calls pass once the timeout is over. -/
theorem OpenSince.canExecute_iff (h : b.OpenSince since) :
    b.canExecute t now = true ↔ t.timeout ≤ now - since := by
  rw [canExecute, h.1]
  exact h.probeReady_iff

/-- Outcomes within the timeout leave an open circuit as it is. -/
theorem OpenSince.after (h : b.OpenSince since) {e : Event} (hreset : e.what ≠ .reset)
    (hearly : e.instant - since < t.timeout) : (b.after t e).OpenSince since := by
  have hready : b.probeReady t e.instant = false := by
    rw [Bool.eq_false_iff]
    intro hready
    exact Nat.not_lt_of_le (h.probeReady_iff.1 hready) hearly
  cases hwhat : e.what with
  | success =>
      simp only [Breaker.after, hwhat, recordSuccess, h.1, hready, Bool.false_eq_true, if_false]
      exact h
  | failure =>
      simp only [Breaker.after, hwhat, recordFailure, h.1, hready, Bool.false_eq_true, if_false]
      exact ⟨rfl, h.2⟩
  | reset => exact absurd hwhat hreset

theorem probeSucceeded_state_ne (h : b.state = .halfOpen) :
    (b.probeSucceeded t).state ≠ .opened := by
  unfold probeSucceeded
  simp only
  split
  · simp
  · simp [h]

/-- A circuit opens at the instant of the failure that opens it. -/
theorem openSince_after {e : Event} (hopen : (b.after t e).state = .opened)
    (hnew : b.state ≠ .opened ∨ (b.after t e).openedAt ≠ b.openedAt) :
    (b.after t e).OpenSince e.instant := by
  refine ⟨hopen, ?_⟩
  cases hwhat : e.what with
  | reset => simp [after, hwhat, reset] at hopen
  | success =>
      exfalso
      simp only [after, hwhat, recordSuccess] at hopen hnew
      cases hstate : b.state with
      | closed => simp only [hstate, reduceCtorEq] at hopen
      | halfOpen =>
          simp only [hstate] at hopen
          exact probeSucceeded_state_ne hstate hopen
      | opened =>
          simp only [hstate, ne_eq, not_true, false_or] at hopen hnew
          split at hopen
          · exact probeSucceeded_state_ne rfl hopen
          · rename_i hwaits
            rw [if_neg hwaits] at hnew
            exact hnew rfl
  | failure =>
      simp only [after, hwhat, recordFailure] at hopen hnew ⊢
      cases hstate : b.state with
      | closed =>
          simp only [hstate] at hopen ⊢
          split
          · rfl
          · rename_i hfew
            simp [hfew] at hopen
      | halfOpen => rfl
      | opened =>
          simp only [hstate, ne_eq, not_true, false_or] at hnew ⊢
          split
          · rfl
          · rename_i hwaits
            rw [if_neg hwaits] at hnew
            exact absurd rfl hnew

end Breaker
end Circuit
end LoadGen
