import LoadGen.Proofs.Circuit.Changes

/-!
# How long an open circuit refuses calls

The refusal begins when the circuit opens and lasts for the timeout.  Outcomes that arrive meanwhile
belong to calls made before; they neither shorten nor prolong it.  The first outcome after it ends
the open state or begins another refusal, and a reset ends it at any time.

* `latestOpening` — when the circuit was opened last, told from the history alone.
* `openSince_of_trace` — the breaker itself remembers this instant.
* `OpenSince.replay` — outcomes within the timeout leave an open circuit as it is.
* `refusal_of_trace` — the law of the refusal at the end of every history.
-/

namespace LoadGen
namespace Circuit
namespace Breaker

variable {t : Thresholds} {b b' : Breaker} {now since : Nat} {what : Happening} {ts : History}

/-- When the circuit was opened last, after one more step: by the failure that takes it out of the
closed state, by any failure while it is half open, or by a failure while it is open that comes once
the timeout has passed since the opening before. -/
def openingAfter (t : Thresholds) (latest : Option Nat) (x : Transition Breaker Event) :
    Option Nat :=
  match x.label.what, x.source.state with
  | .failure, .closed =>
    if x.target.state = .opened then some x.label.instant else latest
  | .failure, .halfOpen => some x.label.instant
  | .failure, .opened =>
    if latest.all (t.timeout ≤ x.label.instant - ·) then some x.label.instant else latest
  | _, _ => latest

/-- When the circuit was opened last in a history that began with a closed one. -/
def latestOpening (t : Thresholds) (ts : History) : Option Nat :=
  ts.foldl (openingAfter t) none

theorem latestOpening_snoc (ts : History) (x : Transition Breaker Event) :
    latestOpening t (ts ++ [x]) = openingAfter t (latestOpening t ts) x := by
  rw [latestOpening, List.foldl_append]
  rfl

/-- An open circuit remembers when it was opened. -/
theorem openSince_of_trace (h : Trace (step t) {} ts b) (hopen : b.state = .opened) :
    ∃ since, latestOpening t ts = some since ∧ b.OpenSince since := by
  induction h with
  | nil => cases hopen
  | @snoc ts b b' e _ hstep ih =>
      rw [latestOpening_snoc]
      obtain ⟨now, what⟩ := e
      cases change_of_step hstep with
      | clear | mend | tryOut | close => cases hopen
      | calm hstate | confirm hstate | count hstate => cases hstate.symm.trans hopen
      | ignore hstate => exact ih hstate
      | trip hstate => exact ⟨now, by simp [openingAfter, hstate], rfl, rfl⟩
      | relapse hstate => exact ⟨now, by simp [openingAfter, hstate], rfl, rfl⟩
      | late hstate hearly =>
          obtain ⟨since, hlatest, hsince⟩ := ih hstate
          have hwaits : ¬ t.timeout ≤ now - since := by
            rw [← hsince.probeReady_iff, hearly]
            exact Bool.false_ne_true
          exact ⟨since, by simp [openingAfter, hstate, hlatest, hwaits], hstate, hsince.2⟩
      | reopen hstate hready =>
          obtain ⟨since, hlatest, hsince⟩ := ih hstate
          have hover := hsince.probeReady_iff.1 hready
          exact ⟨now, by simp [openingAfter, hstate, hlatest, hover], rfl, rfl⟩

/-- Any outcomes within the timeout leave an open circuit as it is. -/
theorem OpenSince.replay {es : List Event} (h : b.OpenSince since)
    (hreset : ∀ e ∈ es, e.what ≠ .reset) (hearly : ∀ e ∈ es, e.instant - since < t.timeout) :
    (b.replay t es).OpenSince since := by
  induction es generalizing b with
  | nil => exact h
  | cons e es ih =>
      have hfirst := h.after (hreset e List.mem_cons_self) (hearly e List.mem_cons_self)
      exact ih hfirst (fun e he => hreset e (List.mem_cons_of_mem _ he))
        fun e he => hearly e (List.mem_cons_of_mem _ he)

/-- A success after the timeout takes the circuit out of the open state. -/
theorem OpenSince.state_ne_of_success (h : b.OpenSince since) (hover : t.timeout ≤ now - since)
    (hchange : Change t b now .success b') : b'.state ≠ .opened := by
  have hready := h.probeReady_iff.2 hover
  cases hchange with
  | mend | tryOut | close => simp
  | ignore _ hearly => simp [hready] at hearly
  | calm hstate | confirm hstate => simp [hstate]

/-- A failure after the timeout opens the circuit anew. -/
theorem OpenSince.of_failure (h : b.OpenSince since) (hover : t.timeout ≤ now - since)
    (hchange : Change t b now .failure b') : b'.OpenSince now := by
  have hready := h.probeReady_iff.2 hover
  cases hchange with
  | trip | reopen | relapse => exact ⟨rfl, rfl⟩
  | late _ hearly => simp [hready] at hearly
  | count hstate => cases hstate.symm.trans h.1

/-- While the circuit is open at the end of a history, calls are refused until the timeout has
passed since the latest opening, and no longer; no outcomes within that time, however many and in
whatever order, change the state or the end of the refusal; and the first outcome after it leaves
the open state if it is a success and begins another refusal if it is a failure.  Only a reset ends
a refusal early. -/
theorem refusal_of_trace (t : Thresholds) {ts : History} {b : Breaker}
    (h : Trace (step t) {} ts b) (hopen : b.state = .opened) :
    ∃ since, latestOpening t ts = some since ∧
      (∀ now, b.canExecute t now = true ↔ t.timeout ≤ now - since) ∧
      (∀ es : List Event, (∀ e ∈ es, e.what ≠ .reset) →
        (∀ e ∈ es, e.instant - since < t.timeout) →
          (b.replay t es).state = .opened ∧
            (∀ now, (b.replay t es).canExecute t now = true ↔ t.timeout ≤ now - since) ∧
            (∀ now, t.timeout ≤ now - since →
              ((b.replay t es).recordSuccess t now).state ≠ .opened ∧
              ((b.replay t es).recordFailure t now).state = .opened ∧
              ∀ later, ((b.replay t es).recordFailure t now).canExecute t later = true ↔
                t.timeout ≤ later - now)) ∧
      (∀ e : Event, e.instant - since < t.timeout →
        ((b.after t e).state ≠ .opened ∨
          ∃ now, now - since < t.timeout ∧ (b.after t e).canExecute t now = true) →
        e.what = .reset) ∧
      b.reset.state = .closed ∧ ∀ now, b.reset.canExecute t now = true := by
  obtain ⟨since, hlatest, hsince⟩ := openSince_of_trace h hopen
  refine ⟨since, hlatest, fun now => hsince.canExecute_iff, ?_, ?_, rfl, fun now => rfl⟩
  · intro es hreset hearly
    have hstill := hsince.replay hreset hearly
    refine ⟨hstill.1, fun now => hstill.canExecute_iff, fun now hover => ?_⟩
    have hleft := hstill.state_ne_of_success hover (change_recordSuccess t _ now)
    have hagain := hstill.of_failure hover (change_recordFailure t _ now)
    exact ⟨hleft, hagain.1, fun later => hagain.canExecute_iff⟩
  · intro e hearly hends
    by_cases hwhat : e.what = .reset
    · exact hwhat
    · have hstill := hsince.after hwhat hearly
      rcases hends with hleft | ⟨now, hwithin, hallowed⟩
      · exact absurd hstill.1 hleft
      · exact absurd hwithin (Nat.not_lt_of_le (hstill.canExecute_iff.1 hallowed))

/-- A circuit that was opened anew refuses calls from its second opening on, whatever arrives late. -/
theorem refusal_of_trace_reopened :
    ∃ (ts : History) (b : Breaker), Trace (step ⟨1, 3, 10⟩) {} ts b ∧ b.state = .opened ∧
      latestOpening ⟨1, 3, 10⟩ ts = some 15 ∧
      b.canExecute ⟨1, 3, 10⟩ 24 = false ∧ b.canExecute ⟨1, 3, 10⟩ 25 = true := by
  obtain ⟨ts, hlabels, htrace⟩ := exists_trace ⟨1, 3, 10⟩ {}
    [⟨0, .failure⟩, ⟨9, .success⟩, ⟨15, .failure⟩, ⟨20, .failure⟩]
  obtain ⟨since, hlatest, hallowed, -⟩ := refusal_of_trace ⟨1, 3, 10⟩ htrace (by decide)
  have hend : ¬ (10 : Nat) ≤ 24 - since ∧ (10 : Nat) ≤ 25 - since := by
    rw [← hallowed, ← hallowed]
    decide
  have hsince : since = 15 := by omega
  subst hsince
  exact ⟨ts, _, htrace, by decide, hlatest, by decide, by decide⟩

end Breaker
end Circuit
end LoadGen
