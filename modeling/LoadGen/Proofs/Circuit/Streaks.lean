import LoadGen.Proofs.Circuit.Changes
import Mathlib.Data.List.DropRight

/-!
# The streaks that a breaker counts

A closed circuit counts failures in a row, and a half-open one counts successes in a row.  Both
counts are read off the history of the breaker, and the circuit moves when they reach a threshold.

* `failureStreak`, `successStreak` — the streaks at the end of a history.
* `Tallied` — in every state the counters of the breaker are those of its history.
* `tallied_of_trace` — every history of a new breaker keeps them so.
* `streaks_of_trace` — the counters, the outcomes that move the circuit, and the edges along which
  they move it.
-/

namespace LoadGen
namespace Circuit

/-- Thresholds are 32-bit numbers, which is as far as a breaker counts, and positive ones are those
that an engine accepts. -/
structure Thresholds.Countable (t : Thresholds) : Prop where
  failure_pos : 1 ≤ t.failure
  failure_le : t.failure ≤ Breaker.countMax
  success_pos : 1 ≤ t.success
  success_le : t.success ≤ Breaker.countMax

namespace Breaker

variable {t : Thresholds} {b b' : Breaker} {now : Nat} {what : Happening} {ts : History}

/-! ## Streaks -/

/-- Whether a step puts an end to the failures before it: it is a reset or a success, or it closes
the circuit. -/
def endsFailures (x : Transition Breaker Event) : Bool :=
  decide (x.label.what = .reset) || decide (x.label.what = .success) ||
    (decide (x.source.state ≠ .closed) && decide (x.target.state = .closed))

/-- Whether a step takes the circuit out of the open state. -/
def leavesOpen (x : Transition Breaker Event) : Bool :=
  decide (x.source.state = .opened) && decide (x.target.state ≠ .opened)

def isFailure (x : Transition Breaker Event) : Bool :=
  decide (x.label.what = .failure)

def isSuccess (x : Transition Breaker Event) : Bool :=
  decide (x.label.what = .success)

/-- The failures since the last step that put an end to failures, or since the beginning. -/
def failureStreak (ts : History) : Nat :=
  (ts.rtakeWhile fun x => !endsFailures x).countP isFailure

/-- The successes from the last step on that took the circuit out of the open state. -/
def successStreak (ts : History) : Nat :=
  (ts.rtake ((ts.rtakeWhile fun x => !leavesOpen x).length + 1)).countP isSuccess

theorem failureStreak_snoc (ts : History) (x : Transition Breaker Event) :
    failureStreak (ts ++ [x]) =
      if endsFailures x then 0 else failureStreak ts + [x].countP isFailure := by
  rw [failureStreak, List.rtakeWhile_concat]
  cases endsFailures x with
  | true => rfl
  | false =>
      simp only [Bool.not_false, if_true, Bool.false_eq_true, if_false]
      exact List.countP_append

theorem successStreak_snoc (ts : History) (x : Transition Breaker Event) :
    successStreak (ts ++ [x]) =
      if leavesOpen x then [x].countP isSuccess else successStreak ts + [x].countP isSuccess := by
  rw [successStreak, List.rtakeWhile_concat, List.rtake_concat_succ, List.countP_append]
  cases leavesOpen x with
  | true => simp
  | false =>
      simp only [Bool.not_false, if_true, Bool.false_eq_true, if_false, List.length_append,
        List.length_singleton]
      rfl

/-- A count below a threshold that can be reached goes up by one. -/
theorem bump_of_lt {n limit : Nat} (h : n < limit) (hlimit : limit ≤ countMax) :
    bump n = n + 1 := by
  unfold bump
  omega

/-! ## The counters -/

/-- The counters of a breaker are those of its history. -/
structure Tallied (t : Thresholds) (ts : History) (b : Breaker) : Prop where
  closed : b.state = .closed → b.failures = failureStreak ts ∧ b.failures < t.failure
  halfOpen : b.state = .halfOpen →
    b.failures = 0 ∧ b.successes = successStreak ts ∧ 1 ≤ b.successes ∧ b.successes < t.success
  opened : b.state = .opened → b.successes = 0

theorem tallied_initial (hpos : 1 ≤ t.failure) : Tallied t [] {} where
  closed _ := ⟨rfl, hpos⟩
  halfOpen h := by cases h
  opened h := by cases h

/-- One more step keeps the counters right. -/
theorem Tallied.change (ht : t.Countable) (h : Tallied t ts b) {e : Event}
    (hchange : Change t b e.instant e.what b') : Tallied t (ts ++ [⟨b, e, b'⟩]) b' := by
  obtain ⟨now, what⟩ := e
  have hfailures := failureStreak_snoc ts ⟨b, ⟨now, what⟩, b'⟩
  have hsuccesses := successStreak_snoc ts ⟨b, ⟨now, what⟩, b'⟩
  cases hchange with
  | clear =>
      refine ⟨fun _ => ⟨?_, ht.failure_pos⟩, fun hstate => (by cases hstate), fun _ => rfl⟩
      rw [hfailures]
      rfl
  | calm hstate =>
      refine ⟨fun _ => ⟨?_, ht.failure_pos⟩, fun hhalf => ?_, fun hopen => ?_⟩
      · rw [hfailures]
        rfl
      · cases hstate.symm.trans hhalf
      · cases hstate.symm.trans hopen
  | mend | close =>
      refine ⟨fun _ => ⟨?_, ht.failure_pos⟩, fun hstate => (by cases hstate), fun _ => rfl⟩
      rw [hfailures]
      rfl
  | tryOut hstate _ hmore =>
      refine ⟨fun hclosed => (by cases hclosed), fun _ => ⟨rfl, ?_, Nat.le_refl 1, hmore⟩,
        fun hopen => (by cases hopen)⟩
      rw [hsuccesses]
      simp [leavesOpen, hstate, isSuccess]
  | confirm hstate hmore =>
      obtain ⟨-, hcount, hpos, hlt⟩ := h.halfOpen hstate
      have hbump := bump_of_lt hlt ht.success_le
      refine ⟨fun hclosed => ?_, fun _ => ⟨rfl, ?_, ?_, hmore⟩, fun hopen => ?_⟩
      · cases hstate.symm.trans hclosed
      · rw [hsuccesses, hbump, hcount]
        simp [leavesOpen, hstate, isSuccess]
      · show 1 ≤ bump b.successes
        omega
      · cases hstate.symm.trans hopen
  | count hstate hmore =>
      obtain ⟨hcount, hlt⟩ := h.closed hstate
      have hbump := bump_of_lt hlt ht.failure_le
      refine ⟨fun _ => ⟨?_, hmore⟩, fun hhalf => ?_, fun hopen => ?_⟩
      · rw [hfailures, hbump, hcount]
        simp [endsFailures, hstate, isFailure]
      · cases hstate.symm.trans hhalf
      · cases hstate.symm.trans hopen
  | trip | reopen | relapse =>
      exact ⟨fun hclosed => (by cases hclosed), fun hhalf => (by cases hhalf), fun _ => rfl⟩
  | ignore hstate | late hstate =>
      refine ⟨fun hclosed => ?_, fun hhalf => ?_, fun _ => h.opened hstate⟩
      · cases hstate.symm.trans hclosed
      · cases hstate.symm.trans hhalf

/-- The counters of a breaker are always those of its history. -/
theorem tallied_of_trace (ht : t.Countable) (h : Trace (step t) {} ts b) : Tallied t ts b := by
  induction h with
  | nil => exact tallied_initial ht.failure_pos
  | snoc _ hstep ih => exact ih.change ht (change_of_step hstep)

/-! ## The outcomes that move the circuit -/

/-- A closed circuit opens with the last failure that it takes. -/
theorem Tallied.opens_iff (ht : t.Countable) (h : Tallied t ts b) (hstate : b.state = .closed)
    (hchange : Change t b now what b') :
    b'.state = .opened ↔ what = .failure ∧ failureStreak ts + 1 = t.failure := by
  obtain ⟨hcount, hlt⟩ := h.closed hstate
  have hbump := bump_of_lt hlt ht.failure_le
  cases hchange with
  | clear => simp
  | calm => simp [hstate]
  | count _ hmore =>
      simp only [hstate, reduceCtorEq, true_and, false_iff]
      omega
  | trip _ hlast =>
      simp only [true_and, true_iff]
      omega
  | ignore hother | mend hother | tryOut hother | confirm hother | close hother | late hother
  | reopen hother | relapse hother => cases hstate.symm.trans hother

/-- A half-open circuit closes with the last success that it takes, and opens with any failure. -/
theorem Tallied.leaves_halfOpen_iff (ht : t.Countable) (h : Tallied t ts b)
    (hstate : b.state = .halfOpen) (hchange : Change t b now what b') (hwhat : what ≠ .reset) :
    (b'.state = .closed ↔ what = .success ∧ successStreak ts + 1 = t.success) ∧
      (b'.state = .opened ↔ what = .failure) := by
  obtain ⟨-, hcount, -, hlt⟩ := h.halfOpen hstate
  have hbump := bump_of_lt hlt ht.success_le
  cases hchange with
  | clear => exact absurd rfl hwhat
  | confirm _ hmore =>
      refine ⟨?_, by simp [hstate]⟩
      simp only [hstate, reduceCtorEq, true_and, false_iff]
      omega
  | close _ hlast =>
      refine ⟨?_, by simp⟩
      simp only [true_and, true_iff]
      omega
  | relapse => simp
  | calm hother | ignore hother | mend hother | tryOut hother | count hother | trip hother
  | late hother | reopen hother => cases hstate.symm.trans hother

/-- At the end of every history of a new breaker: a closed circuit counts the failures in a row and
opens with the one that reaches the threshold; a half-open circuit counts the successes in a row,
closes with the one that reaches the threshold and opens with any failure; and outcomes move the
state along the edges of the diagram only. -/
theorem streaks_of_trace (t : Thresholds) (ht : t.Countable) {ts : History} {b : Breaker}
    (h : Trace (step t) {} ts b) :
    (b.state = .closed → b.failures = failureStreak ts ∧ b.failures < t.failure ∧
        ∀ e, (b.after t e).state = .opened ↔
          e.what = .failure ∧ failureStreak ts + 1 = t.failure) ∧
      (b.state = .halfOpen → b.failures = 0 ∧ b.successes = successStreak ts ∧
        1 ≤ b.successes ∧ b.successes ≤ t.success - 1 ∧
        ∀ e, e.what ≠ .reset →
          ((b.after t e).state = .closed ↔
            e.what = .success ∧ successStreak ts + 1 = t.success) ∧
          ((b.after t e).state = .opened ↔ e.what = .failure)) ∧
      (b.state = .opened → b.successes = 0) ∧
      ∀ e, e.what ≠ .reset → Edge t b.state (b.after t e).state := by
  have htallied := tallied_of_trace ht h
  refine ⟨fun hstate => ?_, fun hstate => ?_, htallied.opened, fun e hwhat => ?_⟩
  · obtain ⟨hcount, hlt⟩ := htallied.closed hstate
    exact ⟨hcount, hlt, fun e => htallied.opens_iff ht hstate (change_after t b e)⟩
  · obtain ⟨hzero, hcount, hpos, hlt⟩ := htallied.halfOpen hstate
    exact ⟨hzero, hcount, hpos, by omega,
      fun e hwhat => htallied.leaves_halfOpen_iff ht hstate (change_after t b e) hwhat⟩
  · exact (change_after t b e).edge hwhat

/-- Two failures open a circuit, and a probe has left it half open. -/
theorem streaks_of_trace_probe :
    ∃ (ts : History) (b : Breaker), Trace (step ⟨2, 3, 10⟩) {} ts b ∧ b.state = .halfOpen ∧
      successStreak ts = 2 ∧
      (b.after ⟨2, 3, 10⟩ ⟨30, .success⟩).state = .closed := by
  obtain ⟨ts, hlabels, htrace⟩ := exists_trace ⟨2, 3, 10⟩ {}
    [⟨0, .failure⟩, ⟨1, .failure⟩, ⟨5, .success⟩, ⟨11, .success⟩, ⟨20, .success⟩]
  have hcountable : Thresholds.Countable ⟨2, 3, 10⟩ := by constructor <;> decide
  obtain ⟨-, hhalf, -, -⟩ := streaks_of_trace ⟨2, 3, 10⟩ hcountable htrace
  obtain ⟨-, hcount, -, -, hmoves⟩ := hhalf (by decide)
  have hstreak : successStreak ts = 2 := hcount.symm.trans (by decide)
  refine ⟨ts, _, htrace, by decide, hstreak, ?_⟩
  exact (hmoves ⟨30, .success⟩ (by decide)).1.2 ⟨rfl, by rw [hstreak]⟩

end Breaker
end Circuit
end LoadGen
