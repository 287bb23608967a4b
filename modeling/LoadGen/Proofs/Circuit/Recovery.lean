import LoadGen.Proofs.Circuit.Refusal
import LoadGen.Proofs.Circuit.Streaks

/-!
# A breaker never gets stuck

Whatever a breaker has been through, as many failures in a row as the threshold asks for open the
circuit, and once the timeout has passed, as many successes in a row close it.

* `toTrip`, `toClose` — how many more failures open the circuit, and how many successes close it.
* `Change.toTrip_le`, `Change.toClose_le` — every one of them counts.
* `opened_replay`, `closed_replay_of_ready` — enough of them move the circuit from any state.
* `latestOpening_mem` — the circuit was opened last by something that happened to it.
* `trips_and_recovers` — both, at the end of every history.
-/

namespace LoadGen
namespace Circuit
namespace Breaker

variable {t : Thresholds} {b b' : Breaker} {now : Nat} {ts : History} {es : List Event}

/-- How many more failures in a row open the circuit. -/
def toTrip (t : Thresholds) (b : Breaker) : Nat :=
  match b.state with
  | .closed => t.failure - b.failures
  | .halfOpen => 1
  | .opened => 0

/-- How many more successes in a row close the circuit, once the timeout has passed. -/
def toClose (t : Thresholds) (b : Breaker) : Nat :=
  match b.state with
  | .closed => 0
  | .halfOpen => t.success - b.successes
  | .opened => t.success

/-- A count that stays below a threshold that can be reached has gone up by one. -/
theorem bump_of_bump_lt {n limit : Nat} (h : bump n < limit) (hlimit : limit ≤ countMax) :
    bump n = n + 1 := by
  unfold bump at h ⊢
  omega

/-! ## Failures -/

/-- A failure brings the circuit nearer to opening, and only an open one is there. -/
theorem Change.toTrip_le (ht : t.Countable) (h : Change t b now .failure b') :
    b'.toTrip t ≤ b.toTrip t - 1 ∧ (b'.toTrip t = 0 → b'.state = .opened) := by
  cases h with
  | count hstate hmore =>
      have hcount := bump_of_bump_lt hmore ht.failure_le
      simp only [toTrip, hstate]
      omega
  | trip | reopen | relapse => exact ⟨Nat.zero_le _, fun _ => rfl⟩
  | late hstate => simp [toTrip, hstate]

/-- Enough failures in a row leave the circuit open. -/
theorem opened_replay (ht : t.Countable) (hfailures : ∀ e ∈ es, e.what = .failure)
    (henough : b.toTrip t ≤ es.length) (hopen : b.toTrip t = 0 → b.state = .opened) :
    (b.replay t es).state = .opened := by
  induction es generalizing b with
  | nil => exact hopen (Nat.le_zero.1 henough)
  | cons e es ih =>
      have hchange := change_after t b e
      rw [hfailures e List.mem_cons_self] at hchange
      obtain ⟨hle, hopen'⟩ := hchange.toTrip_le ht
      refine ih (fun f hf => hfailures f (List.mem_cons_of_mem _ hf)) ?_ hopen'
      rw [List.length_cons] at henough
      omega

/-! ## Successes -/

/-- A success that is not ignored brings the circuit nearer to closing.  It does not leave it open,
and only a closed one is there. -/
theorem Change.toClose_le (ht : t.Countable) (h : Change t b now .success b')
    (hready : b.state = .opened → b.probeReady t now = true) :
    b'.toClose t ≤ b.toClose t - 1 ∧ b'.state ≠ .opened ∧
      (b'.toClose t = 0 → b'.state = .closed) := by
  cases h with
  | calm hstate => simp [toClose, hstate]
  | ignore hstate hearly => simp [hready hstate] at hearly
  | mend | close => simp [toClose]
  | tryOut hstate _ hmore =>
      simp only [toClose, hstate]
      exact ⟨Nat.le_refl _, by simp, fun hnone => by omega⟩
  | confirm hstate hmore =>
      have hcount := bump_of_bump_lt hmore ht.success_le
      simp only [toClose, hstate]
      exact ⟨by omega, by simp, fun hnone => by omega⟩

/-- Enough successes in a row leave the circuit closed, if the first one is not ignored. -/
theorem closed_replay_of_ready (ht : t.Countable) (hsuccesses : ∀ e ∈ es, e.what = .success)
    (hready : b.state = .opened → ∀ e ∈ es, b.probeReady t e.instant = true)
    (henough : b.toClose t ≤ es.length) (hclosed : b.toClose t = 0 → b.state = .closed) :
    (b.replay t es).state = .closed := by
  induction es generalizing b with
  | nil => exact hclosed (Nat.le_zero.1 henough)
  | cons e es ih =>
      have hchange := change_after t b e
      rw [hsuccesses e List.mem_cons_self] at hchange
      obtain ⟨hle, hleft, hclosed'⟩ :=
        hchange.toClose_le ht fun hopen => hready hopen e List.mem_cons_self
      refine ih (fun f hf => hsuccesses f (List.mem_cons_of_mem _ hf)) ?_ ?_ hclosed'
      · intro hopen
        exact absurd hopen hleft
      · rw [List.length_cons] at henough
        omega

/-! ## From every history -/

/-- The circuit was opened last at the instant of one of its steps. -/
theorem latestOpening_mem {since : Nat} (h : latestOpening t ts = some since) :
    ∃ x ∈ ts, x.label.instant = since := by
  induction ts using List.reverseRecOn with
  | nil => cases h
  | append_singleton ts x ih =>
      have hkept (hlatest : latestOpening t ts = some since) :
          ∃ y ∈ ts ++ [x], y.label.instant = since := by
        obtain ⟨y, hy, hinstant⟩ := ih hlatest
        exact ⟨y, List.mem_append_left _ hy, hinstant⟩
      have hnew (hinstant : some x.label.instant = some since) :
          ∃ y ∈ ts ++ [x], y.label.instant = since :=
        ⟨x, List.mem_append_right _ (List.mem_singleton_self x), Option.some.inj hinstant⟩
      rw [latestOpening_snoc] at h
      unfold openingAfter at h
      split at h
      · split at h
        · exact hnew h
        · exact hkept h
      · exact hnew h
      · split at h
        · exact hnew h
        · exact hkept h
      · exact hkept h

/-- Once the timeout has passed since everything that has happened to the breaker, an open circuit
lets calls pass. -/
theorem probeReady_of_trace (h : Trace (step t) {} ts b) (hopen : b.state = .opened)
    (hpast : ∀ x ∈ ts, x.label.instant ≤ now) {later : Nat} (hlater : now + t.timeout ≤ later) :
    b.probeReady t later = true := by
  obtain ⟨since, hlatest, hsince⟩ := openSince_of_trace h hopen
  obtain ⟨x, hx, rfl⟩ := latestOpening_mem hlatest
  have hbefore := hpast x hx
  rw [hsince.probeReady_iff]
  omega

/-- At the end of every history of a new breaker, in whatever state it is: as many failures in a row
as the threshold asks for leave the circuit open, whenever they are recorded; and as many successes
in a row leave it closed, so that it lets all calls pass, if they are recorded after the timeout has
passed. -/
theorem trips_and_recovers (t : Thresholds) (ht : t.Countable) {ts : History} {b : Breaker}
    (h : Trace (step t) {} ts b) :
    (∀ es : List Event, (∀ e ∈ es, e.what = .failure) → t.failure ≤ es.length →
        (b.replay t es).state = .opened) ∧
      ∀ now, (∀ x ∈ ts, x.label.instant ≤ now) →
        ∀ es : List Event, (∀ e ∈ es, e.what = .success ∧ now + t.timeout ≤ e.instant) →
          t.success ≤ es.length →
            (b.replay t es).state = .closed ∧
              ∀ later, (b.replay t es).canExecute t later = true := by
  have htallied := tallied_of_trace ht h
  constructor
  · intro es hfailures henough
    apply opened_replay ht hfailures
    · have hpos := ht.failure_pos
      unfold toTrip
      split <;> omega
    · intro hnone
      unfold toTrip at hnone
      split at hnone
      · -- A closed circuit has room for another failure.
        have hroom := (htallied.closed ‹_›).2
        omega
      · cases hnone
      · assumption
  · intro now hpast es hsuccesses henough
    have hclosed : (b.replay t es).state = .closed := by
      apply closed_replay_of_ready ht fun e he => (hsuccesses e he).1
      · intro hopen e he
        exact probeReady_of_trace h hopen hpast (hsuccesses e he).2
      · unfold toClose
        split <;> omega
      · intro hnone
        unfold toClose at hnone
        split at hnone
        · assumption
        · obtain ⟨-, -, -, hmore⟩ := htallied.halfOpen ‹_›
          omega
        · have hpos := ht.success_pos
          omega
    exact ⟨hclosed, fun later => by rw [canExecute, hclosed]⟩

/-- A probe has failed and a late failure has arrived: the circuit is open for the second time.  Two
failures leave it so, and two successes after the timeout close it. -/
theorem trips_and_recovers_reopened :
    ∃ (ts : History) (b : Breaker), Trace (step ⟨2, 2, 10⟩) {} ts b ∧ b.OpenSince 12 ∧
      (∀ x ∈ ts, x.label.instant ≤ 15) ∧
      (b.replay ⟨2, 2, 10⟩ [⟨16, .failure⟩, ⟨30, .failure⟩]).state = .opened ∧
      (b.replay ⟨2, 2, 10⟩ [⟨25, .success⟩, ⟨25, .success⟩]).state = .closed := by
  obtain ⟨ts, hlabels, htrace⟩ := exists_trace ⟨2, 2, 10⟩ {}
    [⟨0, .failure⟩, ⟨1, .failure⟩, ⟨11, .success⟩, ⟨12, .failure⟩, ⟨15, .failure⟩]
  have hcountable : Thresholds.Countable ⟨2, 2, 10⟩ := by constructor <;> decide
  have hpast : ∀ x ∈ ts, x.label.instant ≤ 15 := by
    intro x hx
    have hmem := List.mem_map_of_mem (f := Transition.label) hx
    rw [hlabels] at hmem
    revert hmem
    generalize x.label = e
    revert e
    decide
  obtain ⟨htrips, hrecovers⟩ := trips_and_recovers ⟨2, 2, 10⟩ hcountable htrace
  exact ⟨ts, _, htrace, by decide, hpast, htrips _ (by decide) (by decide),
    (hrecovers 15 hpast _ (by decide) (by decide)).1⟩

end Breaker
end Circuit
end LoadGen
