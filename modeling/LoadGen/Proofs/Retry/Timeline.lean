import LoadGen.Proofs.Retry.Standing
import LoadGen.Proofs.Time.Timers
import LoadGen.Proofs.Trace
import LoadGen.Retry.Trial
import Mathlib.Data.List.Nodup

/-!
# When the calls of an execution start

An execution on the clock makes each of its moves as soon as it has one, and otherwise time passes,
but not beyond the instant for which it waits.  Others may use the breaker and may fire the
cancellation at any moment.  The clock stops when the execution ends, so it shows when it returned.

Without a random share of the waits, a history of this kind has a timetable: every call starts when
the wait after the call before is over.

* `Trial.Label`, `Trial.advance` — what can happen while an execution is on the clock.
* `Trial.returns`, `Trial.events` — the calls that return in a history, and what the breaker sees.
* `Trial.Due` — when a call is due.
* `Trial.OnTime`, `Trial.onTime_of_trace` — where an execution stands that keeps to the timetable.
* `Trial.halted_of_trace` — what is left to happen once an execution is cancelled.
-/

namespace LoadGen
namespace Retry
namespace Trial

variable {α : Type}

/-! ## Executions on the clock -/

/-- What can happen while an execution is on the clock. -/
inductive Label
  /-- The execution makes its move. -/
  | act
  /-- Time passes until `instant`. -/
  | wait (instant : Nat)
  /-- The cancellation is fired from outside. -/
  | cancel
  /-- Somebody else uses the breaker. -/
  | other (what : Circuit.Happening)

/-- A trial after a move of its execution. -/
def moved (t : Trial α) (move : Move α) : Trial α :=
  { t with
    cancelled := t.cancelled || move.cancels
    breaker := move.breaker
    execution := move.execution
    calls :=
      if move.execution.isCalling then (t.execution.attempts, t.now) :: t.calls else t.calls }

/-- What a label does to a trial, where it can happen.  Time passes only while the execution waits
for an instant and has no move before. -/
def advance (S : Setting α) (t : Trial α) : Label → Option (Trial α)
  | .act => (t.execution.step S t.now t.cancelled t.breaker).map t.moved
  | .wait instant =>
    match t.execution.wake? with
    | none => none
    | some wake =>
      if (t.execution.step S t.now t.cancelled t.breaker).isNone ∧ t.now < instant ∧
          instant ≤ wake then
        some { t with now := instant }
      else none
  | .cancel => some { t with cancelled := true }
  | .other what => some { t with breaker := t.breaker.after S.thresholds ⟨t.now, what⟩ }

abbrev History (α : Type) : Type := List (Transition (Trial α) Label)

/-- A call that has returned: its number, when it returned, and whether it returned a value. -/
structure Return where
  number : Nat
  instant : Nat
  ok : Bool
  deriving DecidableEq, Repr

/-- What a call that has returned leaves on the breaker. -/
def Return.event (r : Return) : Circuit.Event :=
  .outcome r.instant r.ok

/-- The call that returns in a step. -/
def return? (x : Transition (Trial α) Label) : Option Return :=
  match x.label with
  | .act =>
    (x.source.execution.returned? x.source.cancelled).map fun ok =>
      ⟨x.source.execution.attempts, x.source.now, ok⟩
  | _ => none

/-- What a step does to the breaker: a call that returns leaves its outcome. -/
def event? (x : Transition (Trial α) Label) : Option Circuit.Event :=
  match x.label with
  | .other what => some ⟨x.source.now, what⟩
  | _ => (return? x).map Return.event

/-- The calls that return in a history, oldest first. -/
def returns (ts : History α) : List Return :=
  ts.filterMap return?

/-- What a history does to the breaker, oldest first. -/
def events (ts : History α) : List Circuit.Event :=
  ts.filterMap event?

variable {S : Setting α} {since now : Nat} {cancelled : Bool} {b : Circuit.Breaker}
  {t t' : Trial α} {ts : History α} {label : Label}

theorem act_inv (h : t.advance S .act = some t') :
    ∃ move, Execution.Makes S t.now t.cancelled t.breaker t.execution move ∧
      t.execution.Active ∧ t' = t.moved move := by
  obtain ⟨move, hmove, rfl⟩ := Option.map_eq_some_iff.1 h
  exact ⟨move, Execution.makes_of_step hmove, Execution.active_of_step hmove, rfl⟩

theorem wait_inv {instant : Nat} (h : t.advance S (.wait instant) = some t') :
    t' = { t with now := instant } ∧ t.now < instant ∧
      t.execution.step S t.now t.cancelled t.breaker = none ∧
      ∃ wake, t.execution.wake? = some wake ∧ instant ≤ wake := by
  rw [advance] at h
  split at h
  · cases h
  · rename_i wake hwake
    split at h
    · rename_i hpasses
      cases h
      exact ⟨rfl, hpasses.2.1, Option.isNone_iff_eq_none.1 hpasses.1, wake, hwake, hpasses.2.2⟩
    · cases h

theorem returns_snoc (ts : History α) (x : Transition (Trial α) Label) :
    returns (ts ++ [x]) = returns ts ++ (return? x).toList :=
  filterMap_snoc _ _ _

/-- The breaker has seen the outcomes of the calls that have returned and what others have done. -/
theorem breaker_of_trace (ht : Trace (advance S) (.start since cancelled b) ts t) :
    t.breaker = b.replay S.thresholds (events ts) := by
  induction ht with
  | nil => rfl
  | @snoc ts t t' label _ hstep ih =>
      rw [events, filterMap_snoc, Circuit.Breaker.replay_append, ← events, ← ih]
      cases label with
      | act =>
          obtain ⟨move, hmakes, -, rfl⟩ := act_inv hstep
          have hbreaker := hmakes.breaker_eq
          simp only [event?, return?, Option.map_map]
          exact hbreaker
      | wait instant =>
          obtain ⟨rfl, -⟩ := wait_inv hstep
          rfl
      | cancel | other =>
          cases hstep
          rfl

/-! ## The timetable -/

/-- When a call is due: the first one from the start on, any other one when the wait after the call
before is over.  No wait is longer than timers allow. -/
def Due (S : Setting α) (since : Nat) (rs : List Return) : Nat → Nat → Prop
  | 0, instant => instant = since
  | n + 1, instant => ∃ r ∈ rs, r.number = n ∧
      instant = Nanos.ceilMillis (r.instant + min (S.policy.backoff n) Nanos.timerLimit)

theorem Due.mono {rs : List Return} {n instant : Nat} (h : Due S since rs n instant)
    (rs' : List Return) : Due S since (rs ++ rs') n instant := by
  cases n with
  | zero => exact h
  | succ n =>
      obtain ⟨r, hr, hnumber, hinstant⟩ := h
      exact ⟨r, List.mem_append_left _ hr, hnumber, hinstant⟩

theorem Due.dvd {rs : List Return} {n instant : Nat} (h : Due S since rs n instant)
    (hstart : Nanos.perMilli ∣ since) : Nanos.perMilli ∣ instant := by
  cases n with
  | zero =>
      rw [show instant = since from h]
      exact hstart
  | succ n =>
      obtain ⟨r, -, -, rfl⟩ := h
      exact Nanos.ceilMillis_dvd _

/-- When a call returns that starts at an instant. -/
def endOf (S : Setting α) (call : Nat × Nat) : Nat :=
  Nanos.wakeAt call.2 (S.call call.1 call.2).latency

/-- How long some calls take together. -/
def latencies (S : Setting α) : List (Nat × Nat) → Nat
  | [] => 0
  | call :: calls => endOf S call - call.2 + latencies S calls

/-- Where an execution stands that keeps to the timetable. -/
def PhaseOnTime (S : Setting α) (since : Nat) (rs : List Return) (t : Trial α) : Phase α → Prop
  | .ready _ => Due S since rs t.execution.attempts t.now
  | .calling wake reply => t.now ≤ wake ∧
      ∃ instant, (t.execution.attempts, instant) ∈ t.calls ∧
        reply = S.call t.execution.attempts instant ∧ wake = endOf S (t.execution.attempts, instant)
  | .waiting _ wake => t.now ≤ wake ∧ Due S since rs t.execution.attempts wake
  | .done _ => True
  | .crashed _ => True

/-- An execution whose calls have started and returned by the timetable, and which has waited no
longer than its policy allows. -/
structure OnTime (S : Setting α) (since : Nat) (ts : History α) (t : Trial α) : Prop where
  phase : PhaseOnTime S since (returns ts) t t.execution.phase
  calls : ∀ call ∈ t.calls, Due S since (returns ts) call.1 call.2
  returned : ∀ r ∈ returns ts, ∃ instant, (r.number, instant) ∈ t.calls ∧
    r.instant = endOf S (r.number, instant)
  bound : t.execution.wake?.getD t.now ≤ since + latencies S t.calls +
    min t.execution.attempts S.policy.maxRetries * Nanos.ceilMillis S.policy.maxDelay

namespace OnTime

theorem initial : OnTime S since [] (start since cancelled b) where
  phase := rfl
  calls call hcall := by cases hcall
  returned r hr := by cases hr
  bound := Nat.le_trans (Nat.le_add_right _ _) (Nat.le_add_right _ _)

/-- The clock does not pass the instant for which an execution waits. -/
theorem now_le (h : OnTime S since ts t) : t.now ≤ t.execution.wake?.getD t.now := by
  have hphase := h.phase
  unfold Execution.wake?
  split
  · rename_i wake reply hat
    rw [hat] at hphase
    exact hphase.1
  · rename_i failure wake hat
    rw [hat] at hphase
    exact hphase.1
  · exact Nat.le_refl _

/-- A step that starts no call leaves the timetable of the calls as it was. -/
theorem of_step (h : OnTime S since ts t) {x : Transition (Trial α) Label}
    (hcalls : t'.calls = t.calls)
    (hreturn : ∀ r ∈ return? x, ∃ instant, (r.number, instant) ∈ t.calls ∧
      r.instant = endOf S (r.number, instant))
    (hphase : PhaseOnTime S since (returns (ts ++ [x])) t' t'.execution.phase)
    (hbound : t'.execution.wake?.getD t'.now ≤ since + latencies S t.calls +
      min t'.execution.attempts S.policy.maxRetries * Nanos.ceilMillis S.policy.maxDelay) :
    OnTime S since (ts ++ [x]) t' := by
  refine ⟨hphase, ?_, ?_, hcalls ▸ hbound⟩
  · rw [returns_snoc, hcalls]
    exact fun call hcall => (h.calls call hcall).mono _
  · rw [returns_snoc, hcalls]
    intro r hr
    rcases List.mem_append.1 hr with hold | hnew
    · exact h.returned r hold
    · exact hreturn r (Option.mem_toList.1 hnew)

/-- An execution that is left alone stands where it stood. -/
theorem of_frame (h : OnTime S since ts t) {x : Transition (Trial α) Label}
    (hreturn : return? x = none) (hnow : t'.now = t.now) (hexecution : t'.execution = t.execution)
    (hcalls : t'.calls = t.calls) : OnTime S since (ts ++ [x]) t' := by
  apply h.of_step hcalls
  · simp [hreturn]
  · rw [returns_snoc, hreturn, Option.toList_none, List.append_nil, hexecution]
    have hphase := h.phase
    unfold PhaseOnTime at hphase ⊢
    rw [hnow, hexecution, hcalls]
    exact hphase
  · rw [hnow, hexecution]
    exact h.bound

/-- An execution that ends where it stands has waited no longer than before. -/
theorem of_end (h : OnTime S since ts t) {x : Transition (Trial α) Label}
    (hreturn : ∀ r ∈ return? x, ∃ instant, (r.number, instant) ∈ t.calls ∧
      r.instant = endOf S (r.number, instant))
    (hnow : t'.now = t.now) (hcalls : t'.calls = t.calls)
    (hattempts : t.execution.attempts ≤ t'.execution.attempts) (hended : ¬ t'.execution.Active) :
    OnTime S since (ts ++ [x]) t' := by
  apply h.of_step hcalls hreturn
  · rcases Execution.not_active_iff.1 hended with ⟨outcome, hphase⟩ | ⟨cause, hphase⟩ <;>
    · rw [hphase]
      trivial
  · have hwake : t'.execution.wake? = none :=
      Option.eq_none_iff_forall_ne_some.2 fun wake hwake =>
        hended (Execution.active_of_wake? hwake)
    rw [hwake, hnow]
    have hbound := Nat.le_trans h.now_le h.bound
    have hmore : min t.execution.attempts S.policy.maxRetries ≤
        min t'.execution.attempts S.policy.maxRetries := by omega
    exact Nat.le_trans hbound (Nat.add_le_add_left (Nat.mul_le_mul_right _ hmore) _)

/-- A call that starts when it is due runs for as long as it takes. -/
theorem start_call (h : OnTime S since ts t) {last : Option Failure}
    (hat : t.execution.phase = .ready last) :
    let reply := S.call t.execution.attempts t.now
    let t' := t.moved
      ⟨t.execution.toPhase (.calling (Nanos.wakeAt t.now reply.latency) reply), t.breaker, false⟩
    OnTime S since (ts ++ [⟨t, .act, t'⟩]) t' := by
  intro reply t'
  have hdue : Due S since (returns ts) t.execution.attempts t.now := by
    have hphase := h.phase
    rw [hat] at hphase
    exact hphase
  have hreturns : returns (ts ++ [⟨t, .act, t'⟩]) = returns ts := by
    rw [returns_snoc]
    cases hcancelled : t.cancelled <;>
      simp [return?, Execution.returned?, hat, hcancelled]
  have hcalls : t'.calls = (t.execution.attempts, t.now) :: t.calls := rfl
  have hlater : t.now ≤ Nanos.wakeAt t.now reply.latency :=
    Nat.le_trans (Nat.le_add_right _ _) (Nanos.le_wakeAt t.now reply.latency)
  rw [← hreturns] at hdue
  refine ⟨?_, ?_, ?_, ?_⟩
  · exact ⟨hlater, t.now, List.mem_cons_self, rfl, rfl⟩
  · intro call hcall
    rw [hcalls] at hcall
    rcases List.mem_cons.1 hcall with rfl | hold
    · exact hdue
    · rw [hreturns]
      exact h.calls call hold
  · rw [hreturns]
    intro r hr
    obtain ⟨instant, hmem, hinstant⟩ := h.returned r hr
    exact ⟨instant, List.mem_cons_of_mem _ hmem, hinstant⟩
  · have hbound := h.bound
    have hwaits : t.execution.wake? = none := by rw [Execution.wake?, hat]
    rw [hwaits, Option.getD_none] at hbound
    have hlatency : latencies S t'.calls =
        Nanos.wakeAt t.now reply.latency - t.now + latencies S t.calls := rfl
    have hattempts : t'.execution.attempts = t.execution.attempts := rfl
    rw [hattempts, hlatency]
    show Nanos.wakeAt t.now reply.latency ≤ _
    omega

/-- A call that has answered has ended by the timetable, and the wait after it is no longer than the
longest one. -/
theorem settle_call (h : OnTime S since ts t) (hjitter : S.policy.jitter = 0.0)
    (hstart : Nanos.perMilli ∣ since) {wake : Nat} {reply : Reply α}
    (hat : t.execution.phase = .calling wake reply) (hrun : t.cancelled = false)
    (hdue : wake ≤ t.now) :
    let t' := t.moved (t.execution.settle S t.now t.breaker reply)
    OnTime S since (ts ++ [⟨t, .act, t'⟩]) t' := by
  intro t'
  obtain ⟨instant, hmem, hend⟩ : ∃ instant, (t.execution.attempts, instant) ∈ t.calls ∧
      t.now = endOf S (t.execution.attempts, instant) := by
    have hphase := h.phase
    rw [hat] at hphase
    obtain ⟨hle, instant, hmem, -, hend⟩ := hphase
    exact ⟨instant, hmem, (Nat.le_antisymm hle hdue).trans hend⟩
  have hcalls : t'.calls = t.calls := by
    simp [t', moved, Execution.settle_isCalling]
  have hreturn : ∀ r ∈ return? ⟨t, .act, t'⟩,
      r.number = t.execution.attempts ∧ r.instant = t.now := by
    intro r hr
    obtain ⟨ok, -, rfl⟩ := Option.map_eq_some_iff.1 hr
    exact ⟨rfl, rfl⟩
  have hnew : ∀ r ∈ return? ⟨t, .act, t'⟩, ∃ instant, (r.number, instant) ∈ t.calls ∧
      r.instant = endOf S (r.number, instant) := by
    intro r hr
    obtain ⟨hnumber, hinstant⟩ := hreturn r hr
    rw [hnumber, hinstant]
    exact ⟨instant, hmem, hend⟩
  have hends (hattempts : t.execution.attempts ≤ t'.execution.attempts)
      (hended : ¬ t'.execution.Active) : OnTime S since (ts ++ [⟨t, .act, t'⟩]) t' :=
    h.of_end hnew rfl hcalls hattempts hended
  cases hanswer : reply.answer with
  | value a | crash text =>
      apply hends <;> simp [t', moved, Execution.settle, hanswer, Execution.Active]
  | fault chain =>
      have hattempts : t'.execution.attempts = t.execution.attempts + 1 := by
        simp [t', moved, Execution.settle, hanswer]
      have hphase' : t'.execution.phase = _ := Execution.phase_settle hanswer
      rw [Policy.delay_of_jitter_eq_zero _ _ _ hjitter] at hphase'
      split at hphase'
      · exact hends (by omega) (by simp [Execution.Active, hphase'])
      · rename_i hretries
        simp only at hphase'
        have hfew : t.execution.attempts + 1 ≤ S.policy.maxRetries :=
          Nat.lt_of_not_le fun hmany => hretries (Setting.givesUp_iff.2 (.inl hmany))
        have hsaid : return? ⟨t, .act, t'⟩ = some ⟨t.execution.attempts, t.now, false⟩ := by
          simp [return?, Execution.returned?, hat, hrun, hanswer, Answer.ok?]
        have haligned : Nanos.perMilli ∣ t.now := by
          rw [hend]
          exact Nanos.wakeAt_dvd ((h.calls _ hmem).dvd hstart) _
        apply h.of_step hcalls hnew
        · rw [hphase', PhaseOnTime, hattempts, returns_snoc, hsaid]
          refine ⟨Nat.le_trans (Nat.le_add_right _ _) (Nanos.le_wakeAt _ _), ?_⟩
          exact ⟨_, List.mem_append_right _ List.mem_cons_self, rfl, Nanos.wakeAt_eq haligned _⟩
        · have hbound := Nat.le_trans h.now_le h.bound
          have hwait := Nanos.wakeAt_le haligned
            (Policy.backoff_le_maxDelay S.policy t.execution.attempts)
          have hwake' : t'.execution.wake? =
              some (Nanos.wakeAt t.now (S.policy.backoff t.execution.attempts)) := by
            rw [Execution.wake?, hphase']
          rw [Nat.min_eq_left (by omega)] at hbound
          rw [hwake', Option.getD_some, hattempts, Nat.min_eq_left hfew, Nat.succ_mul]
          omega

/-- A move keeps an execution to the timetable. -/
theorem act (h : OnTime S since ts t) (hjitter : S.policy.jitter = 0.0)
    (hstart : Nanos.perMilli ∣ since) (hstep : t.advance S .act = some t') :
    OnTime S since (ts ++ [⟨t, .act, t'⟩]) t' := by
  obtain ⟨move, hmakes, -, rfl⟩ := act_inv hstep
  cases hmakes with
  | interrupt hcancelled =>
      refine h.of_end ?_ rfl rfl (Nat.le_refl _) fun hactive => hactive
      simp [return?, Execution.returned?, hcancelled]
  | start hat => exact h.start_call hat
  | refuse hat hrun =>
      refine h.of_end ?_ rfl rfl (Nat.le_refl _) fun hactive => hactive
      simp [return?, Execution.returned?, hat, hrun]
  | answer hat hrun hdue => exact h.settle_call hjitter hstart hat hrun hdue
  | @resume failure wake hat hrun hdue =>
      have hreturn : return? ⟨t, .act, t.moved ⟨t.execution.toPhase (.ready (some failure)),
          t.breaker, false⟩⟩ = none := by
        simp [return?, Execution.returned?, hat, hrun]
      have hphase := h.phase
      rw [hat] at hphase
      obtain ⟨hle, hnext⟩ := hphase
      refine h.of_step rfl (by simp [hreturn]) ?_ (Nat.le_trans h.now_le h.bound)
      rw [returns_snoc, hreturn, Option.toList_none, List.append_nil]
      rw [← Nat.le_antisymm hle hdue] at hnext
      exact hnext

/-- Time passes while an execution waits, and not beyond the instant for which it does. -/
theorem wait (h : OnTime S since ts t) {instant : Nat}
    (hstep : t.advance S (.wait instant) = some t') :
    OnTime S since (ts ++ [⟨t, .wait instant, t'⟩]) t' := by
  obtain ⟨rfl, -, -, wake, hwake, hle⟩ := wait_inv hstep
  have hphase := h.phase
  have hbound := h.bound
  rw [hwake] at hbound
  refine h.of_step rfl (by simp [return?]) ?_ ?_
  · rw [returns_snoc, show return? ⟨t, .wait instant, { t with now := instant }⟩ = none from rfl,
      Option.toList_none, List.append_nil]
    rw [Execution.wake?] at hwake
    show PhaseOnTime S since (returns ts) { t with now := instant } t.execution.phase
    cases hat : t.execution.phase with
    | calling wake' reply =>
        rw [hat] at hwake hphase
        cases hwake
        exact ⟨hle, hphase.2⟩
    | waiting failure wake' =>
        rw [hat] at hwake hphase
        cases hwake
        exact ⟨hle, hphase.2⟩
    | ready | done | crashed => simp [hat] at hwake
  · show t.execution.wake?.getD instant ≤ _
    rw [hwake]
    exact hbound

end OnTime

/-- Every execution whose waits have no random share keeps to the timetable. -/
theorem onTime_of_trace (hjitter : S.policy.jitter = 0.0) (hstart : Nanos.perMilli ∣ since)
    (ht : Trace (advance S) (.start since cancelled b) ts t) : OnTime S since ts t := by
  induction ht with
  | nil => exact .initial
  | @snoc ts t t' label _ hstep ih =>
      cases label with
      | act => exact ih.act hjitter hstart hstep
      | wait instant => exact ih.wait hstep
      | cancel | other =>
          cases hstep
          exact ih.of_frame rfl rfl rfl rfl

/-- Only a call takes an execution down whose waits have no random share. -/
theorem crash_of_trace (hjitter : S.policy.jitter = 0.0) (hstart : Nanos.perMilli ∣ since)
    (ht : Trace (advance S) (.start since cancelled b) ts t) {cause : Crash}
    (hcrashed : t.execution.phase = .crashed cause) :
    ∃ n instant text, (S.call n instant).answer = .crash text := by
  induction ht with
  | nil => cases hcrashed
  | @snoc ts t t' label hs hstep ih =>
      cases label with
      | act =>
          have hphase := (onTime_of_trace hjitter hstart hs).phase
          obtain ⟨move, hmakes, -, rfl⟩ := act_inv hstep
          have hdown : move.execution.phase = .crashed cause := hcrashed
          cases hmakes with
          | interrupt | start | refuse | resume => cases hdown
          | @answer wake reply hat =>
              rw [hat] at hphase
              obtain ⟨-, instant, -, rfl, -⟩ := hphase
              cases hanswer : (S.call t.execution.attempts instant).answer with
              | value a => simp [Execution.settle, hanswer] at hdown
              | crash text => exact ⟨_, instant, text, hanswer⟩
              | fault chain =>
                  rw [Execution.phase_settle hanswer,
                    Policy.delay_of_jitter_eq_zero _ _ _ hjitter] at hdown
                  split at hdown <;> cases hdown
      | wait instant =>
          obtain ⟨rfl, -⟩ := wait_inv hstep
          exact ih hcrashed
      | cancel | other =>
          cases hstep
          exact ih hcrashed

/-! ## Every call once -/

/-- The calls start in the order of their numbers, and they return in it. -/
theorem numbers_of_trace (ht : Trace (advance S) (.start since cancelled b) ts t) :
    (∃ k, t.calls.reverse.map Prod.fst = List.range k ∧ t.execution.Begun k) ∧
      (returns ts).map Return.number = List.range t.execution.attempts := by
  induction ht with
  | nil => exact ⟨⟨0, rfl, rfl⟩, rfl⟩
  | @snoc ts t t' label _ hstep ih =>
      cases label with
      | act =>
          obtain ⟨⟨k, hcalls, hbegun⟩, hreturns⟩ := ih
          obtain ⟨move, hmakes, -, rfl⟩ := act_inv hstep
          refine ⟨?_, ?_⟩
          · rcases hmakes.begun hbegun with ⟨hcalling, -, hk, hbegun'⟩ | ⟨hidle, hbegun'⟩
            · refine ⟨k + 1, ?_, hbegun'⟩
              rw [List.range_succ, ← hcalls, hk]
              simp [moved, hcalling]
            · refine ⟨k, ?_, hbegun'⟩
              rw [← hcalls]
              simp [moved, hidle]
          · rw [returns_snoc, List.map_append, hreturns]
            have hattempts : (t.moved move).execution.attempts = _ := hmakes.attempts_eq
            rw [hattempts]
            cases hreturned : t.execution.returned? t.cancelled with
            | none => simp [return?, hreturned]
            | some ok => simp [return?, hreturned, List.range_succ]
      | wait instant =>
          obtain ⟨rfl, -⟩ := wait_inv hstep
          rw [returns_snoc]
          simpa [return?] using ih
      | cancel | other =>
          cases hstep
          rw [returns_snoc]
          simpa [return?] using ih

/-- What has happened has happened by now. -/
theorem past_of_trace (ht : Trace (advance S) (.start since cancelled b) ts t) :
    (∀ call ∈ t.calls, call.2 ≤ t.now) ∧ ∀ r ∈ returns ts, r.instant ≤ t.now := by
  induction ht with
  | nil => exact ⟨fun call hcall => (by cases hcall), fun r hr => (by cases hr)⟩
  | @snoc ts t t' label _ hstep ih =>
      obtain ⟨hcalls, hreturns⟩ := ih
      rw [returns_snoc]
      cases label with
      | act =>
          obtain ⟨move, -, -, rfl⟩ := act_inv hstep
          refine ⟨fun call hcall => ?_, fun r hr => ?_⟩
          · simp only [moved] at hcall
            split at hcall
            · rcases List.mem_cons.1 hcall with rfl | hold
              · exact Nat.le_refl _
              · exact hcalls call hold
            · exact hcalls call hcall
          · rcases List.mem_append.1 hr with hold | hnew
            · exact hreturns r hold
            · obtain ⟨ok, -, rfl⟩ := Option.map_eq_some_iff.1 (Option.mem_toList.1 hnew)
              exact Nat.le_refl _
      | wait instant =>
          obtain ⟨rfl, hlater, -⟩ := wait_inv hstep
          refine ⟨fun call hcall => ?_, fun r hr => ?_⟩
          · exact Nat.le_of_lt (Nat.lt_of_le_of_lt (hcalls call hcall) hlater)
          · rw [show return? ⟨t, .wait instant, { t with now := instant }⟩ = none from rfl,
              Option.toList_none, List.append_nil] at hr
            exact Nat.le_of_lt (Nat.lt_of_le_of_lt (hreturns r hr) hlater)
      | cancel | other =>
          cases hstep
          refine ⟨hcalls, fun r hr => hreturns r ?_⟩
          simpa [return?] using hr

/-- No two calls have the same number. -/
theorem call_eq_of_number (ht : Trace (advance S) (.start since cancelled b) ts t)
    {call call' : Nat × Nat} (hcall : call ∈ t.calls) (hcall' : call' ∈ t.calls)
    (hnumber : call.1 = call'.1) : call = call' := by
  obtain ⟨⟨k, hnumbers, -⟩, -⟩ := numbers_of_trace ht
  have hnodup : (t.calls.reverse.map Prod.fst).Nodup := by
    rw [hnumbers]
    exact List.nodup_range
  exact List.inj_on_of_nodup_map hnodup (List.mem_reverse.2 hcall) (List.mem_reverse.2 hcall')
    hnumber

/-! ## Cancellation -/

/-- An execution that is cancelled has a move, and it ends in it. -/
theorem act_of_cancelled (hcancelled : t.cancelled = true) (hactive : t.execution.Active) :
    t.advance S .act =
      some (t.moved ⟨t.execution.toPhase (.done (.error .cancelled)), t.breaker, false⟩) := by
  rw [advance, hcancelled]
  unfold Execution.Active at hactive
  unfold Execution.step
  cases hphase : t.execution.phase with
  | ready | calling | waiting => rfl
  | done | crashed => simp [hphase] at hactive

/-- Once an execution is cancelled, no call starts, none returns, and no time passes. -/
theorem halted_of_trace {m : Trial α} (ht : Trace (advance S) m ts t)
    (hcancelled : m.cancelled = true) :
    t.cancelled = true ∧ t.now = m.now ∧ t.calls = m.calls ∧ returns ts = [] ∧
      (t.execution = m.execution ∨ t.execution.phase = .done (.error .cancelled)) := by
  induction ht with
  | nil => exact ⟨hcancelled, rfl, rfl, rfl, .inl rfl⟩
  | @snoc ts t t' label _ hstep ih =>
      obtain ⟨hstill, hnow, hcalls, hreturns, hplace⟩ := ih
      rw [returns_snoc, hreturns]
      cases label with
      | act =>
          obtain ⟨move, -, hgoes, -⟩ := act_inv hstep
          rw [act_of_cancelled hstill hgoes] at hstep
          cases hstep
          refine ⟨by simp [moved, hstill], hnow, hcalls, ?_, .inr rfl⟩
          simp [return?, Execution.returned?, hstill]
      | wait instant =>
          obtain ⟨-, -, hnone, wake, hwake, -⟩ := wait_inv hstep
          have hact := act_of_cancelled (S := S) hstill (Execution.active_of_wake? hwake)
          rw [advance, hnone] at hact
          cases hact
      | cancel =>
          cases hstep
          exact ⟨rfl, hnow, hcalls, rfl, hplace⟩
      | other what =>
          cases hstep
          exact ⟨hstill, hnow, hcalls, rfl, hplace⟩

end Trial
end Retry
end LoadGen
