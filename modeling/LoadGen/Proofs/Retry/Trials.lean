import LoadGen.Proofs.Retry.Timeline

/-!
# Trials

A trial carries out one execution on the clock, and nobody else uses the breaker meanwhile.  It
comes to its end, and what happens on the way is among what can happen to an execution on the clock.

* `Trial.step_inv`, `Trial.trace_of_run` — what a step of a trial can be, and what a trial goes
  through.
* `Trial.steps_lt`, `Trial.run_ends` — a trial comes to its end.
* `Trial.Timetable`, `Trial.CutOff`, `Trial.Untouched` — what is known of executions on the clock,
  of cancelled ones, and of those that begin cancelled.
* `Trial.timetable_of_trace` — all of this, without a random share of the waits.
* `Trial.timetable_of_trace_overlong` — a wait that is longer than timers allow is cut short.
-/

namespace LoadGen
namespace Retry
namespace Trial

variable {α : Type} {S : Setting α} {since : Nat} {cancelled : Bool} {b : Circuit.Breaker}
  {t t' : Trial α} {ts : History α} {cancelAt : Option Nat}

/-! ## What a trial runs through -/

/-- Nobody else uses the breaker. -/
def Alone (ts : History α) : Prop :=
  ∀ x ∈ ts, ∀ what, x.label ≠ .other what

/-- If nobody else uses the breaker, it sees the outcomes of the calls that return. -/
theorem Alone.events_eq (h : Alone ts) : events ts = (returns ts).map Return.event := by
  unfold events returns
  rw [List.map_filterMap]
  apply List.filterMap_congr
  intro x hx
  have hnot := h x hx
  unfold event?
  split
  · rename_i what hlabel
    exact absurd hlabel (hnot what)
  · rfl

/-- When the cancellation of a trial is still to fire. -/
def pending (t : Trial α) (cancelAt : Option Nat) : Option Nat :=
  if t.cancelled then none else cancelAt

theorem step_eq (S : Setting α) (cancelAt : Option Nat) (t : Trial α) : t.step S cancelAt =
    if (t.pending cancelAt).any (· ≤ t.now) then some { t with cancelled := true }
    else match t.execution.step S t.now t.cancelled t.breaker with
      | some move => some (t.moved move)
      | none =>
        match t.execution.wake? with
        | some wake => (soonest (wake :: (t.pending cancelAt).toList)).map fun now => { t with now }
        | none => none :=
  rfl

/-- What a step of a trial can be: the cancellation that is due, a move of the execution, or a wait
for the next instant at which something happens. -/
theorem step_inv (h : t.step S cancelAt = some t') :
    ((t.pending cancelAt).any (· ≤ t.now) = true ∧ t' = { t with cancelled := true }) ∨
      (∃ move, t.execution.step S t.now t.cancelled t.breaker = some move ∧ t' = t.moved move) ∨
      ((t.pending cancelAt).any (· ≤ t.now) = false ∧
        t.execution.step S t.now t.cancelled t.breaker = none ∧
        ∃ wake instant, t.execution.wake? = some wake ∧
          soonest (wake :: (t.pending cancelAt).toList) = some instant ∧
          t' = { t with now := instant }) := by
  rw [step_eq] at h
  split at h
  · cases h
    exact .inl ⟨‹_›, rfl⟩
  · rename_i hpending
    split at h
    · cases h
      exact .inr (.inl ⟨_, ‹_›, rfl⟩)
    · split at h
      · rename_i wake hwake
        obtain ⟨instant, hsoonest, rfl⟩ := Option.map_eq_some_iff.1 h
        exact .inr (.inr ⟨Bool.eq_false_iff.2 hpending, ‹_›, wake, instant, hwake, hsoonest, rfl⟩)
      · cases h

/-- Time passes in a trial until the execution has a move again, or until it is cancelled. -/
theorem later_of_soonest {wake instant : Nat}
    (hnone : t.execution.step S t.now t.cancelled t.breaker = none)
    (hpending : (t.pending cancelAt).any (· ≤ t.now) = false)
    (hwake : t.execution.wake? = some wake)
    (hsoonest : soonest (wake :: (t.pending cancelAt).toList) = some instant) :
    t.now < instant := by
  rcases List.mem_cons.1 (soonest_mem hsoonest) with rfl | hcancel
  · rcases Execution.waits_of_step_eq_none hnone with
      ⟨outcome, hdone⟩ | ⟨cause, hcrashed⟩ | ⟨-, wake', hwake', hlater⟩
    · simp [Execution.wake?, hdone] at hwake
    · simp [Execution.wake?, hcrashed] at hwake
    · cases hwake.symm.trans hwake'
      exact hlater
  · rw [Option.mem_toList] at hcancel
    rw [hcancel] at hpending
    simpa using hpending

/-- A step of a trial is one of the things that can happen to an execution on the clock. -/
theorem advance_of_step (h : t.step S cancelAt = some t') :
    ∃ label, t.advance S label = some t' ∧ (∀ what, label ≠ .other what) ∧
      (label = .cancel → ∃ instant ∈ t.pending cancelAt, instant ≤ t.now) := by
  rcases step_inv h with ⟨hpending, rfl⟩ | ⟨move, hmove, rfl⟩ |
    ⟨hpending, hnone, wake, instant, hwake, hsoonest, rfl⟩
  · refine ⟨.cancel, rfl, by simp, fun _ => ?_⟩
    simpa [Option.any_eq_true] using hpending
  · refine ⟨.act, ?_, by simp, by simp⟩
    rw [advance, hmove]
    rfl
  · refine ⟨.wait instant, ?_, by simp, by simp⟩
    have hle : instant ≤ wake := soonest_le hsoonest List.mem_cons_self
    rw [advance, hwake]
    simp [hnone, later_of_soonest hnone hpending hwake hsoonest, hle]

/-- The cancellation of a trial fires when it is due, or at the start if that is later. -/
def FiresAt (since : Nat) (cancelAt : Option Nat) (ts : History α) : Prop :=
  ∀ x ∈ ts, x.label = .cancel →
    ∃ instant, cancelAt = some instant ∧ x.source.now = max since instant

/-- Until a trial is cancelled, the clock does not pass the instant at which it is to be. -/
theorem now_le_of_step (h : t.step S cancelAt = some t') (hsince : since ≤ t.now)
    (hearly : ∀ instant ∈ t.pending cancelAt, t.now ≤ max since instant) :
    since ≤ t'.now ∧ ∀ instant ∈ t'.pending cancelAt, t'.now ≤ max since instant := by
  rcases step_inv h with ⟨-, rfl⟩ | ⟨move, -, rfl⟩ |
    ⟨hpending, hnone, wake, instant, hwake, hsoonest, rfl⟩
  · exact ⟨hsince, fun instant hinstant => by cases hinstant⟩
  · refine ⟨hsince, fun instant hinstant => hearly instant ?_⟩
    unfold pending moved at hinstant
    unfold pending
    cases hcancelled : t.cancelled with
    | true => simp [hcancelled] at hinstant
    | false =>
        cases hcancels : move.cancels with
        | true => simp [hcancels] at hinstant
        | false => simpa [hcancelled, hcancels] using hinstant
  · have hlater := later_of_soonest hnone hpending hwake hsoonest
    refine ⟨Nat.le_trans hsince (Nat.le_of_lt hlater), fun instant' hinstant => ?_⟩
    have hle := soonest_le hsoonest (List.mem_cons_of_mem _ (Option.mem_toList.2 hinstant))
    exact Nat.le_trans hle (Nat.le_max_right _ _)

/-- What a trial runs through is a history of an execution on the clock. -/
theorem trace_of_run (S : Setting α) (cancelAt : Option Nat) (since : Nat) (cancelled : Bool)
    (b : Circuit.Breaker) :
    let t := run S cancelAt (.start since cancelled b)
    ∃ ts, Trace (advance S) (.start since cancelled b) ts t ∧ Alone ts ∧
      FiresAt since cancelAt ts := by
  let P := fun t : Trial α => (∃ ts, Trace (advance S) (.start since cancelled b) ts t ∧ Alone ts ∧
      FiresAt since cancelAt ts) ∧
    since ≤ t.now ∧ ∀ instant ∈ t.pending cancelAt, t.now ≤ max since instant
  have hrun : P (run S cancelAt (.start since cancelled b)) := by
    refine iterate_induction ?_ _ _ ⟨⟨[], .nil, ?_, ?_⟩, Nat.le_refl _, ?_⟩
    · rintro t₁ t₂ hstep ⟨⟨ts, ht, halone, hfires⟩, hsince, hearly⟩
      obtain ⟨label, hlabel, hnot, hcancel⟩ := advance_of_step hstep
      refine ⟨⟨_, ht.snoc hlabel, ?_, ?_⟩, now_le_of_step hstep hsince hearly⟩
      · intro x hx
        rcases List.mem_append.1 hx with hold | hlast
        · exact halone x hold
        · rw [List.mem_singleton.1 hlast]
          exact hnot
      · intro x hx
        rcases List.mem_append.1 hx with hold | hlast
        · exact hfires x hold
        · rw [List.mem_singleton.1 hlast]
          intro hfired
          obtain ⟨instant, hinstant, hdue⟩ := hcancel hfired
          refine ⟨instant, ?_, ?_⟩
          · unfold pending at hinstant
            split at hinstant
            · cases hinstant
            · exact hinstant
          · exact Nat.le_antisymm (hearly instant hinstant) (Nat.max_le.2 ⟨hsince, hdue⟩)
    · exact fun x hx => by cases hx
    · exact fun x hx => by cases hx
    · exact fun instant _ => Nat.le_max_left _ _
  exact hrun.1

/-! ## The end of a trial -/

/-- Whether the next step is a wait. -/
def idle (S : Setting α) (cancelAt : Option Nat) (t : Trial α) : Bool :=
  (t.execution.step S t.now t.cancelled t.breaker).isNone && !(t.pending cancelAt).any (· ≤ t.now)

/-- How many steps a trial has left at most: each move of the execution and the cancellation may
come after a wait. -/
def steps (S : Setting α) (cancelAt : Option Nat) (t : Trial α) : Nat :=
  2 * (t.execution.effort S.policy.maxRetries + (t.pending cancelAt).toList.length) +
    if t.idle S cancelAt then 1 else 0

theorem steps_bounds (S : Setting α) (cancelAt : Option Nat) (t : Trial α) :
    2 * (t.execution.effort S.policy.maxRetries + (t.pending cancelAt).toList.length) ≤
        t.steps S cancelAt ∧
      t.steps S cancelAt ≤
        2 * (t.execution.effort S.policy.maxRetries + (t.pending cancelAt).toList.length) + 1 := by
  unfold steps
  split <;> omega

/-- After a wait something is due. -/
theorem idle_of_wait {wake instant : Nat} (hwake : t.execution.wake? = some wake)
    (hsoonest : soonest (wake :: (t.pending cancelAt).toList) = some instant) :
    idle S cancelAt { t with now := instant } = false := by
  refine Bool.eq_false_iff.2 fun hidle => ?_
  obtain ⟨hnone, hpending⟩ := Bool.and_eq_true_iff.1 hidle
  have hearly : (t.pending cancelAt).any (decide <| · ≤ instant) = false := by
    rw [show t.pending cancelAt = pending { t with now := instant } cancelAt from rfl]
    simpa using hpending
  have hlater := later_of_soonest (t := { t with now := instant })
    (Option.isNone_iff_eq_none.1 hnone) hearly hwake hsoonest
  exact Nat.lt_irrefl _ hlater

/-- Each step takes away from the number of those that are left. -/
theorem steps_lt (h : t.step S cancelAt = some t') : t'.steps S cancelAt < t.steps S cancelAt := by
  have hmost := (steps_bounds S cancelAt t').2
  have hleast := (steps_bounds S cancelAt t).1
  rcases step_inv h with ⟨hpending, rfl⟩ | ⟨move, hmove, rfl⟩ |
    ⟨hpending, hnone, wake, instant, hwake, hsoonest, rfl⟩
  · have hsome : 0 < (t.pending cancelAt).toList.length := by
      cases hcancel : t.pending cancelAt with
      | none => simp [hcancel] at hpending
      | some instant => exact Nat.one_pos
    have hnone : (pending { t with cancelled := true } cancelAt).toList.length = 0 := rfl
    have hsame : ({ t with cancelled := true } : Trial α).execution = t.execution := rfl
    rw [hnone, hsame] at hmost
    omega
  · have heffort := (Execution.makes_of_step hmove).effort_lt (Execution.active_of_step hmove)
    have hfewer : ((t.moved move).pending cancelAt).toList.length ≤
        (t.pending cancelAt).toList.length := by
      unfold pending moved
      cases t.cancelled <;> cases move.cancels <;> simp
    have hexecution : (t.moved move).execution = move.execution := rfl
    rw [hexecution] at hmost
    omega
  · have hstill : t.idle S cancelAt = true := by
      rw [idle, hnone, hpending]
      rfl
    have hdue : idle S cancelAt { t with now := instant } = false := idle_of_wait hwake hsoonest
    unfold steps
    rw [hstill, hdue]
    exact Nat.lt_succ_self _

/-- A trial goes on while its execution has not ended. -/
theorem exists_step (hactive : t.execution.Active) : t.step S cancelAt ≠ none := by
  intro hend
  rw [step_eq] at hend
  split at hend
  · cases hend
  split at hend
  · cases hend
  · rename_i hnone
    rcases Execution.waits_of_step_eq_none hnone with hdone | hcrashed | ⟨-, wake, hwake, -⟩
    · exact Execution.not_active_iff.2 (.inl hdone) hactive
    · exact Execution.not_active_iff.2 (.inr hcrashed) hactive
    · rw [hwake] at hend
      have hsome := soonest_isSome_of_mem
        (List.mem_cons_self (a := wake) (l := (t.pending cancelAt).toList))
      simp only [Option.map_eq_none_iff] at hend
      rw [hend] at hsome
      cases hsome

/-- A trial comes to its end. -/
theorem run_ends (S : Setting α) (cancelAt : Option Nat) (since : Nat) (cancelled : Bool)
    (b : Circuit.Breaker) : ¬ (run S cancelAt (start since cancelled b)).execution.Active := by
  have hbound : steps S cancelAt (start since cancelled b) ≤ eventBound S := by
    have hmost := (steps_bounds S cancelAt (start since cancelled b)).2
    have heffort : (start (α := α) since cancelled b).execution.effort S.policy.maxRetries =
        3 * (S.policy.maxRetries + 1) + 2 := rfl
    have hpending : ((start (α := α) since cancelled b).pending cancelAt).toList.length ≤ 1 := by
      unfold pending
      split
      · exact Nat.zero_le 1
      · cases cancelAt <;> simp
    unfold eventBound
    omega
  intro hactive
  exact exists_step hactive (iterate_ends (fun _ _ hstep => steps_lt hstep) hbound)

/-! ## What is known of executions on the clock -/

/-- When the calls of an execution start and return, how long it takes, and what the breaker
sees. -/
structure Timetable (S : Setting α) (since : Nat) (b : Circuit.Breaker) (ts : History α)
    (t : Trial α) : Prop where
  first : ∀ instant, (0, instant) ∈ t.calls → instant = since
  next : ∀ n instant, (n + 1, instant) ∈ t.calls → ∃ r ∈ returns ts, r.number = n ∧
    instant = Nanos.ceilMillis (r.instant + min (S.policy.backoff n) Nanos.timerLimit)
  returned : ∀ r ∈ returns ts, ∃ instant, (r.number, instant) ∈ t.calls ∧
    r.instant = endOf S (r.number, instant)
  started_once : ∃ k, t.calls.reverse.map Prod.fst = List.range k
  returned_once : (returns ts).map Return.number = List.range t.execution.attempts
  duration : t.now ≤
    since + latencies S t.calls + S.policy.maxRetries * Nanos.ceilMillis S.policy.maxDelay
  breaker : t.breaker = b.replay S.thresholds (events ts)

/-- At this instant no call of an execution starts, and none is to return. -/
def Apart (S : Setting α) (t : Trial α) : Prop :=
  ∀ call ∈ t.calls, call.2 ≠ t.now ∧ endOf S call ≠ t.now

/-- An execution that is about to end as cancelled, or has. -/
def Halts (S : Setting α) (t : Trial α) : Prop :=
  t.execution.phase = .done (.error .cancelled) ∨
    ∃ t', t.advance S .act = some t' ∧ t'.now = t.now ∧
      t'.execution.phase = .done (.error .cancelled)

/-- What becomes of an execution that is cancelled at `m`: it ends at that very instant, starts no
call any more, and leaves on the breaker one outcome of every call that had returned. -/
structure CutOff (S : Setting α) (b : Circuit.Breaker) (before : History α) (m : Trial α)
    (ts : History α) (t : Trial α) : Prop where
  instant : t.now = m.now
  halts : t.Halts S
  calls : t.calls = m.calls
  started : m.Apart S → ∀ call ∈ t.calls, call.2 < m.now
  returns : returns ts = returns before
  counted : m.Apart S → ∀ call ∈ t.calls,
    ((∃ r ∈ Trial.returns ts, r.number = call.1) ↔ endOf S call < m.now)
  breaker : Alone ts → t.breaker = b.replay S.thresholds ((Trial.returns ts).map Return.event)

/-- What becomes of an execution that begins cancelled: nothing. -/
structure Untouched (S : Setting α) (since : Nat) (b : Circuit.Breaker) (ts : History α)
    (t : Trial α) : Prop where
  instant : t.now = since
  halts : t.Halts S
  calls : t.calls = []
  returns : returns ts = []
  breaker : Alone ts → t.breaker = b

/-- An execution that is cancelled and has not moved since is about to end. -/
theorem halts_of_cancelled (hcancelled : t.cancelled = true) (hactive : t.execution.Active) :
    t.Halts S :=
  .inr ⟨_, act_of_cancelled hcancelled hactive, rfl, rfl⟩

theorem timetable (hjitter : S.policy.jitter = 0.0) (hstart : Nanos.perMilli ∣ since)
    (ht : Trace (advance S) (.start since cancelled b) ts t) : Timetable S since b ts t := by
  have honTime := onTime_of_trace hjitter hstart ht
  obtain ⟨⟨k, hcalls, -⟩, hreturns⟩ := numbers_of_trace ht
  refine ⟨?_, ?_, honTime.returned, ⟨k, hcalls⟩, hreturns, ?_, breaker_of_trace ht⟩
  · exact fun instant hcall => honTime.calls _ hcall
  · exact fun n instant hcall => honTime.calls _ hcall
  · refine Nat.le_trans (Nat.le_trans honTime.now_le honTime.bound) (Nat.add_le_add_left ?_ _)
    exact Nat.mul_le_mul_right _ (Nat.min_le_right _ _)

/-- Of the calls of an execution that goes on, those have returned that were to return by now. -/
theorem returned_iff (hjitter : S.policy.jitter = 0.0) (hstart : Nanos.perMilli ∣ since)
    (ht : Trace (advance S) (.start since cancelled b) ts t) (hactive : t.execution.Active)
    (hapart : t.Apart S) {call : Nat × Nat} (hcall : call ∈ t.calls) :
    (∃ r ∈ returns ts, r.number = call.1) ↔ endOf S call < t.now := by
  have honTime := onTime_of_trace hjitter hstart ht
  obtain ⟨⟨k, hcalls, hbegun⟩, hreturns⟩ := numbers_of_trace ht
  constructor
  · rintro ⟨r, hr, hnumber⟩
    obtain ⟨instant, hmem, hinstant⟩ := honTime.returned r hr
    obtain rfl := call_eq_of_number ht hmem hcall hnumber
    have hle := (past_of_trace ht).2 r hr
    rw [hinstant] at hle
    exact Nat.lt_of_le_of_ne hle (hapart _ hcall).2
  · intro hpast
    have hlt : call.1 < k := by
      rw [← List.mem_range, ← hcalls]
      exact List.mem_map_of_mem (List.mem_reverse.2 hcall)
    -- The only call that can be missing is the one under way, and it has not returned yet.
    have hcounted : call.1 < t.execution.attempts := by
      have hphase := honTime.phase
      unfold Execution.Active at hactive
      unfold Execution.Begun at hbegun
      cases hat : t.execution.phase with
      | ready | waiting =>
          rw [hat] at hbegun
          exact hbegun ▸ hlt
      | calling wake reply =>
          rw [hat] at hbegun hphase
          obtain ⟨hle, instant, hmem, -, rfl⟩ := hphase
          rw [show k = t.execution.attempts + 1 from hbegun] at hlt
          apply Nat.lt_of_le_of_ne (Nat.le_of_lt_succ hlt)
          intro hlast
          obtain rfl := call_eq_of_number ht hcall hmem hlast
          exact Nat.not_lt_of_le hle hpast
      | done | crashed => simp [hat] at hactive
    have hmem : call.1 ∈ (returns ts).map Return.number := by
      rw [hreturns]
      exact List.mem_range.2 hcounted
    exact List.mem_map.1 hmem

theorem cutOff (hjitter : S.policy.jitter = 0.0) (hstart : Nanos.perMilli ∣ since)
    {before after : History α} {x : Transition (Trial α) Label}
    (ht : Trace (advance S) (.start since cancelled b) (before ++ x :: after) t)
    (hlabel : x.label = .cancel) (hactive : x.source.execution.Active) :
    CutOff S b before x.source (before ++ x :: after) t := by
  obtain ⟨hbefore, hstep, hafter⟩ := ht.split_at
  rw [hlabel] at hstep
  obtain ⟨m, label, m'⟩ := x
  obtain rfl : label = .cancel := hlabel
  obtain rfl : m' = { m with cancelled := true } := (Option.some.inj hstep).symm
  obtain ⟨hcancelled, hnow, hcalls, hreturns, hplace⟩ := halted_of_trace hafter rfl
  have hsame : returns (before ++ ⟨m, .cancel, { m with cancelled := true }⟩ :: after) =
      returns before := by
    have hnone : return? ⟨m, .cancel, { m with cancelled := true }⟩ = none := rfl
    rw [returns, List.filterMap_append, List.filterMap_cons, hnone, ← returns, ← returns, hreturns]
    exact List.append_nil _
  have hpast := (past_of_trace hbefore).1
  refine ⟨hnow, ?_, hcalls, ?_, hsame, ?_, ?_⟩
  · rcases hplace with hstill | hdone
    · exact halts_of_cancelled hcancelled (hstill ▸ hactive)
    · exact .inl hdone
  · intro hapart call hcall
    rw [hcalls] at hcall
    exact Nat.lt_of_le_of_ne (hpast call hcall) (hapart call hcall).1
  · intro hapart call hcall
    rw [hcalls] at hcall
    rw [hsame]
    exact returned_iff hjitter hstart hbefore hactive hapart hcall
  · intro halone
    rw [breaker_of_trace ht, halone.events_eq]

theorem untouched (ht : Trace (advance S) (.start since true b) ts t) :
    Untouched S since b ts t := by
  obtain ⟨hcancelled, hnow, hcalls, hreturns, hplace⟩ := halted_of_trace ht rfl
  refine ⟨hnow, ?_, hcalls, hreturns, ?_⟩
  · rcases hplace with hstill | hdone
    · exact halts_of_cancelled hcancelled (by rw [hstill]; trivial)
    · exact .inl hdone
  · intro halone
    rw [breaker_of_trace ht, halone.events_eq, hreturns]
    rfl

/-- Without a random share of the waits, the first call of an execution starts at once and every
other one when the wait after the call before is over, which is no longer than timers allow.  So
however the calls go and whatever others do to the breaker, an execution takes no longer than its
calls and the longest waits.  One that is cancelled ends as cancelled at that very instant: it starts
no call any more, and the breaker has one outcome of every call that had returned.  One that begins
cancelled makes no call and leaves the breaker alone.  A trial goes through such a history, in which
it is cancelled when it is to be, and it comes to its end, with an outcome unless a call takes it
down. -/
theorem timetable_of_trace (S : Setting α) (hjitter : S.policy.jitter = 0.0) {since : Nat}
    (hstart : Nanos.perMilli ∣ since) (b : Circuit.Breaker) :
    (∀ {cancelled : Bool} {ts : History α} {t : Trial α},
      Trace (advance S) (.start since cancelled b) ts t → Timetable S since b ts t) ∧
      (∀ {cancelled : Bool} {before after : History α} {x : Transition (Trial α) Label}
        {t : Trial α}, Trace (advance S) (.start since cancelled b) (before ++ x :: after) t →
          x.label = .cancel → x.source.execution.Active →
            CutOff S b before x.source (before ++ x :: after) t) ∧
      (∀ {ts : History α} {t : Trial α}, Trace (advance S) (.start since true b) ts t →
        Untouched S since b ts t) ∧
      ∀ (cancelAt : Option Nat) (cancelled : Bool),
        let t := run S cancelAt (.start since cancelled b)
        (∃ ts, Trace (advance S) (.start since cancelled b) ts t ∧ Alone ts ∧
            FiresAt since cancelAt ts) ∧
          ((∀ n instant text, (S.call n instant).answer ≠ .crash text) →
            ∃ outcome, t.outcome? = some outcome) := by
  refine ⟨timetable hjitter hstart, cutOff hjitter hstart, untouched, ?_⟩
  intro cancelAt cancelled t
  obtain ⟨ts, ht, halone, hfires⟩ := trace_of_run S cancelAt since cancelled b
  refine ⟨⟨ts, ht, halone, hfires⟩, fun hsafe => ?_⟩
  have hended : ¬ t.execution.Active := run_ends S cancelAt since cancelled b
  rcases Execution.not_active_iff.1 hended with ⟨outcome, hphase⟩ | ⟨cause, hphase⟩
  · exact ⟨outcome, by rw [outcome?, hphase]⟩
  · obtain ⟨n, instant, text, hcrash⟩ := crash_of_trace hjitter hstart ht hphase
    exact absurd hcrash (hsafe n instant text)

/-- Every call fails after two milliseconds, and the first wait takes one and a half. -/
def balky : Setting Unit where
  policy := { maxRetries := 2, initialDelay := 1500000, jitter := 0.0, retryable := [.unknown] }
  thresholds := {}
  classifier := .empty
  draw := fun _ => 0.0
  call := fun _ _ => { latency := 2000000, answer := .fault ⟨["refused"]⟩ }

/-- What happens until the middle of the second call. -/
def untilSecondCall : List Label :=
  [.act, .wait 2000000, .act, .wait 4000000, .act, .act, .wait 5000000]

/-- The third call starts three milliseconds after the second one has returned.  An execution that
is cancelled during the second call ends there, with one outcome on the breaker. -/
theorem timetable_of_trace_balky :
    (∃ ts, Trace (advance balky) (.start 0 false {}) ts (run balky none (.start 0 false {})) ∧
      (run balky none (.start 0 false {})).calls = [(2, 9000000), (1, 4000000), (0, 0)] ∧
      ∃ r ∈ returns ts, r.number = 1 ∧ 9000000 = Nanos.ceilMillis (r.instant + 3000000)) ∧
      ∃ (before : History Unit) (m : Trial Unit),
        Trace (advance balky) (.start 0 false {}) before m ∧ m.now = 5000000 ∧
          ∀ (after : History Unit) (t : Trial Unit),
            Trace (advance balky) { m with cancelled := true } after t →
              t.now = 5000000 ∧ t.calls = [(1, 4000000), (0, 0)] ∧
                returns (before ++ ⟨m, .cancel, { m with cancelled := true }⟩ :: after) =
                  [⟨0, 2000000, false⟩] := by
  obtain ⟨htable, hcut, -, hrun⟩ := timetable_of_trace balky rfl (Nat.dvd_zero _) {}
  constructor
  · obtain ⟨⟨ts, ht, -⟩, -⟩ := hrun none false
    have hcalls : (run balky none (.start 0 false {})).calls =
        [(2, 9000000), (1, 4000000), (0, 0)] := by
      decide +kernel
    obtain ⟨r, hr, hnumber, hinstant⟩ := (htable ht).next 1 9000000 (by rw [hcalls]; simp)
    have hwait : min (balky.policy.backoff 1) Nanos.timerLimit = 3000000 := by decide +kernel
    rw [hwait] at hinstant
    exact ⟨ts, ht, hcalls, r, hr, hnumber, hinstant⟩
  · have hseen : (Trace.drive (advance balky) (.start 0 false {}) untilSecondCall).map
        (fun r => (r.2.now, r.2.calls, r.2.execution.isCalling, returns r.1)) =
          some (5000000, [(1, 4000000), (0, 0)], true, [⟨0, 2000000, false⟩]) := by
      decide +kernel
    obtain ⟨⟨before, m⟩, hdrive, hwhat⟩ := Option.map_eq_some_iff.1 hseen
    simp only [Prod.mk.injEq] at hwhat
    obtain ⟨hnow, hcalls, hcalling, hreturns⟩ := hwhat
    have hbefore := Trace.of_drive hdrive
    have hactive : m.execution.Active := by
      unfold Execution.isCalling at hcalling
      unfold Execution.Active
      split at hcalling
      · simp [‹m.execution.phase = _›]
      · cases hcalling
    refine ⟨before, m, hbefore, hnow, fun after t hafter => ?_⟩
    have hwhole := hbefore.append
      (.cons (x := ⟨m, .cancel, { m with cancelled := true }⟩) rfl hafter)
    have hends := hcut hwhole rfl hactive
    exact ⟨hends.instant.trans hnow, hends.calls.trans hcalls, hends.returns.trans hreturns⟩

/-- The only wait would be of more than thirty years. -/
def overlong : Setting Unit :=
  { balky with
    policy :=
      { maxRetries := 1
        initialDelay := 1000000000000000000
        maxDelay := 1000000000000000000
        jitter := 0.0
        retryable := [.unknown] } }

/-- The wait is cut short. -/
theorem timetable_of_trace_overlong :
    ∃ (ts : History Unit) (t : Trial Unit) (r : Return) (instant : Nat),
      Trace (advance overlong) (.start 0 false {}) ts t ∧ r ∈ returns ts ∧ r.number = 0 ∧
        (1, instant) ∈ t.calls ∧
        instant ≠ Nanos.ceilMillis (r.instant + overlong.policy.backoff 0) := by
  have hseen : (Trace.drive (advance overlong) (.start 0 false {})
      [.act, .wait 2000000, .act, .wait 946080000002000000, .act, .act]).map
        (fun r => (r.2.calls, returns r.1)) =
          some ([(1, 946080000002000000), (0, 0)], [⟨0, 2000000, false⟩]) := by
    decide +kernel
  obtain ⟨⟨ts, t⟩, hdrive, hwhat⟩ := Option.map_eq_some_iff.1 hseen
  simp only [Prod.mk.injEq] at hwhat
  obtain ⟨hcalls, hreturns⟩ := hwhat
  refine ⟨ts, t, ⟨0, 2000000, false⟩, 946080000002000000, Trace.of_drive hdrive, ?_, rfl, ?_, ?_⟩
  · rw [hreturns]
    exact List.mem_cons_self
  · rw [hcalls]
    exact List.mem_cons_self
  · decide +kernel

end Trial
end Retry
end LoadGen
