import LoadGen.Proofs.Run.Termination
import LoadGen.Run.Schedule

/-!
# Carrying out a run

A run is carried out turn by turn, and it is given a number of turns.  Each turn is a step of a task,
the cancellation, or a wait after which one of these is due.  So the number of turns is enough, and
what a run leads to is its end.

* `turn_inv`, `waits_of_turn` — what a turn can be, and why there is none.
* `State.turns` — how many turns are left at most; `turns_lt` says that each takes away from it.
* `run_ends` — a run that is carried out has finished, unless it is deserted.
-/

namespace LoadGen
namespace Run

variable {p : Plan} {cancelled : Bool} {b : Circuit.Breaker} {l : Ledger} {s s' : State}
  {cancelAt : Option Nat} {cursor cursor' : Nat}

/-! ## Turns -/

theorem act_of_stepFrom {left : Nat} {next : State × Nat}
    (h : stepFrom p s cursor left = some next) : ∃ actor, step p s (.act actor) = some next.1 := by
  induction left generalizing cursor with
  | zero => cases h
  | succ left ih =>
      simp only [stepFrom] at h
      split at h
      · cases h
        exact ⟨_, ‹_›⟩
      · exact ih h

/-- What a turn can be: a step of a task, the cancellation, or a wait for the next instant at which
something happens. -/
theorem turn_inv (h : turn p cancelAt (s, cursor) = some (s', cursor')) :
    (∃ actor, step p s (.act actor) = some s') ∨ step p s .cancel = some s' ∨
      ((s.pendingCancel cancelAt).any (· ≤ s.now) = false ∧
        ∃ instant ∈ (s.pendingCancel cancelAt).toList ++ s.wakes p,
          step p s (.wait instant) = some s') := by
  simp only [turn] at h
  split at h
  · cases h
  · split at h
    · obtain ⟨next, hstep, heq⟩ := Option.map_eq_some_iff.1 h
      cases heq
      exact .inr (.inl hstep)
    · rename_i hpending
      split at h
      · rename_i next hnext
        cases h
        exact .inl (act_of_stepFrom hnext)
      · split at h
        · cases h
          exact .inl ⟨.supervisor, ‹_›⟩
        · split at h
          · rename_i instant hsoonest
            obtain ⟨next, hstep, heq⟩ := Option.map_eq_some_iff.1 h
            cases heq
            exact .inr (.inr ⟨Bool.eq_false_iff.2 hpending, instant, soonest_mem hsoonest, hstep⟩)
          · cases h

theorem none_of_stepFrom {left : Nat} (h : stepFrom p s cursor left = none) {k : Nat}
    (hk : k < left) : step p s (.act (p.actor ((cursor + k) % p.tasks))) = none := by
  induction left generalizing cursor k with
  | zero => exact absurd hk (Nat.not_lt_zero k)
  | succ left ih =>
      simp only [stepFrom] at h
      split at h
      · cases h
      · rename_i hnone
        cases k with
        | zero => exact hnone
        | succ k =>
            have hrest := ih h (Nat.lt_of_succ_lt_succ hk)
            rwa [Nat.add_assoc, Nat.add_comm 1 k] at hrest

/-- When all tasks have been asked for a step in turn, none has been left out. -/
theorem none_of_tasks (h : stepFrom p s cursor p.tasks = none) {n : Nat} (hn : n < p.tasks) :
    step p s (.act (p.actor n)) = none := by
  have hpos : 0 < p.tasks := Nat.succ_pos _
  -- From the cursor on, this one comes up in the first round.
  have hahead : cursor ≤ n + p.tasks * cursor :=
    Nat.le_trans (Nat.le_mul_of_pos_left cursor hpos) (Nat.le_add_left _ _)
  have hturn : (cursor + (n + p.tasks * cursor - cursor) % p.tasks) % p.tasks = n := by
    rw [Nat.add_mod_mod, Nat.add_sub_cancel' hahead, Nat.add_mul_mod_self_left, Nat.mod_eq_of_lt hn]
  have hnone := none_of_stepFrom h (Nat.mod_lt (n + p.tasks * cursor - cursor) hpos)
  rwa [hturn] at hnone

theorem quiet_of_asked (hsize : s.workers.size = p.workers)
    (hfrom : stepFrom p s cursor p.tasks = none)
    (hsupervisor : step p s (.act .supervisor) = none) (actor : Actor) :
    stepActor p s actor = none := by
  cases actor with
  | supervisor => exact hsupervisor
  | collector => exact none_of_tasks hfrom (Nat.succ_pos _)
  | generator =>
      have hlast : p.actor (p.workers + 1) = .generator := by simp [Plan.actor]
      have hnone := none_of_tasks hfrom (Nat.lt_succ_self (p.workers + 1))
      rwa [hlast] at hnone
  | worker i =>
      rcases Nat.lt_or_ge i p.workers with hi | hi
      · have hplace : p.actor (i + 1) = .worker i := by
          simp [Plan.actor, Nat.succ_le_of_lt hi]
        have hnone := none_of_tasks hfrom (n := i + 1) (by show i + 1 < p.workers + 2; omega)
        rwa [hplace] at hnone
      · have habsent : s.workers[i]? = none := Array.getElem?_eq_none (hsize ▸ hi)
        simp [stepActor, stepWorker, habsent]

/-- There is no turn when the run has finished, or when no task has a step or waits for time to
pass. -/
theorem waits_of_turn (h : turn p cancelAt (s, cursor) = none) (hsize : s.workers.size = p.workers) :
    s.supervisor = .finished ∨
      ((∀ actor, stepActor p s actor = none) ∧ ∀ wake, wake ∉ s.wakes p) := by
  simp only [turn] at h
  split at h
  · exact .inl ‹_›
  refine .inr ?_
  split at h
  · rename_i hpending
    -- A cancellation that is due can happen.
    have hcaller : s.callerCancelled = false := by
      cases hcaller : s.callerCancelled with
      | false => rfl
      | true => simp [State.pendingCancel, hcaller] at hpending
    simp [step, hcaller] at h
  · rename_i hpending
    split at h
    · cases h
    · rename_i hfrom
      split at h
      · cases h
      · rename_i hsupervisor
        have hquiet := quiet_of_asked hsize hfrom hsupervisor
        refine ⟨hquiet, fun wake hwake => ?_⟩
        split at h
        · rename_i instant hsoonest
          have hlater : s.now < instant := by
            rcases List.mem_append.1 (soonest_mem hsoonest) with hcancel | hwakes
            · rw [Option.mem_toList] at hcancel
              rw [hcancel] at hpending
              simpa using hpending
            · exact lt_of_mem_wakes hquiet hwakes
          have hwait := wait_of_quiet hquiet hlater fun u hu =>
            soonest_le hsoonest (List.mem_append_right _ hu)
          simp [hwait] at h
        · rename_i hnone
          have hsome := soonest_isSome_of_mem (List.mem_append_right
            (s.pendingCancel cancelAt).toList hwake)
          rw [hnone] at hsome
          cases hsome

/-! ## The number of turns -/

/-- Whether the next turn is a wait. -/
def State.idle (p : Plan) (cancelAt : Option Nat) (s : State) : Bool :=
  quiet p s && !(s.pendingCancel cancelAt).any (· ≤ s.now)

/-- How many turns there are left at most: each event may come after a wait. -/
def State.turns (p : Plan) (cancelAt : Option Nat) (s : State) : Nat :=
  2 * s.events p + if s.idle p cancelAt then 1 else 0

theorem turns_le (p : Plan) (cancelAt : Option Nat) (s : State) :
    s.turns p cancelAt ≤ 2 * s.events p + 1 := by
  unfold State.turns
  split
  · exact Nat.le_refl _
  · exact Nat.le_succ _

/-- After a wait something is due. -/
theorem idle_of_wait {instant : Nat}
    (hnext : instant ∈ (s.pendingCancel cancelAt).toList ++ s.wakes p) :
    State.idle p cancelAt { s with now := instant } = false := by
  refine Bool.eq_false_iff.2 fun hidle => ?_
  obtain ⟨hstill, hpending⟩ := Bool.and_eq_true_iff.1 hidle
  rcases List.mem_append.1 hnext with hcancel | hwake
  · have hsome : State.pendingCancel { s with now := instant } cancelAt = some instant :=
      Option.mem_toList.1 hcancel
    rw [hsome] at hpending
    simp at hpending
  · have hlater := lt_of_mem_wakes (s := { s with now := instant }) (quiet_iff.1 hstill) hwake
    exact Nat.lt_irrefl _ hlater

/-- Each turn takes away from the number of those that are left. -/
theorem turns_lt (h : turn p cancelAt (s, cursor) = some (s', cursor')) :
    s'.turns p cancelAt < s.turns p cancelAt := by
  have hevent {label : Label} (hstep : step p s label = some s')
      (hlabel : ∀ instant, label ≠ .wait instant) : s'.turns p cancelAt < s.turns p cancelAt := by
    have hle := turns_le p cancelAt s'
    rcases events_of_step hstep with hless | ⟨instant, hwait, -⟩
    · unfold State.turns at hle ⊢
      omega
    · exact absurd hwait (hlabel instant)
  rcases turn_inv h with ⟨actor, hact⟩ | hcancel | ⟨hpending, instant, hnext, hwait⟩
  · exact hevent hact (by simp)
  · exact hevent hcancel (by simp)
  · obtain ⟨rfl, -, hquiet, -⟩ := wait_inv hwait
    have hidle : s.idle p cancelAt = true := by
      rw [State.idle, quiet_iff.2 hquiet, hpending]
      rfl
    rw [State.turns, State.turns, idle_of_wait hnext, hidle]
    exact Nat.lt_succ_self _

/-- A run that is carried out comes to its end, unless it is deserted. -/
theorem run_ends (p : Plan) (cancelAt : Option Nat) (cancelled : Bool) (b : Circuit.Breaker)
    (l : Ledger) : (run p cancelAt (.initial p cancelled b l)).supervisor = .finished ∨
      Deserted p (run p cancelAt (.initial p cancelled b l)) := by
  have hturns : (State.initial p cancelled b l).turns p cancelAt ≤ p.turnBound := by
    have hle := turns_le p cancelAt (.initial p cancelled b l)
    have hevents : (State.initial p cancelled b l).events p ≤
        p.total * (p.jobEffort + 4) + 2 * p.workers + 7 := by
      rw [State.events, effort_initial]
      split <;> omega
    have hjobs : p.total * (p.jobEffort + 4) ≤
        p.total * (16 + 4 * (p.policy.maxRetries + 2)) := by
      apply Nat.mul_le_mul_left
      unfold Plan.jobEffort
      omega
    unfold Plan.turnBound
    omega
  have hend : turn p cancelAt
      (iterate (turn p cancelAt) p.turnBound (.initial p cancelled b l, 0)) = none := by
    refine iterate_ends (fun t t' h => ?_) (m := fun t => t.1.turns p cancelAt) hturns
    exact turns_lt h
  obtain ⟨ts, ht⟩ := trace_of_reachable (reachable_run p cancelAt (.initial p cancelled b l))
  unfold run at ht ⊢
  generalize iterate (turn p cancelAt) p.turnBound (.initial p cancelled b l, 0) = t at ht hend ⊢
  obtain ⟨s, cursor⟩ := t
  rcases waits_of_turn hend (size_workers_of_trace ht) with hfinished | ⟨hquiet, htimeless⟩
  · exact .inl hfinished
  · by_cases hfinished : s.supervisor = .finished
    · exact .inl hfinished
    · rcases progress_of_trace ht hfinished with
        (⟨actor, s', hact⟩ | ⟨wake, hwake, -⟩) | hdeserted
      · cases (hquiet actor).symm.trans hact
      · exact absurd hwake (htimeless wake)
      · exact .inr hdeserted

end Run
end LoadGen
