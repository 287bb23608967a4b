import LoadGen.Data.Iterate
import LoadGen.Data.Soonest
import LoadGen.Run.Step

/-!
# Running a run

A run is carried out one step at a time.  A task goes on until it has no step, and then the others
are asked in turn.  The supervisor is asked when no other task has a step, and when it has none
either, the clock jumps to the next instant at which something happens.

* `turn` — the next step and where to look for the one after it.
* `run` — a run from its first step to its last; `reachable_run` says that it is one of the
  runs that `step` allows.
* `State.outcome?` — what a finished run came to.
-/

namespace LoadGen
namespace Run

/-- How many tasks are asked in turn. -/
def Plan.tasks (p : Plan) : Nat :=
  p.workers + 2

/-- The tasks in the order in which they are asked for a step. -/
def Plan.actor (p : Plan) (n : Nat) : Actor :=
  if n = 0 then .collector
  else if n ≤ p.workers then .worker (n - 1)
  else .generator

/-- The first task from `cursor` on that has a step, with the state after it; `left` tasks
are still to be asked. -/
def stepFrom (p : Plan) (s : State) (cursor : Nat) : Nat → Option (State × Nat)
  | 0 => none
  | left + 1 =>
    let n := cursor % p.tasks
    match step p s (.act (p.actor n)) with
    | some s' => some (s', n)
    | none => stepFrom p s (cursor + 1) left

/-- When the caller's cancellation is still to fire. -/
def State.pendingCancel (s : State) (cancelAt : Option Nat) : Option Nat :=
  if s.callerCancelled then none else cancelAt

/-- The next step of a run whose caller cancels it at the instant `cancelAt`, if ever.  The cursor
is the place of the task that stepped last. -/
def turn (p : Plan) (cancelAt : Option Nat) (t : State × Nat) : Option (State × Nat) :=
  let (s, cursor) := t
  if s.supervisor = .finished then none
  -- A cancellation that is due comes before every other step of its instant.
  else if (s.pendingCancel cancelAt).any (· ≤ s.now) then
    (step p s .cancel).map fun s' => (s', cursor)
  else match stepFrom p s cursor p.tasks with
    | some next => some next
    | none =>
      match step p s (.act .supervisor) with
      | some s' => some (s', cursor)
      | none =>
        match soonest ((s.pendingCancel cancelAt).toList ++ s.wakes p) with
        | some instant => (step p s (.wait instant)).map fun s' => (s', cursor)
        | none => none

/-- An upper bound on the number of turns.  Making a job, handing it on and recording it takes a
dozen steps, each call three more, and each of them may be preceded by a wait. -/
def Plan.turnBound (p : Plan) : Nat :=
  2 * (p.total * (16 + 4 * (p.policy.maxRetries + 2)) + 8 * p.workers + 32)

/-- The state in which a run ends.  The tasks are first asked in the order collector,
workers, generator. -/
def run (p : Plan) (cancelAt : Option Nat) (s : State) : State :=
  (iterate (turn p cancelAt) p.turnBound (s, 0)).1

/-- The counts of a run that ended well. -/
structure Result where
  workers : Nat
  /-- Jobs that entered the queue. -/
  dispatched : Nat
  /-- Jobs whose result was handed to the collector. -/
  completed : Nat
  succeeded : Nat
  failed : Nat
  /-- How long the run took, in nanoseconds. -/
  duration : Nat
  deriving DecidableEq, Repr

/-- What a finished run came to: the task that died, or the counts. -/
def State.outcome? (p : Plan) (s : State) : Option (Except Task Result) :=
  match s.supervisor with
  | .finished =>
    match s.failure with
    | some task => some (.error task)
    | none =>
      some (.ok
        { workers := p.workers
          dispatched := s.dispatched
          completed := s.completed
          succeeded := s.succeeded
          failed := s.failed
          duration := s.now - p.started })
  | _ => none

theorem reachable_stepFrom {p : Plan} {s₀ s : State} (hs : Reachable p s₀ s) (cursor left : Nat)
    {next : State × Nat} (h : stepFrom p s cursor left = some next) : Reachable p s₀ next.1 := by
  induction left generalizing cursor with
  | zero => simp [stepFrom] at h
  | succ left ih =>
    unfold stepFrom at h
    simp only at h
    split at h
    · rename_i s' hstep
      cases h
      exact .step _ hs hstep
    · exact ih _ h

theorem reachable_turn {p : Plan} {cancelAt : Option Nat} {s₀ : State} {t t' : State × Nat}
    (hs : Reachable p s₀ t.1) (h : turn p cancelAt t = some t') : Reachable p s₀ t'.1 := by
  obtain ⟨s, cursor⟩ := t
  unfold turn at h
  simp only at h
  split at h
  · simp at h
  · split at h
    · obtain ⟨s', hstep, rfl⟩ := Option.map_eq_some_iff.1 h
      exact .step _ hs hstep
    · split at h
      · rename_i next hnext
        cases h
        exact reachable_stepFrom hs _ _ hnext
      · split at h
        · rename_i s' hstep
          cases h
          exact .step _ hs hstep
        · split at h
          · obtain ⟨s', hstep, rfl⟩ := Option.map_eq_some_iff.1 h
            exact .step _ hs hstep
          · simp at h

/-- The state in which a run ends is reachable by steps. -/
theorem reachable_run (p : Plan) (cancelAt : Option Nat) (s : State) :
    Reachable p s (run p cancelAt s) :=
  iterate_induction (P := fun t => Reachable p s t.1) (fun _ _ h hs => reachable_turn hs h)
    _ _ .refl

end Run
end LoadGen
