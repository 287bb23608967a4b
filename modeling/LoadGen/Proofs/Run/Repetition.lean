import LoadGen.Proofs.Run.Postponed

/-!
# Runs that match

Two runs match when they have taken the same steps after the same times and have come to the same,
the absolute instants aside.  A run that begins a whole number of milliseconds later, with a breaker
that stands the same way, has a matching history for every history, and no others; and when both
are carried out, what comes out is the same.

* `Breaker.Alike` — two breakers that stand the same way, each seen from its own instant.
* `Matches`, `exists_later`, `exists_earlier` — matching histories.
* `run_postpone` — the run that is carried out.
-/

namespace LoadGen

namespace Circuit
namespace Breaker

/-- Seen from `now`, one breaker stands as the other one does seen from `now'`. -/
structure Alike (b : Breaker) (now : Nat) (b' : Breaker) (now' : Nat) : Prop where
  state : b.state = b'.state
  failures : b.failures = b'.failures
  successes : b.successes = b'.successes
  openedAt : b.openedAt.map (fun t : Nat => (t : Int) - now) =
    b'.openedAt.map fun t : Nat => (t : Int) - now'

variable {b b' : Breaker} {now now' d : Nat}

theorem Alike.symm (h : b.Alike now b' now') : b'.Alike now' b now :=
  ⟨h.state.symm, h.failures.symm, h.successes.symm, h.openedAt.symm⟩

theorem alike_postpone (b : Breaker) (now d : Nat) : b.Alike now (b.postpone d) (d + now) := by
  refine ⟨rfl, rfl, rfl, ?_⟩
  rw [postpone, Option.map_map]
  congr 1
  funext t
  simp only [Function.comp_apply]
  omega

theorem Alike.eq_postpone (h : b.Alike now b' (d + now)) : b' = b.postpone d := by
  obtain ⟨state, failures, successes, openedAt⟩ := b
  obtain ⟨state', failures', successes', openedAt'⟩ := b'
  obtain ⟨rfl, rfl, rfl, hopened⟩ := h
  rw [postpone]
  congr 1
  cases openedAt with
  | none => exact Option.map_eq_none_iff.1 hopened.symm
  | some t =>
      obtain ⟨t', rfl, ht⟩ := Option.map_eq_some_iff.1 hopened.symm
      have hsame : (t' : Int) - (d + now : Nat) = t - now := ht
      simp only [Option.map_some, Option.some.injEq]
      omega

end Breaker
end Circuit

namespace Run

variable {p : Plan} {s : State} {d : Nat} {draw : Nat → Nat → Float} {cancelled : Bool}
  {b : Circuit.Breaker} {l l' : Ledger} {ts : History}

/-! ## Matching histories -/

/-- A label of a run that begins at `start`, with the time since then in place of an instant. -/
def Label.since (start : Nat) : Label → Label
  | .act actor => .act actor
  | .wait instant => .wait (instant - start)
  | .cancel => .cancel

/-- Two runs have taken the same steps after the same times, and have come to the same. -/
structure Matches (p : Plan) (ts : History) (s : State) (p' : Plan) (ts' : History) (s' : State) :
    Prop where
  steps : ts.map (fun x => x.label.since p.started) = ts'.map fun x => x.label.since p'.started
  elapsed : s.now - p.started = s'.now - p'.started
  outcome : s.outcome? p = s'.outcome? p'
  view : s.ledger.view s.now = s'.ledger.view s'.now
  calls : s.calls = s'.calls
  breaker : s.breaker.Alike s.now s'.breaker s'.now

theorem Matches.symm {p' : Plan} {ts' : History} {s' : State} (h : Matches p ts s p' ts' s') :
    Matches p' ts' s' p ts s :=
  ⟨h.steps.symm, h.elapsed.symm, h.outcome.symm, h.view.symm, h.calls.symm, h.breaker.symm⟩

theorem outcome?_postpone : (s.postpone d).outcome? (p.postpone d draw) = s.outcome? p := by
  unfold State.outcome?
  rw [postpone_supervisor, postpone_now, postpone_started, Nat.add_sub_add_left]
  cases s.supervisor <;> rfl

theorem matches_postpone (p : Plan) (ts : History) (s : State) :
    Matches p ts s (p.postpone d draw)
      (ts.map fun x => ⟨x.source.postpone d, x.label.postpone d, x.target.postpone d⟩)
      (s.postpone d) where
  steps := by
    rw [List.map_map]
    congr 1
    funext x
    cases hlabel : x.label with
    | wait instant =>
        simp only [Function.comp_apply, hlabel, Label.postpone, Label.since, postpone_started,
          Nat.add_sub_add_left]
    | act | cancel => simp only [Function.comp_apply, hlabel, Label.postpone, Label.since]
  elapsed := by rw [postpone_now, postpone_started, Nat.add_sub_add_left]
  outcome := outcome?_postpone.symm
  view := by rw [postpone_ledger, postpone_now, Ledger.view_postpone]
  calls := rfl
  breaker := Circuit.Breaker.alike_postpone s.breaker s.now d

variable (hd : Nanos.perMilli ∣ d) (hjitter : p.policy.jitter = 0.0)
  (hoptions : l'.options = l.options)

include hd hjitter hoptions

/-- Every history has a later one that matches it. -/
theorem exists_later (ht : Trace (lateStep p) (.initial p cancelled b l) ts s) :
    ∃ ts' s', Trace (lateStep (p.postpone d draw))
        (.initial (p.postpone d draw) cancelled (b.postpone d) l') ts' s' ∧
      Matches p ts s (p.postpone d draw) ts' s' := by
  refine ⟨_, _, ?_, matches_postpone p ts s⟩
  rw [← initial_postpone hoptions]
  apply ht.map (State.postpone d) (Label.postpone d)
  intro s label s' hstep
  rw [lateStep_postpone hd hjitter, hstep, Option.map_some]

/-- Every later history matches one. -/
theorem exists_earlier {ts' : History} {s' : State} (ht : Trace (lateStep (p.postpone d draw))
      (.initial (p.postpone d draw) cancelled (b.postpone d) l') ts' s') :
    ∃ ts s, Trace (lateStep p) (.initial p cancelled b l) ts s ∧
      Matches (p.postpone d draw) ts' s' p ts s := by
  rw [← initial_postpone hoptions] at ht
  have himage (s : State) (label' : Label) (t : State)
      (hstep : lateStep (p.postpone d draw) (s.postpone d) label' = some t) :
      ∃ label s', label' = Label.postpone d label ∧ t = State.postpone d s' ∧
        lateStep p s label = some s' := by
    obtain ⟨label, rfl⟩ := exists_label hstep
    rw [lateStep_postpone hd hjitter] at hstep
    obtain ⟨s', hnext, rfl⟩ := Option.map_eq_some_iff.1 hstep
    exact ⟨label, s', rfl, rfl, hnext⟩
  obtain ⟨ts, s, hts, rfl, rfl⟩ := ht.comap (State.postpone d) (Label.postpone d) himage
  exact ⟨ts, s, hts, (matches_postpone p ts s).symm⟩

omit hoptions

/-! ## The run that is carried out -/

omit hd hjitter in
theorem soonest_map (ts : List Nat) : soonest (ts.map (d + ·)) = (soonest ts).map (d + ·) := by
  induction ts with
  | nil => rfl
  | cons t ts ih =>
      simp only [List.map_cons, soonest, ih]
      cases soonest ts with
      | none => rfl
      | some u => simp only [Option.map_some, Nat.add_min_add_left]

omit hd hjitter in
theorem iterate_map {σ σ' : Type} {step : σ → Option σ} {step' : σ' → Option σ'} (f : σ → σ')
    (hstep : ∀ s, step' (f s) = (step s).map f) (n : Nat) (s : σ) :
    iterate step' n (f s) = f (iterate step n s) := by
  induction n generalizing s with
  | zero => rfl
  | succ n ih =>
      rw [iterate, iterate, hstep]
      cases step s with
      | none => rfl
      | some s' => exact ih s'

/-- The same place in the order of the tasks, and the state put off. -/
def postponeTurn (d : Nat) (t : State × Nat) : State × Nat :=
  (t.1.postpone d, t.2)

theorem stepFrom_postpone (cursor left : Nat) :
    stepFrom (p.postpone d draw) (s.postpone d) cursor left =
      (stepFrom p s cursor left).map (postponeTurn d) := by
  induction left generalizing cursor with
  | zero => rfl
  | succ left ih =>
      have htasks : (p.postpone d draw).tasks = p.tasks := rfl
      have hactor (i : Nat) : (p.postpone d draw).actor i = p.actor i := rfl
      have hstep : step (p.postpone d draw) (s.postpone d) (.act (p.actor (cursor % p.tasks))) =
          (step p s (.act (p.actor (cursor % p.tasks)))).map (State.postpone d) :=
        step_postpone hd hjitter (.act _)
      simp only [stepFrom, htasks, hactor, hstep]
      cases step p s (.act (p.actor (cursor % p.tasks))) with
      | some s' => simp only [Option.map_some, postponeTurn]
      | none => simp only [Option.map_none, ih]

omit hd hjitter in
theorem pendingCancel_postpone (cancelAt : Option Nat) :
    (s.postpone d).pendingCancel (cancelAt.map (d + ·)) =
      (s.pendingCancel cancelAt).map (d + ·) := by
  have hcaller : (s.postpone d).callerCancelled = s.callerCancelled := rfl
  unfold State.pendingCancel
  rw [hcaller]
  split <;> rfl

/-- The next turn of a run that is carried out is the same later. -/
theorem turn_postpone (cancelAt : Option Nat) (t : State × Nat) :
    turn (p.postpone d draw) (cancelAt.map (d + ·)) (postponeTurn d t) =
      (turn p cancelAt t).map (postponeTurn d) := by
  obtain ⟨s, cursor⟩ := t
  have hcancel : step (p.postpone d draw) (s.postpone d) .cancel =
      (step p s .cancel).map (State.postpone d) := step_postpone hd hjitter .cancel
  have hsupervisor : step (p.postpone d draw) (s.postpone d) (.act .supervisor) =
      (step p s (.act .supervisor)).map (State.postpone d) := step_postpone hd hjitter (.act _)
  have hwait (instant : Nat) : step (p.postpone d draw) (s.postpone d) (.wait (d + instant)) =
      (step p s (.wait instant)).map (State.postpone d) := step_postpone hd hjitter (.wait instant)
  have hsoonest : soonest (((s.pendingCancel cancelAt).map (d + ·)).toList ++
      (s.wakes p).map (d + ·)) =
        (soonest ((s.pendingCancel cancelAt).toList ++ s.wakes p)).map (d + ·) := by
    rw [← soonest_map, List.map_append, Option.toList_map]
  have htasks : (p.postpone d draw).tasks = p.tasks := rfl
  unfold turn postponeTurn
  simp only
  rw [postpone_supervisor, postpone_now, pendingCancel_postpone, Nanos.any_le_add, hcancel, htasks,
    stepFrom_postpone hd hjitter, hsupervisor, wakes_postpone, hsoonest]
  split
  · rfl
  · split
    · cases step p s .cancel <;> rfl
    · cases stepFrom p s cursor p.tasks with
      | some next => rfl
      | none =>
          cases step p s (.act .supervisor) with
          | some s' => rfl
          | none =>
              cases soonest ((s.pendingCancel cancelAt).toList ++ s.wakes p) with
              | none => rfl
              | some instant =>
                  simp only [Option.map_some, Option.map_none, hwait]
                  cases step p s (.wait instant) <;> rfl

/-- A run that is carried out ends in the same way later. -/
theorem run_postpone (cancelAt : Option Nat) :
    run (p.postpone d draw) (cancelAt.map (d + ·)) (s.postpone d) =
      (run p cancelAt s).postpone d := by
  have hturns : iterate (turn (p.postpone d draw) (cancelAt.map (d + ·))) p.turnBound
      (postponeTurn d (s, 0)) = postponeTurn d (iterate (turn p cancelAt) p.turnBound (s, 0)) :=
    iterate_map (postponeTurn d) (turn_postpone hd hjitter cancelAt) p.turnBound (s, 0)
  exact congrArg Prod.fst hturns

end Run
end LoadGen
