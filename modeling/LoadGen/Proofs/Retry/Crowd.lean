import LoadGen.Proofs.Circuit.Replay
import LoadGen.Proofs.Retry.Moves
import LoadGen.Proofs.Trace
import Mathlib.Tactic.ByContra

/-!
# Executions that share a breaker

Any number of executions share one breaker.  Each makes its moves on its own; between two of them
others move, time passes, executions are begun or cancelled, and somebody may reset the breaker.

* `Crowd`, `Crowd.step` — the executions with their breaker, and what can happen to them.
* `started?`, `returned?` — the calls that are started and the calls that return.
* `happening?` — what a step records on the breaker; `breaker_of_trace` says that this is all the
  breaker has seen.
* `allowed_of_started` — a call starts only if the breaker lets it pass.
* `refused_of_openSince` — an open circuit refuses calls until the timeout is over.
* `counts_of_trace` — every execution makes its calls one after the other.
* `calls_and_outcomes` — all of this about any history of any crowd.
-/

namespace LoadGen
namespace Retry

/-- One of the executions that share a breaker. -/
structure Member (α : Type) where
  setting : Setting α
  /-- Whether it is cancelled. -/
  cancelled : Bool
  execution : Execution α

/-- Executions that share a breaker. -/
structure Crowd (α : Type) where
  now : Nat
  breaker : Circuit.Breaker
  members : List (Member α)

namespace Crowd

variable {α : Type}

/-- What can happen to a crowd. -/
inductive Label (α : Type)
  /-- An execution is begun. -/
  | join (setting : Setting α) (cancelled : Bool)
  /-- Execution `i` makes its move. -/
  | act (i : Nat)
  /-- Execution `i` is cancelled. -/
  | cancel (i : Nat)
  /-- Time passes until `instant`. -/
  | wait (instant : Nat)
  /-- The breaker is reset. -/
  | reset

def start (now : Nat) (b : Circuit.Breaker) : Crowd α :=
  ⟨now, b, []⟩

/-- What a label does to a crowd, where it can happen.  The thresholds are those of the breaker,
which all executions share.  A call that fires the cancellation cancels its own execution. -/
def step (t : Circuit.Thresholds) (s : Crowd α) : Label α → Option (Crowd α)
  | .join setting cancelled =>
    some { s with members := s.members ++ [⟨{ setting with thresholds := t }, cancelled, {}⟩] }
  | .act i =>
    match s.members[i]? with
    | none => none
    | some m =>
      (m.execution.step { m.setting with thresholds := t } s.now m.cancelled s.breaker).map
        fun move =>
          { s with
            breaker := move.breaker
            members := s.members.set i
              { m with execution := move.execution, cancelled := m.cancelled || move.cancels } }
  | .cancel i =>
    match s.members[i]? with
    | none => none
    | some m => some { s with members := s.members.set i { m with cancelled := true } }
  | .wait instant => if s.now < instant then some { s with now := instant } else none
  | .reset => some { s with breaker := s.breaker.reset }

abbrev History (α : Type) : Type := List (Transition (Crowd α) (Label α))

/-! ## Calls -/

/-- A call by one of the executions: whose it is, and its number among the calls it makes. -/
structure Call where
  member : Nat
  number : Nat
  deriving DecidableEq, Repr

/-- The call that starts in a step. -/
def started? (x : Transition (Crowd α) (Label α)) : Option Call :=
  match x.label with
  | .act i =>
    match x.source.members[i]?, x.target.members[i]? with
    | some m, some m' =>
      if !m.execution.isCalling && m'.execution.isCalling then some ⟨i, m.execution.attempts⟩
      else none
    | _, _ => none
  | _ => none

/-- The call that returns in a step, and whether it returns a value. -/
def returned? (x : Transition (Crowd α) (Label α)) : Option (Call × Bool) :=
  match x.label with
  | .act i =>
    match x.source.members[i]? with
    | some m => (m.execution.returned? m.cancelled).map fun ok => (⟨i, m.execution.attempts⟩, ok)
    | none => none
  | _ => none

/-- What a step does to the breaker: a call that returns leaves its outcome, a reset empties it. -/
def happening? (x : Transition (Crowd α) (Label α)) : Option Circuit.Event :=
  match x.label with
  | .reset => some ⟨x.source.now, .reset⟩
  | _ => (returned? x).map fun r => .outcome x.source.now r.2

/-- The circuit opens in a step, or it opens anew. -/
def Opens (x : Transition (Crowd α) (Label α)) : Prop :=
  x.target.breaker.state = .opened ∧
    (x.source.breaker.state ≠ .opened ∨ x.target.breaker.openedAt ≠ x.source.breaker.openedAt)

/-- The moves of one execution, with everything that a step of a crowd makes of them. -/
theorem act_inv {t : Circuit.Thresholds} {s s' : Crowd α} {i : Nat}
    (h : s.step t (.act i) = some s') :
    ∃ m move, s.members[i]? = some m ∧
      m.execution.Makes { m.setting with thresholds := t } s.now m.cancelled s.breaker move ∧
      s' = { s with
        breaker := move.breaker
        members := s.members.set i
          { m with execution := move.execution, cancelled := m.cancelled || move.cancels } } := by
  rw [step] at h
  split at h
  · cases h
  · rename_i m hm
    obtain ⟨move, hmove, rfl⟩ := Option.map_eq_some_iff.1 h
    exact ⟨m, move, hm, Execution.makes_of_step hmove, rfl⟩

/-- What a step does to the breaker is what it is seen to do. -/
theorem breaker_of_step {t : Circuit.Thresholds} {s s' : Crowd α} {label : Label α}
    (h : s.step t label = some s') :
    s'.breaker = s.breaker.replay t (happening? ⟨s, label, s'⟩).toList := by
  cases label with
  | act i =>
      obtain ⟨m, move, hm, hmakes, rfl⟩ := act_inv h
      have hbreaker := hmakes.breaker_eq
      simp only [happening?, returned?, hm, Option.map_map]
      exact hbreaker
  | cancel i =>
      rw [step] at h
      split at h <;> cases h
      rfl
  | wait instant =>
      rw [step] at h
      split at h <;> cases h
      rfl
  | join | reset =>
      cases h
      rfl

/-- The breaker has seen one outcome of every call that has returned, and the resets. -/
theorem breaker_of_trace {t : Circuit.Thresholds} {ts : History α} {s₀ s : Crowd α}
    (ht : Trace (step t) s₀ ts s) : s.breaker = s₀.breaker.replay t (ts.filterMap happening?) := by
  induction ht with
  | nil => rfl
  | @snoc ts s s' label _ hstep ih =>
      rw [filterMap_snoc, Circuit.Breaker.replay_append, ← ih]
      exact breaker_of_step hstep

theorem allowed_of_started {t : Circuit.Thresholds} {s s' : Crowd α} {label : Label α}
    (h : s.step t label = some s') (hstarted : started? ⟨s, label, s'⟩ ≠ none) :
    s.breaker.canExecute t s.now = true := by
  cases label with
  | act i =>
      obtain ⟨m, move, hm, hmakes, rfl⟩ := act_inv h
      refine hmakes.canExecute ?_
      by_contra hcalling
      refine hstarted ?_
      obtain ⟨hi, -⟩ := List.getElem?_eq_some_iff.1 hm
      simp [started?, hi, hcalling]
  | join | cancel | wait | reset => exact absurd rfl hstarted

/-! ## Time and the open circuit -/

theorem now_le_of_step {t : Circuit.Thresholds} {s s' : Crowd α} {label : Label α}
    (h : s.step t label = some s') : s.now ≤ s'.now := by
  cases label with
  | act i =>
      obtain ⟨m, move, -, -, rfl⟩ := act_inv h
      exact Nat.le_refl _
  | cancel i =>
      rw [step] at h
      split at h <;> cases h
      exact Nat.le_refl _
  | wait instant =>
      rw [step] at h
      split at h <;> cases h
      exact Nat.le_of_lt ‹_›
  | join | reset =>
      cases h
      exact Nat.le_refl _

theorem now_le_of_trace {t : Circuit.Thresholds} {ts : History α} {s₀ s : Crowd α}
    (ht : Trace (step t) s₀ ts s) : s₀.now ≤ s.now := by
  induction ht with
  | nil => exact Nat.le_refl _
  | snoc _ hstep ih => exact Nat.le_trans ih (now_le_of_step hstep)

theorem happening?_eq {x : Transition (Crowd α) (Label α)} {e : Circuit.Event}
    (h : happening? x = some e) :
    e.instant = x.source.now ∧ (e.what = .reset ↔ x.label = .reset) := by
  unfold happening? at h
  split at h
  · rename_i hlabel
    cases h
    exact ⟨rfl, fun _ => hlabel, fun _ => rfl⟩
  · rename_i hlabel
    obtain ⟨⟨call, ok⟩, -, rfl⟩ := Option.map_eq_some_iff.1 h
    refine ⟨rfl, fun hwhat => ?_, fun hreset => absurd hreset hlabel⟩
    cases ok <;> cases hwhat

/-- A circuit opens at the instant of the step in which it does. -/
theorem openSince_of_opens {t : Circuit.Thresholds} {x : Transition (Crowd α) (Label α)}
    (h : x.source.step t x.label = some x.target) (hopens : Opens x) :
    x.target.breaker.OpenSince x.source.now := by
  have hbreaker := breaker_of_step h
  obtain ⟨hopen, hnew⟩ := hopens
  cases hhappening : happening? x with
  | none =>
      rw [show happening? ⟨x.source, x.label, x.target⟩ = none from hhappening] at hbreaker
      rw [hbreaker] at hopen hnew
      rcases hnew with hstate | hopenedAt
      · exact absurd hopen hstate
      · exact absurd rfl hopenedAt
  | some e =>
      rw [show happening? ⟨x.source, x.label, x.target⟩ = some e from hhappening] at hbreaker
      rw [← (happening?_eq hhappening).1]
      rw [hbreaker] at hopen hnew ⊢
      exact Circuit.Breaker.openSince_after hopen hnew

/-- Until the timeout is over, an open circuit stays open unless it is reset. -/
theorem openSince_of_trace {t : Circuit.Thresholds} {ts : History α} {s₀ s : Crowd α} {since : Nat}
    (ht : Trace (step t) s₀ ts s) (hopen : s₀.breaker.OpenSince since)
    (hreset : ∀ x ∈ ts, x.label ≠ .reset) (hearly : s.now - since < t.timeout) :
    s.breaker.OpenSince since := by
  induction ht with
  | nil => exact hopen
  | @snoc ts s s' label hs hstep ih =>
      have hnow := now_le_of_step hstep
      have hstill := ih (fun x hx => hreset x (List.mem_append_left _ hx)) (by omega)
      rw [breaker_of_step hstep]
      cases hhappening : happening? ⟨s, label, s'⟩ with
      | none => exact hstill
      | some e =>
          obtain ⟨hinstant, hwhat⟩ := happening?_eq hhappening
          refine hstill.after ?_ ?_
          · intro hresets
            exact hreset _ (List.mem_append_right _ (List.mem_singleton_self _)) (hwhat.1 hresets)
          · rw [hinstant]
            show s.now - since < t.timeout
            omega

/-- After the circuit has opened, no call starts before the timeout is over, unless it is reset. -/
theorem refused_of_openSince {t : Circuit.Thresholds} {ts us : History α} {s₀ s : Crowd α}
    {since : Nat} {x : Transition (Crowd α) (Label α)} (ht : Trace (step t) s₀ (ts ++ x :: us) s)
    (hopen : s₀.breaker.OpenSince since) (hsince : since ≤ s₀.now)
    (hreset : ∀ y ∈ ts, y.label ≠ .reset) (hstarted : started? x ≠ none) :
    since + t.timeout ≤ x.source.now := by
  obtain ⟨hbefore, hstep, -⟩ := ht.split_at
  have hnow := now_le_of_trace hbefore
  by_contra hearly
  have hstill := openSince_of_trace hbefore hopen hreset (by omega)
  have hover := hstill.canExecute_iff.1 (allowed_of_started hstep hstarted)
  omega

/-! ## The numbers of the calls -/

/-- The numbers of the calls of execution `i` among some calls, in their order. -/
def numbersOf (i : Nat) (calls : List Call) : List Nat :=
  (calls.filter (·.member == i)).map Call.number

theorem numbersOf_append (i : Nat) (calls calls' : List Call) :
    numbersOf i (calls ++ calls') = numbersOf i calls ++ numbersOf i calls' := by
  rw [numbersOf, List.filter_append, List.map_append]
  rfl

/-- The calls that a history starts, and those of its calls that return. -/
def starts (ts : History α) : List Call :=
  ts.filterMap started?

def returns (ts : History α) : List (Call × Bool) :=
  ts.filterMap returned?

/-- Execution `i` has started the calls with the first `k` numbers, and the first `n` have returned.
An execution that is yet to be begun has started none. -/
def Counts (s : Crowd α) (i n k : Nat) : Prop :=
  match s.members[i]? with
  | some m => m.execution.attempts = n ∧ m.execution.Begun k
  | none => n = 0 ∧ k = 0

/-- A step continues the numbers of the calls of execution `i` that start, and of those that
return. -/
def Continues (x : Transition (Crowd α) (Label α)) (i n k : Nat) : Prop :=
  ∃ n' k', x.target.Counts i n' k' ∧
    List.range n' = List.range n ++ numbersOf i ((returned? x).toList.map Prod.fst) ∧
    List.range k' = List.range k ++ numbersOf i (started? x).toList

theorem continues_of_silent {x : Transition (Crowd α) (Label α)} {i n k : Nat}
    (hreturned : returned? x = none) (hstarted : started? x = none)
    (hcounts : x.target.Counts i n k) : Continues x i n k := by
  refine ⟨n, k, hcounts, ?_, ?_⟩
  · rw [hreturned]
    exact (List.append_nil _).symm
  · rw [hstarted]
    exact (List.append_nil _).symm

theorem continues_of_act {t : Circuit.Thresholds} {s s' : Crowd α} {j : Nat}
    (h : s.step t (.act j) = some s') {i n k : Nat} (hcounts : s.Counts i n k) :
    Continues ⟨s, .act j, s'⟩ i n k := by
  obtain ⟨m, move, hm, hmakes, hs'⟩ := act_inv h
  obtain ⟨hj, -⟩ := List.getElem?_eq_some_iff.1 hm
  by_cases hij : j = i
  · -- The execution that moves gives its calls the next numbers.
    subst hij
    rw [Counts, hm] at hcounts
    obtain ⟨rfl, hbegun⟩ := hcounts
    have hreturned : List.range move.execution.attempts = List.range m.execution.attempts ++
        numbersOf j ((returned? ⟨s, .act j, s'⟩).toList.map Prod.fst) := by
      rw [hmakes.attempts_eq]
      simp only [returned?, hm]
      cases m.execution.returned? m.cancelled with
      | none => exact (List.append_nil _).symm
      | some ok => simp [numbersOf, List.range_succ]
    have hstarted : started? ⟨s, .act j, s'⟩ =
        if !m.execution.isCalling && move.execution.isCalling then some ⟨j, m.execution.attempts⟩
        else none := by
      simp only [started?, hm, hs', List.getElem?_set_self hj]
    rcases hmakes.begun hbegun with ⟨hcalling, hidle, rfl, hbegun'⟩ | ⟨hcalling, hbegun'⟩
    · refine ⟨_, m.execution.attempts + 1, ?_, hreturned, ?_⟩
      · rw [Counts, hs', List.getElem?_set_self hj]
        exact ⟨rfl, hbegun'⟩
      · simp [hstarted, hidle, hcalling, numbersOf, List.range_succ]
    · refine ⟨_, k, ?_, hreturned, ?_⟩
      · rw [Counts, hs', List.getElem?_set_self hj]
        exact ⟨rfl, hbegun'⟩
      · simp [hstarted, hcalling, numbersOf]
  · -- The calls of another one have no part in the numbers of `i`.
    refine ⟨n, k, ?_, ?_, ?_⟩
    · rw [Counts, hs', List.getElem?_set_ne hij]
      exact hcounts
    · simp only [returned?, hm]
      cases m.execution.returned? m.cancelled <;> simp [numbersOf, hij]
    · simp only [started?, hm]
      split
      · split <;> simp [numbersOf, hij]
      · simp [numbersOf]

theorem continues_of_step {t : Circuit.Thresholds} {s s' : Crowd α} {label : Label α}
    (h : s.step t label = some s') {i n k : Nat} (hcounts : s.Counts i n k) :
    Continues ⟨s, label, s'⟩ i n k := by
  cases label with
  | act j => exact continues_of_act h hcounts
  | join setting cancelled =>
      cases h
      refine continues_of_silent rfl rfl ?_
      unfold Counts at hcounts ⊢
      by_cases hi : i < s.members.length
      · rw [List.getElem?_append_left hi]
        exact hcounts
      · have hlater := Nat.le_of_not_lt hi
        rw [List.getElem?_eq_none hlater] at hcounts
        obtain ⟨rfl, rfl⟩ := hcounts
        rw [List.getElem?_append_right hlater]
        cases i - s.members.length <;> exact ⟨rfl, rfl⟩
  | cancel j =>
      rw [step] at h
      split at h
      · cases h
      · rename_i m hm
        cases h
        refine continues_of_silent rfl rfl ?_
        obtain ⟨hj, -⟩ := List.getElem?_eq_some_iff.1 hm
        unfold Counts at hcounts ⊢
        by_cases hij : j = i
        · subst hij
          rw [hm] at hcounts
          rw [List.getElem?_set_self hj]
          exact hcounts
        · rw [List.getElem?_set_ne hij]
          exact hcounts
  | wait instant =>
      rw [step] at h
      split at h <;> cases h
      exact continues_of_silent rfl rfl hcounts
  | reset =>
      cases h
      exact continues_of_silent rfl rfl hcounts

/-- Every execution makes its calls one after the other, in the order of their numbers; all of them
have returned but the last one, if it has been interrupted or has not returned yet. -/
theorem counts_of_trace {t : Circuit.Thresholds} {ts : History α} {s : Crowd α} {now : Nat}
    {b : Circuit.Breaker} (ht : Trace (step t) (start now b) ts s) (i : Nat) :
    ∃ n k, s.Counts i n k ∧ numbersOf i ((returns ts).map Prod.fst) = List.range n ∧
      numbersOf i (starts ts) = List.range k := by
  induction ht with
  | nil => exact ⟨0, 0, ⟨rfl, rfl⟩, rfl, rfl⟩
  | @snoc ts s s' label _ hstep ih =>
      obtain ⟨n, k, hcounts, hreturns, hstarts⟩ := ih
      obtain ⟨n', k', hcounts', hreturned, hstarted⟩ := continues_of_step hstep hcounts
      refine ⟨n', k', hcounts', ?_, ?_⟩
      · rw [returns, filterMap_snoc, List.map_append, numbersOf_append, hreturned, ← hreturns]
        rfl
      · rw [starts, filterMap_snoc, numbersOf_append, hstarted, ← hstarts]
        rfl

/-! ## Calls and outcomes -/

/-- However many executions share a breaker, and in whatever order they move: a call starts only
when the breaker lets it pass, so none starts within the timeout after the circuit has opened; and
the breaker is what the outcomes of the returned calls, one for each, and the resets have made of
it. -/
theorem calls_and_outcomes (t : Circuit.Thresholds) (now : Nat) (b : Circuit.Breaker)
    {ts : History α} {s : Crowd α} (ht : Trace (step t) (start now b) ts s) :
    (∀ x ∈ ts, started? x ≠ none → x.source.breaker.canExecute t x.source.now = true) ∧
      (∀ us vs ws x y, ts = us ++ x :: (vs ++ y :: ws) → Opens x → (∀ u ∈ vs, u.label ≠ .reset) →
        started? y ≠ none → x.source.now + t.timeout ≤ y.source.now) ∧
      s.breaker = b.replay t (ts.filterMap happening?) ∧
      (∀ x ∈ ts, happening? x = none → x.target.breaker = x.source.breaker) ∧
      ∀ i, ∃ n k, s.Counts i n k ∧ numbersOf i ((returns ts).map Prod.fst) = List.range n ∧
        numbersOf i (starts ts) = List.range k := by
  refine ⟨?_, ?_, breaker_of_trace ht, ?_, counts_of_trace ht⟩
  · intro x hx hstarted
    exact allowed_of_started (ht.reaches hx).2 hstarted
  · rintro us vs ws x y rfl hopens hreset hstarted
    obtain ⟨-, hstep, hafter⟩ := ht.split_at
    have hopen := openSince_of_opens hstep hopens
    exact refused_of_openSince hafter hopen (now_le_of_step hstep) hreset hstarted
  · intro x hx hnone
    have hbreaker := breaker_of_step (ht.reaches hx).2
    rw [show happening? ⟨x.source, x.label, x.target⟩ = none from hnone] at hbreaker
    exact hbreaker

/-- Every call fails after a millisecond, and a failed call is not made again. -/
def sampleSetting : Setting Unit where
  policy := { maxRetries := 0 }
  thresholds := {}
  classifier := ⟨[]⟩
  draw := fun _ => 0.0
  call := fun _ _ => { latency := 1000000, answer := .fault ⟨["refused"]⟩ }

/-- One execution opens the circuit, one is refused, and one is let pass after the timeout. -/
def sampleLabels : List (Label Unit) :=
  [.join sampleSetting false, .join sampleSetting false, .join sampleSetting false, .act 0,
    .wait 1000000, .act 0, .act 1, .wait 1000010, .act 2]

theorem calls_and_outcomes_sample :
    ∃ (ts : History Unit) (s : Crowd Unit),
      Trace (step ⟨1, 1, 10⟩) (start 0 {}) ts s ∧ s.breaker.OpenSince 1000000 ∧
      ts.filterMap happening? = [⟨1000000, .failure⟩] ∧
      numbersOf 2 (starts ts) = [0] ∧
      s.breaker = Circuit.Breaker.replay ⟨1, 1, 10⟩ {} [⟨1000000, .failure⟩] := by
  let run := Trace.drive (step ⟨1, 1, 10⟩) (start 0 {}) sampleLabels
  have hrun : (run.map fun r => (r.2.breaker, r.1.filterMap happening?, numbersOf 2 (starts r.1))) =
      some (⟨.opened, 1, 0, some 1000000⟩, [⟨1000000, .failure⟩], [0]) := by
    decide +kernel
  obtain ⟨⟨ts, s⟩, hdrive, hseen⟩ := Option.map_eq_some_iff.1 hrun
  simp only [Prod.mk.injEq] at hseen
  obtain ⟨hbreaker, hevents, hstarts⟩ := hseen
  have ht := Trace.of_drive hdrive
  obtain ⟨-, -, hreplay, -, -⟩ := calls_and_outcomes ⟨1, 1, 10⟩ 0 {} ht
  rw [hevents] at hreplay
  exact ⟨ts, s, ht, by rw [hbreaker]; exact ⟨rfl, rfl⟩, hevents, hstarts, hreplay⟩

end Crowd
end Retry
end LoadGen
