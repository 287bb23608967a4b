import LoadGen.Proofs.Run.Moves

/-!
# The jobs that a run makes

The generator makes the jobs in the order of their numbers and counts each one after it has put it
into the job queue, so between the two the count is one behind.  `State.sent` corrects it.

* `dispatches` — the jobs that a history puts into the queue.
* `Numbered` — the generator is about the next job, and there are never more jobs than planned.
* `dispatches_of_trace` — a history dispatches the first planned jobs, each once and in order.
-/

namespace LoadGen
namespace Run

variable {p : Plan} {cancelled : Bool} {b : Circuit.Breaker} {l : Ledger} {ts : History}
  {s s' : State} {label : Label} {i : Nat} {w : Worker}

/-- The job with the given number. -/
def Plan.job? (p : Plan) (id : Nat) : Option Job :=
  (p.operation id).map fun operation => ⟨id, operation, p.timeout⟩

/-- The number of jobs that were put into the queue. -/
def State.sent (s : State) : Nat :=
  match s.generator with
  | .counting _ => s.dispatched + 1
  | _ => s.dispatched

/-- The place of the generator agrees with the number of jobs that were put into the queue. -/
def Generator.Numbers (p : Plan) (sent : Nat) : Generator → Prop
  | .next id => id = sent
  | .ticking id _ => id = sent ∧ id < p.total
  | .offering job => job.id = sent ∧ job.id < p.total ∧ p.job? job.id = some job
  | .counting id => id + 1 = sent
  | .stopped => True
  | .crashed => True

/-- The generator goes through the numbers of the planned jobs, one by one. -/
structure Numbered (p : Plan) (s : State) : Prop where
  place : s.generator.Numbers p s.sent
  sent_le : s.sent ≤ p.total

/-- The job that a step puts into the queue. -/
def dispatched? (t : Transition State Label) : Option Job :=
  match t.label, t.source.generator, t.target.generator with
  | .act .generator, .offering job, .counting _ => some job
  | _, _, _ => none

/-- The jobs that a history puts into the queue, oldest first. -/
def dispatches (ts : History) : List Job :=
  ts.filterMap dispatched?

/-- Only the generator puts jobs into the queue. -/
theorem dispatched?_eq_none (hlabel : label ≠ .act .generator) :
    dispatched? ⟨s, label, s'⟩ = none := by
  unfold dispatched?
  split
  · exact absurd ‹_› hlabel
  · rfl

/-- A step of the generator puts a job into the queue or leaves the queue alone. -/
theorem GeneratorMove.sends (h : GeneratorMove p s s') :
    (∃ job, s.generator = .offering job ∧ dispatched? ⟨s, .act .generator, s'⟩ = some job ∧
        s'.jobs = s.jobs ++ [job] ∧ s'.sent = s.sent + 1) ∨
      (dispatched? ⟨s, .act .generator, s'⟩ = none ∧ s'.jobs = s.jobs ∧ s'.sent = s.sent) := by
  cases h with
  | send hat => exact .inl ⟨_, hat, by simp [dispatched?, hat], rfl, by simp [State.sent, hat]⟩
  | finish hat | schedule hat | overflow hat | count hat =>
      exact .inr ⟨by simp [dispatched?, hat], rfl, by simp [State.sent, hat]⟩
  | offer hmakes | fail hmakes =>
      rcases hmakes with ⟨hat, _⟩ | ⟨wake, hat, _⟩ <;>
        exact .inr ⟨by simp [dispatched?, hat], rfl, by simp [State.sent, hat]⟩
  | quit hat =>
      rcases hat with ⟨id, wake, hat⟩ | ⟨job, hat⟩ <;>
        exact .inr ⟨by simp [dispatched?, hat], rfl, by simp [State.sent, hat]⟩
  | expire hat =>
      rcases hat with ⟨id, wake, hat, _⟩ | ⟨job, hat, _⟩ <;>
        exact .inr ⟨by simp [dispatched?, hat], rfl, by simp [State.sent, hat]⟩

/-- No other task changes the place of the generator or the number of jobs sent. -/
theorem Move.generator_frame (h : Move p s label s') (hlabel : label ≠ .act .generator) :
    s'.generator = s.generator ∧ s'.sent = s.sent := by
  have hframe : s'.generator = s.generator ∧ s'.dispatched = s.dispatched := by
    cases h with
    | generator => exact absurd rfl hlabel
    | worker _ hmove =>
        obtain ⟨-, hgenerator, -, -, -, -, hdispatched, -⟩ := hmove.frame
        exact ⟨hgenerator, hdispatched⟩
    | collector hmove | supervisor hmove =>
        rw [hmove.frame]
        exact ⟨rfl, rfl⟩
    | wait | cancel => exact ⟨rfl, rfl⟩
  refine ⟨hframe.1, ?_⟩
  rw [State.sent, State.sent, hframe.1, hframe.2]

namespace Numbered

theorem initial (cancelled : Bool) (b : Circuit.Breaker) (l : Ledger) :
    Numbered p (.initial p cancelled b l) where
  place := rfl
  sent_le := Nat.zero_le _

theorem dispatched_le (h : Numbered p s) : s.dispatched ≤ p.total := by
  have hsent := h.sent_le
  unfold State.sent at hsent
  split at hsent <;> omega

/-- The job that is being made is the next one. -/
theorem of_makes (h : Numbered p s) {id : Nat} (hmakes : Makes p s id) :
    id = s.sent ∧ id < p.total := by
  have hplace := h.place
  rcases hmakes with ⟨hat, hid, _⟩ | ⟨wake, hat, _⟩ <;> rw [hat] at hplace
  · exact ⟨hplace, hid⟩
  · exact hplace

theorem generatorMove (h : Numbered p s) (hmove : GeneratorMove p s s') : Numbered p s' := by
  have hplace := h.place
  have hle := h.sent_le
  rcases hmove.sends with ⟨job, hat, -, -, hsent⟩ | ⟨-, -, hsent⟩
  · rw [hat] at hplace
    obtain ⟨hid, hlt, -⟩ := hplace
    refine ⟨?_, by omega⟩
    cases hmove with
    | send hat' =>
        cases hat.symm.trans hat'
        rw [hsent, ← hid]
        rfl
    | quit | expire => trivial
    | finish hat' | schedule hat' | overflow hat' | count hat' => cases hat.symm.trans hat'
    | offer hmakes | fail hmakes =>
        rcases hmakes with ⟨hat', _⟩ | ⟨wake, hat', _⟩ <;> cases hat.symm.trans hat'
  · refine ⟨?_, by omega⟩
    rw [hsent]
    cases hmove with
    | finish | overflow | quit | expire | fail => trivial
    | schedule hat hid =>
        rw [hat] at hplace
        exact ⟨hplace, hid⟩
    | offer hmakes hoperation =>
        obtain ⟨hid, hlt⟩ := h.of_makes hmakes
        exact ⟨hid, hlt, by rw [Plan.job?, hoperation]; rfl⟩
    | send hat => simp [State.sent, hat] at hsent
    | count hat =>
        rw [hat] at hplace
        exact hplace

theorem move (h : Numbered p s) (hmove : Move p s label s') : Numbered p s' := by
  by_cases hlabel : label = .act .generator
  · subst hlabel
    cases hmove with
    | generator hmove => exact h.generatorMove hmove
  · obtain ⟨hgenerator, hsent⟩ := hmove.generator_frame hlabel
    refine ⟨?_, ?_⟩
    · rw [hgenerator, hsent]
      exact h.place
    · rw [hsent]
      exact h.sent_le

end Numbered

theorem numbered_of_trace (ht : Trace (lateStep p) (.initial p cancelled b l) ts s) :
    Numbered p s :=
  invariant_of_moves ht (.initial cancelled b l) fun _ _ _ h hmove => h.move hmove

/-- A step puts the next planned job into the queue or none. -/
theorem Numbered.dispatched (h : Numbered p s) (hmove : Move p s label s') :
    (∃ job, dispatched? ⟨s, label, s'⟩ = some job ∧ p.job? s.sent = some job ∧
        s'.sent = s.sent + 1) ∨
      (dispatched? ⟨s, label, s'⟩ = none ∧ s'.sent = s.sent) := by
  by_cases hlabel : label = .act .generator
  · subst hlabel
    cases hmove with
    | generator hmove =>
        rcases hmove.sends with ⟨job, hat, hdispatched, -, hsent⟩ | ⟨hnone, -, hsent⟩
        · have hplace := h.place
          rw [hat] at hplace
          obtain ⟨hid, -, hjob⟩ := hplace
          exact .inl ⟨job, hdispatched, by rw [← hid, hjob], hsent⟩
        · exact .inr ⟨hnone, hsent⟩
  · exact .inr ⟨dispatched?_eq_none hlabel, (hmove.generator_frame hlabel).2⟩

/-- The jobs that were put into the queue are the first planned ones, in order. -/
theorem dispatches_of_trace (ht : Trace (lateStep p) (.initial p cancelled b l) ts s) :
    (dispatches ts).map some = (List.range s.sent).map p.job? := by
  induction ht with
  | nil => rfl
  | snoc hs hstep ih =>
      rw [dispatches, filterMap_snoc, ← dispatches, List.map_append, ih]
      rcases (numbered_of_trace hs).dispatched (move_of_step hstep) with
        ⟨job, hdispatched, hjob, hsent⟩ | ⟨hnone, hsent⟩
      · rw [hdispatched, hsent, List.range_succ, List.map_append, List.map_singleton, hjob]
        rfl
      · rw [hnone, hsent]
        exact List.append_nil _

/-- The numbers of the jobs that were put into the queue run from zero without a gap. -/
theorem dispatched_ids_of_trace (ht : Trace (lateStep p) (.initial p cancelled b l) ts s) :
    (dispatches ts).map Job.id = List.range s.sent := by
  have hjobs := dispatches_of_trace ht
  have hid (id : Nat) (job : Job) (h : p.job? id = some job) : job.id = id := by
    obtain ⟨operation, -, rfl⟩ := Option.map_eq_some_iff.1 h
    rfl
  apply List.ext_getElem?
  intro n
  have hn := congrArg (·[n]?) hjobs
  simp only [List.getElem?_map] at hn ⊢
  cases hjob : (dispatches ts)[n]? <;> cases hnum : (List.range s.sent)[n]? <;>
    simp only [hjob, hnum, Option.map_none, Option.map_some, Option.some.injEq, reduceCtorEq]
      at hn ⊢
  exact hid _ _ hn.symm

end Run
end LoadGen
