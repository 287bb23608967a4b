import LoadGen.Proofs.Run.Clock
import LoadGen.Proofs.Run.Completeness

/-!
# When jobs are offered

A generator that spreads its jobs out offers each of them at its tick, or when the job queue has
taken the job before if that is later.  Ticks are counted from the start of the run, so however long
the queue holds a job up, the ticks of the jobs after it stay where they are.

* `offers`, `accepts` — the jobs that a history offers to the job queue and those that the queue
  takes, with their instants.
* `DueAt`, `Paced` — when a job is due, and where a generator stands that keeps to it.
* `paced_of_trace` — in a run of prompt tasks every job is offered when it is due.
* `offered_ids_of_trace` — every job is offered once, in the order of the numbers.
* `offered_of_accepted` — the queue takes no job before it is offered.
* `Unblocked`, `offered_at_tick`, `accepted_at_tick` — while the queue has room, every job is
  offered and taken at its tick.
* `now_le_stop_of_trace`, `accepted_le_stop` — no job is taken after the limit.
* `stopped_of_trace`, `sent_eq_countP` — while the queue has room, the jobs whose ticks do not lie
  beyond the limit are sent.
* `offers_all` — a run that ends without a limit leaves out no job.
* `generator_ne_crashed` — the generator dies only if it cannot make a job or reckon with its tick.
-/

namespace LoadGen
namespace Run

variable {p : Plan} {cancelled : Bool} {b : Circuit.Breaker} {l : Ledger} {ts us : History}
  {s s' : State} {label : Label} {interval : Nat}

/-! ## Offers -/

/-- The job that the generator begins to offer in a step, by its number, and when it does. -/
def offered? (x : Transition State Label) : Option (Nat × Nat) :=
  match x.label, x.target.generator with
  | .act .generator, .offering job => some (job.id, x.source.now)
  | _, _ => none

/-- The job that the queue takes in a step, by its number, and when it does. -/
def accepted? (x : Transition State Label) : Option (Nat × Nat) :=
  (dispatched? x).map fun job => (job.id, x.source.now)

/-- The jobs that a history offers to the job queue, oldest first. -/
def offers (ts : History) : List (Nat × Nat) :=
  ts.filterMap offered?

/-- The jobs that the job queue takes in a history, oldest first. -/
def accepts (ts : History) : List (Nat × Nat) :=
  ts.filterMap accepted?

theorem offers_snoc (ts : History) (x : Transition State Label) :
    offers (ts ++ [x]) = offers ts ++ (offered? x).toList :=
  filterMap_snoc _ _ _

theorem accepts_snoc (ts : History) (x : Transition State Label) :
    accepts (ts ++ [x]) = accepts ts ++ (accepted? x).toList :=
  filterMap_snoc _ _ _

/-- Only the generator offers jobs, and only it puts them into the queue. -/
theorem pacing_of_label (s s' : State) (hlabel : label ≠ .act .generator) :
    offered? ⟨s, label, s'⟩ = none ∧ accepted? ⟨s, label, s'⟩ = none := by
  constructor
  · unfold offered?
    split
    · exact absurd ‹_› hlabel
    · rfl
  · rw [accepted?, dispatched?_eq_none hlabel]
    rfl

/-- The queue takes a job that was on offer. -/
theorem offering_of_accepted? {entry : Nat × Nat}
    (haccepted : accepted? ⟨s, label, s'⟩ = some entry) :
    ∃ job, s.generator = .offering job ∧ entry = (job.id, s.now) := by
  obtain ⟨job, hdispatched, hentry⟩ := Option.map_eq_some_iff.1 haccepted
  refine ⟨job, ?_, hentry.symm⟩
  unfold dispatched? at hdispatched
  split at hdispatched
  · cases hdispatched
    assumption
  · cases hdispatched

/-- The jobs that the queue has taken are those that were put into it. -/
theorem accepted_ids_of_trace (ht : Trace (lateStep p) (.initial p cancelled b l) ts s) :
    (accepts ts).map Prod.fst = List.range s.sent := by
  rw [← dispatched_ids_of_trace ht, accepts, dispatches, List.map_filterMap, List.map_filterMap]
  congr 1
  funext x
  rw [accepted?, Option.map_map]
  rfl

/-- A step of the generator begins to offer the job that it makes, or it offers nothing new. -/
theorem GeneratorMove.offers (h : GeneratorMove p s s') :
    (∃ job, s'.generator = .offering job ∧ Makes p s job.id ∧ s'.now = s.now ∧ s'.sent = s.sent ∧
        offered? ⟨s, .act .generator, s'⟩ = some (job.id, s.now) ∧
        accepted? ⟨s, .act .generator, s'⟩ = none) ∨
      ((∀ job, s'.generator ≠ .offering job) ∧ offered? ⟨s, .act .generator, s'⟩ = none) := by
  cases h with
  | @offer id operation hmakes =>
      let job : Job := ⟨id, operation, p.timeout⟩
      have hsent : State.sent { s with generator := .offering job } = s.sent ∧
          accepted? ⟨s, .act .generator, { s with generator := .offering job }⟩ = none := by
        rcases hmakes with ⟨hat, _⟩ | ⟨wake, hat, _⟩ <;>
          simp [State.sent, accepted?, dispatched?, hat]
      exact .inl ⟨_, rfl, hmakes, rfl, hsent.1, rfl, hsent.2⟩
  | finish | schedule | fail | overflow | quit | expire | send | count =>
      exact .inr ⟨by simp, rfl⟩

/-! ## Every job is offered once -/

/-- How many jobs have been offered when so many have been sent.  A generator that has ended may
have given up the job that it offered. -/
def Generator.Offered (sent offered : Nat) : Generator → Prop
  | .offering _ => offered = sent + 1
  | .stopped => sent ≤ offered ∧ offered ≤ sent + 1
  | .crashed => sent ≤ offered ∧ offered ≤ sent + 1
  | _ => offered = sent

/-- A generator that offers nothing new keeps the number of jobs that have been offered. -/
theorem GeneratorMove.offered {k : Nat} (h : GeneratorMove p s s')
    (hoffered : s.generator.Offered s.sent k) (hnot : ∀ job, s'.generator ≠ .offering job) :
    s'.generator.Offered s'.sent k := by
  cases h with
  | finish hat | overflow hat =>
      simp only [hat, Generator.Offered, State.sent] at hoffered ⊢
      omega
  | schedule hat | send hat | count hat =>
      simpa only [hat, Generator.Offered, State.sent] using hoffered
  | offer => exact absurd rfl (hnot _)
  | fail hmakes =>
      rcases hmakes with ⟨hat, _⟩ | ⟨wake, hat, _⟩ <;>
      · simp only [hat, Generator.Offered, State.sent] at hoffered ⊢
        omega
  | quit hat =>
      rcases hat with ⟨id, wake, hat⟩ | ⟨job, hat⟩ <;>
      · simp only [hat, Generator.Offered, State.sent] at hoffered ⊢
        omega
  | expire hat =>
      rcases hat with ⟨id, wake, hat, _⟩ | ⟨job, hat, _⟩ <;>
      · simp only [hat, Generator.Offered, State.sent] at hoffered ⊢
        omega

/-- The jobs are offered in the order of their numbers. -/
theorem offered_ids_of_trace (ht : Trace (lateStep p) (.initial p cancelled b l) ts s) :
    ∃ k, (offers ts).map Prod.fst = List.range k ∧ k ≤ p.total ∧
      s.generator.Offered s.sent k := by
  induction ht with
  | nil => exact ⟨0, rfl, Nat.zero_le _, rfl⟩
  | @snoc ts s s' label hs hstep ih =>
      obtain ⟨k, hids, hle, hoffered⟩ := ih
      have hnumbered := numbered_of_trace hs
      have hmove := move_of_step hstep
      rw [offers_snoc, List.map_append, hids]
      by_cases hlabel : label = .act .generator
      · subst hlabel
        cases hmove with
        | generator hmove =>
            rcases hmove.offers with ⟨job, hat, hmakes, -, hsent, hnew, -⟩ | ⟨hnot, hnone⟩
            · -- The job that is made is the next one, so its number is the next number.
              obtain ⟨hid, hlt⟩ := hnumbered.of_makes hmakes
              have hk : k = s.sent := by
                rcases hmakes with ⟨hat', _⟩ | ⟨wake, hat', _⟩ <;> rw [hat'] at hoffered <;>
                  exact hoffered
              refine ⟨k + 1, ?_, by omega, ?_⟩
              · rw [hnew, List.range_succ, hk, ← hid]
                rfl
              · rw [hat, hsent, hk]
                rfl
            · rw [hnone]
              exact ⟨k, List.append_nil _, hle, hmove.offered hoffered hnot⟩
      · obtain ⟨hgenerator, hsent⟩ := hmove.generator_frame hlabel
        rw [(pacing_of_label s s' hlabel).1, hgenerator, hsent]
        exact ⟨k, List.append_nil _, hle, hoffered⟩

/-! ## Jobs are offered when they are due -/

/-- From the instant `freed` on the generator can turn to a job: to the first one from the start of
the run, and to any other one when the queue has taken the job before. -/
def Freed (p : Plan) (ts : History) (freed : Nat) : Nat → Prop
  | 0 => freed = p.started
  | id + 1 => (id, freed) ∈ accepts ts

/-- A job is due at its tick, which is the first whole millisecond that lies so many intervals after
the start, and not before the generator can turn to it. -/
def DueAt (p : Plan) (interval : Nat) (ts : History) (job : Nat × Nat) : Prop :=
  ∃ freed, Freed p ts freed job.1 ∧
    job.2 = max (Nanos.ceilMillis (p.started + job.1 * interval)) freed

/-- Where a generator stands that keeps to the ticks. -/
def Generator.Paced (p : Plan) (interval : Nat) (ts : History) (now : Nat) : Generator → Prop
  | .next id => Freed p ts now id
  | .ticking id wake => now ≤ wake ∧ ∃ freed, freed ≤ now ∧ Freed p ts freed id ∧
      wake = max (Nanos.ceilMillis (p.started + id * interval)) freed
  | .counting id => (id, now) ∈ accepts ts
  | _ => True

/-- A run whose jobs have been offered when they were due. -/
structure Paced (p : Plan) (interval : Nat) (ts : History) (s : State) : Prop where
  place : s.generator.Paced p interval ts s.now
  offered : ∀ job ∈ offers ts, DueAt p interval ts job

theorem Freed.mono {freed id : Nat} (h : Freed p ts freed id) (us : History) :
    Freed p (ts ++ us) freed id := by
  cases id with
  | zero => exact h
  | succ id =>
      rw [Freed, accepts, List.filterMap_append]
      exact List.mem_append_left _ h

theorem DueAt.mono {job : Nat × Nat} (h : DueAt p interval ts job) (us : History) :
    DueAt p interval (ts ++ us) job := by
  obtain ⟨freed, hfreed, hinstant⟩ := h
  exact ⟨freed, hfreed.mono us, hinstant⟩

namespace Paced

theorem initial (cancelled : Bool) (b : Circuit.Breaker) (l : Ledger) :
    Paced p interval [] (.initial p cancelled b l) where
  place := rfl
  offered job hjob := by cases hjob

/-- A step that neither offers nor takes a job leaves the offers as they were. -/
theorem of_none (h : Paced p interval ts s) {x : Transition State Label}
    (hoffered : offered? x = none)
    (hplace : s'.generator.Paced p interval (ts ++ [x]) s'.now) :
    Paced p interval (ts ++ [x]) s' := by
  refine ⟨hplace, fun job hjob => ?_⟩
  rw [offers_snoc, hoffered, Option.toList_none, List.append_nil] at hjob
  exact (h.offered job hjob).mono [x]

/-- The place of a generator that does not move stays right while the clock stands still, too. -/
theorem of_frame (h : Paced p interval ts s) {x : Transition State Label}
    (hoffered : offered? x = none) (hgenerator : s'.generator = s.generator)
    (hnow : s'.now = s.now) : Paced p interval (ts ++ [x]) s' := by
  refine h.of_none hoffered ?_
  have hplace := h.place
  rw [hgenerator, hnow]
  cases hat : s.generator with
  | next id =>
      rw [hat] at hplace
      exact hplace.mono [x]
  | ticking id wake =>
      rw [hat] at hplace
      obtain ⟨hle, freed, hpast, hfreed, hwake⟩ := hplace
      exact ⟨hle, freed, hpast, hfreed.mono [x], hwake⟩
  | counting id =>
      rw [hat] at hplace
      have hfreed : Freed p ts s.now (id + 1) := hplace
      exact hfreed.mono [x]
  | offering | stopped | crashed => trivial

/-- The job that a generator makes is due now. -/
theorem dueAt_of_makes (h : Paced p interval ts s) (hinterval : p.interval = some interval)
    (hstart : Nanos.perMilli ∣ p.started) {id : Nat} (hmakes : Makes p s id) :
    DueAt p interval ts (id, s.now) := by
  have hplace := h.place
  rcases hmakes with ⟨hat, -, hfirst⟩ | ⟨wake, hat, -, hdue, -⟩
  · have hid : id = 0 := by
      rcases hfirst with hzero | hnone
      · exact hzero
      · rw [hinterval] at hnone
        cases hnone
    subst hid
    rw [hat] at hplace
    refine ⟨s.now, hplace, ?_⟩
    rw [show s.now = p.started from hplace, Nat.zero_mul, Nat.add_zero,
      Nanos.ceilMillis_of_dvd hstart, Nat.max_self]
  · rw [hat] at hplace
    obtain ⟨hle, freed, -, hfreed, hwake⟩ := hplace
    exact ⟨freed, hfreed, (Nat.le_antisymm hle hdue).trans hwake⟩

theorem generatorMove (h : Paced p interval ts s) (hinterval : p.interval = some interval)
    (hstart : Nanos.perMilli ∣ p.started) (haligned : Nanos.perMilli ∣ s.now)
    (hmove : GeneratorMove p s s') :
    Paced p interval (ts ++ [⟨s, .act .generator, s'⟩]) s' := by
  have hplace := h.place
  rcases hmove.offers with ⟨job, hat, hmakes, -, -, hnew, -⟩ | ⟨hnot, hnone⟩
  · refine ⟨by rw [hat]; trivial, fun entry hentry => ?_⟩
    rw [offers_snoc, hnew] at hentry
    rcases List.mem_append.1 hentry with hold | hlast
    · exact (h.offered entry hold).mono _
    · rw [List.mem_singleton.1 hlast]
      exact (h.dueAt_of_makes hinterval hstart hmakes).mono _
  · refine h.of_none hnone ?_
    cases hmove with
    | @schedule id interval' hat hid hpos hinterval' =>
        cases hinterval.symm.trans hinterval'
        rw [hat] at hplace
        have hwake := Nanos.wakeBy_eq_max haligned (p.started + id * interval)
        refine ⟨?_, s.now, Nat.le_refl _, hplace.mono _, hwake⟩
        rw [hwake]
        exact Nat.le_max_right _ _
    | @send job hat =>
        show (job.id, s.now) ∈ accepts _
        rw [accepts_snoc]
        exact List.mem_append_right _ (by simp [accepted?, dispatched?, hat])
    | @count id hat =>
        rw [hat] at hplace
        have hfreed : Freed p ts s.now (id + 1) := hplace
        exact hfreed.mono _
    | finish | fail | overflow | quit | expire => trivial
    | offer => exact absurd rfl (hnot _)

/-- Time passes while the generator waits, and not beyond its tick. -/
theorem wait (h : Paced p interval ts s) {instant : Nat}
    (hstep : step p s (.wait instant) = some s') :
    Paced p interval (ts ++ [⟨s, .wait instant, s'⟩]) s' := by
  obtain ⟨rfl, hlater, hquiet, hwakes⟩ := wait_inv hstep
  refine h.of_none rfl ?_
  have hplace := h.place
  rcases generator_waits (hquiet .generator) with
    hended | ⟨-, -, ⟨id, wake, hat, -⟩ | ⟨job, hat, -⟩⟩
  · show s.generator.Paced _ _ _ instant
    cases hat : s.generator with
    | stopped | crashed => trivial
    | next | ticking | offering | counting => simp [hat, Generator.ended] at hended
  · rw [hat] at hplace
    obtain ⟨-, freed, hpast, hfreed, hwake⟩ := hplace
    have hmem : wake ∈ s.wakes p := by
      rw [State.wakes, State.generatorWakes, hat]
      exact List.mem_append_left _ List.mem_cons_self
    show s.generator.Paced _ _ _ instant
    rw [hat]
    exact ⟨hwakes wake hmem, freed, Nat.le_of_lt (Nat.lt_of_le_of_lt hpast hlater),
      hfreed.mono _, hwake⟩
  · show s.generator.Paced _ _ _ instant
    rw [hat]
    trivial

end Paced

/-- In a run of prompt tasks that begins on a whole millisecond, every job is offered when it is
due. -/
theorem paced_of_trace (ht : Trace (step p) (.initial p cancelled b l) ts s)
    (hinterval : p.interval = some interval) (hstart : Nanos.perMilli ∣ p.started)
    (hstop : ∀ stop ∈ p.stopAt, Nanos.perMilli ∣ stop) (hrun : s.cancelled = false) :
    Paced p interval ts s := by
  induction ht with
  | nil => exact .initial cancelled b l
  | @snoc ts s s' label hs hstep ih =>
      have hmove := move_of_step (lateStep_of_step hstep)
      have hrun₀ : s.cancelled = false :=
        Bool.eq_false_iff.2 fun hcancelled => by simp [hmove.cancelled_mono hcancelled] at hrun
      have hpaced := ih hrun₀
      by_cases hlabel : label = .act .generator
      · subst hlabel
        have hact : stepActor p s .generator = some s' := hstep
        have haligned := (punctual_of_trace hs hstart hstop hrun₀).aligned_of_step hact
        cases hmove with
        | generator hmove => exact hpaced.generatorMove hinterval hstart haligned hmove
      · obtain ⟨hgenerator, -⟩ := hmove.generator_frame hlabel
        have hnone := (pacing_of_label s s' hlabel).1
        cases label with
        | wait instant => exact hpaced.wait hstep
        | act actor => exact hpaced.of_frame hnone hgenerator hmove.act_frame.1
        | cancel =>
            cases hmove
            exact hpaced.of_frame hnone rfl rfl

/-! ## While the queue has room -/

/-- The generator offers a job and the queue is full. -/
def State.blocked (p : Plan) (s : State) : Bool :=
  match s.generator with
  | .offering _ => p.jobCapacity ≤ s.jobs.length
  | _ => false

/-- The generator has never found the job queue full. -/
def Unblocked (p : Plan) (ts : History) : Prop :=
  ∀ x ∈ ts, x.source.blocked p = false

instance (p : Plan) (ts : History) : Decidable (Unblocked p ts) :=
  inferInstanceAs (Decidable (∀ x ∈ ts, x.source.blocked p = false))

theorem Unblocked.of_append (h : Unblocked p (ts ++ us)) : Unblocked p ts :=
  fun x hx => h x (List.mem_append_left us hx)

/-- A history that goes on while a job is on offer has found room for it. -/
theorem Unblocked.room {x : Transition State Label} (h : Unblocked p (ts ++ [x])) {job : Job}
    (hat : x.source.generator = .offering job) : x.source.jobs.length < p.jobCapacity := by
  have hfree := h x (List.mem_append_right ts (List.mem_singleton_self x))
  simpa [State.blocked, hat] using hfree

/-- A job that is still on offer has been offered before.  Time passes while it is on offer only if
the queue is full. -/
theorem offered_of_offering (ht : Trace (step p) (.initial p cancelled b l) ts s) {job : Job}
    (hat : s.generator = .offering job) :
    ∃ instant ≤ s.now, (job.id, instant) ∈ offers ts ∧ (Unblocked p ts → instant = s.now) := by
  induction ht with
  | nil => cases hat
  | @snoc ts s s' label hs hstep ih =>
      have hmove := move_of_step (lateStep_of_step hstep)
      rw [offers_snoc]
      by_cases hlabel : label = .act .generator
      · subst hlabel
        cases hmove with
        | generator hmove =>
            rcases hmove.offers with ⟨job', hat', -, hnow, -, hnew, -⟩ | ⟨hnot, -⟩
            · cases hat.symm.trans hat'
              rw [hnew, hnow]
              exact ⟨s.now, Nat.le_refl _, List.mem_append_right _ (List.mem_singleton_self _),
                fun _ => rfl⟩
            · exact absurd hat (hnot job)
      · have hat₀ : s.generator = .offering job := (hmove.generator_frame hlabel).1 ▸ hat
        obtain ⟨instant, hle, hmem, hroom⟩ := ih hat₀
        have hold := List.mem_append_left (offered? ⟨s, label, s'⟩).toList hmem
        cases label with
        | act actor =>
            rw [hmove.act_frame.1]
            exact ⟨instant, hle, hold, fun h => hroom h.of_append⟩
        | wait instant' =>
            obtain ⟨rfl, hlater, hquiet, -⟩ := wait_inv hstep
            refine ⟨instant, Nat.le_of_lt (Nat.lt_of_le_of_lt hle hlater), hold, fun h => ?_⟩
            have hfree := h.room hat₀
            rcases generator_waits (hquiet .generator) with
              hended | ⟨-, -, ⟨id, wake, hat', -⟩ | ⟨job', -, hfull⟩⟩
            · simp [hat₀, Generator.ended] at hended
            · cases hat₀.symm.trans hat'
            · exact absurd hfree (Nat.not_lt_of_le hfull)
        | cancel =>
            cases hmove
            exact ⟨instant, hle, hold, fun h => hroom h.of_append⟩

/-- The queue takes a job after it has been offered, and at once while it has room. -/
theorem offered_of_accepted (ht : Trace (step p) (.initial p cancelled b l) ts s) :
    ∀ entry ∈ accepts ts, ∃ instant ≤ entry.2, (entry.1, instant) ∈ offers ts ∧
      (Unblocked p ts → instant = entry.2) := by
  induction ht with
  | nil =>
      intro entry hentry
      cases hentry
  | @snoc ts s s' label hs hstep ih =>
      intro entry hentry
      rw [accepts_snoc] at hentry
      obtain ⟨instant, hle, hmem, hroom⟩ : ∃ instant ≤ entry.2, (entry.1, instant) ∈ offers ts ∧
          (Unblocked p ts → instant = entry.2) := by
        rcases List.mem_append.1 hentry with hold | hlast
        · exact ih entry hold
        · obtain ⟨job, hat, rfl⟩ := offering_of_accepted? (Option.mem_toList.1 hlast)
          exact offered_of_offering hs hat
      rw [offers_snoc]
      exact ⟨instant, hle, List.mem_append_left _ hmem, fun h => hroom h.of_append⟩

/-- While the queue has room, every job is offered at its tick. -/
theorem offered_at_tick (ht : Trace (step p) (.initial p cancelled b l) ts s)
    (hpaced : Paced p interval ts s) (hstart : Nanos.perMilli ∣ p.started)
    (hroom : Unblocked p ts) (id : Nat) : ∀ instant, (id, instant) ∈ offers ts →
      instant = Nanos.ceilMillis (p.started + id * interval) := by
  induction id with
  | zero =>
      intro instant hentry
      obtain ⟨freed, hfreed, hinstant⟩ := hpaced.offered _ hentry
      have hfirst : freed = p.started := hfreed
      simpa [hfirst, Nanos.ceilMillis_of_dvd hstart] using hinstant
  | succ id ih =>
      intro instant hentry
      obtain ⟨freed, hfreed, hinstant⟩ := hpaced.offered _ hentry
      -- The queue has taken the job before at its own tick, which is no later than this one.
      obtain ⟨instant', -, hmem, hatOnce⟩ := offered_of_accepted ht _ hfreed
      have htaken := ih instant' hmem
      rw [hatOnce hroom] at htaken
      have hle := Nanos.ceilMillis_mono
        (Nat.add_le_add_left (Nat.mul_le_mul_right interval (Nat.le_succ id)) p.started)
      rw [← htaken] at hle
      exact hinstant.trans (Nat.max_eq_left hle)

/-- While the queue has room, it takes every job at its tick. -/
theorem accepted_at_tick (ht : Trace (step p) (.initial p cancelled b l) ts s)
    (hpaced : Paced p interval ts s) (hstart : Nanos.perMilli ∣ p.started)
    (hroom : Unblocked p ts) : ∀ entry ∈ accepts ts,
      entry.2 = Nanos.ceilMillis (p.started + entry.1 * interval) := by
  intro entry hentry
  obtain ⟨instant, -, hoffered, hatOnce⟩ := offered_of_accepted ht entry hentry
  rw [← hatOnce hroom]
  exact offered_at_tick ht hpaced hstart hroom entry.1 instant hoffered

/-! ## The limit -/

/-- Until the generator has ended, the limit has not passed. -/
theorem now_le_stop_of_trace (ht : Trace (step p) (.initial p cancelled b l) ts s) {stop : Nat}
    (hlimit : p.stopAt = some stop) (hlater : p.started ≤ stop)
    (halive : s.generator.ended = false) : s.now ≤ stop := by
  induction ht with
  | nil => exact hlater
  | @snoc ts s s' label hs hstep ih =>
      have hmove := move_of_step (lateStep_of_step hstep)
      cases label with
      | act actor =>
          rw [hmove.act_frame.1]
          refine ih ?_
          by_cases hactor : actor = .generator
          · subst hactor
            cases hmove with
            | generator hmove => exact hmove.not_ended
          · rw [(hmove.generator_frame (by simpa using hactor)).1] at halive
            exact halive
      | wait instant =>
          obtain ⟨rfl, -, hquiet, hwakes⟩ := wait_inv hstep
          -- A generator that waits for its tick or for room waits for the limit, too.
          refine hwakes stop (List.mem_append_left _ ?_)
          rcases generator_waits (hquiet .generator) with
            hended | ⟨-, -, ⟨id, wake, hat, -⟩ | ⟨job, hat, -⟩⟩
          · cases halive.symm.trans hended
          · simp [State.generatorWakes, hat, hlimit]
          · simp [State.generatorWakes, hat, hlimit]
      | cancel =>
          cases hmove
          exact ih halive

/-- The queue takes no job after the limit. -/
theorem accepted_le_stop (ht : Trace (step p) (.initial p cancelled b l) ts s) {stop : Nat}
    (hlimit : p.stopAt = some stop) (hlater : p.started ≤ stop) :
    ∀ entry ∈ accepts ts, entry.2 ≤ stop := by
  induction ht with
  | nil =>
      intro entry hentry
      cases hentry
  | @snoc ts s s' label hs hstep ih =>
      intro entry hentry
      rw [accepts_snoc] at hentry
      rcases List.mem_append.1 hentry with hold | hlast
      · exact ih entry hold
      · obtain ⟨job, hat, rfl⟩ := offering_of_accepted? (Option.mem_toList.1 hlast)
        exact now_le_stop_of_trace hs hlimit hlater (by rw [hat]; rfl)

/-- A generator that has stopped while the queue had room has sent all jobs, or the tick of the next
one lies beyond the limit. -/
theorem stopped_of_trace (ht : Trace (step p) (.initial p cancelled b l) ts s)
    (hinterval : p.interval = some interval) (hstart : Nanos.perMilli ∣ p.started)
    (hstop : ∀ stop ∈ p.stopAt, Nanos.perMilli ∣ stop) (hrun : s.cancelled = false)
    (hroom : Unblocked p ts) (hstopped : s.generator = .stopped) :
    p.total ≤ s.sent ∨
      ∃ stop ∈ p.stopAt, stop < Nanos.ceilMillis (p.started + s.sent * interval) := by
  induction ht with
  | nil => cases hstopped
  | @snoc ts s s' label hs hstep ih =>
      have hmove := move_of_step (lateStep_of_step hstep)
      have hrun₀ : s.cancelled = false :=
        Bool.eq_false_iff.2 fun hcancelled => by simp [hmove.cancelled_mono hcancelled] at hrun
      by_cases hlabel : label = .act .generator
      · subst hlabel
        have hnumbers := (numbered_of_trace (late_of_prompt hs)).place
        have hplace := (paced_of_trace hs hinterval hstart hstop hrun₀).place
        cases hmove with
        | generator hmove =>
            cases hmove with
            | finish hat hdone =>
                rw [hat] at hnumbers
                refine .inl (Nat.le_trans hdone (Nat.le_of_eq ?_))
                simpa [Generator.Numbers, State.sent, hat] using hnumbers
            | quit _ hcancelled => cases hrun₀.symm.trans hcancelled
            | expire hat _ hexpired =>
                rcases hat with ⟨id, wake, hat, hbefore⟩ | ⟨job, hat, hfull⟩
                · refine .inr ?_
                  obtain ⟨stop, hlimit, hpassed⟩ : ∃ stop ∈ p.stopAt, stop ≤ s.now := by
                    simpa [Plan.expired, Option.any_eq_true] using hexpired
                  rw [hat] at hnumbers hplace
                  obtain ⟨-, freed, hpast, -, rfl⟩ := hplace
                  have hid : id = s.dispatched := by
                    simpa [State.sent, hat] using hnumbers.1
                  -- The queue has been free since before now, so it is the tick that is not due.
                  have hsent : State.sent { s with generator := .stopped } = id := hid.symm
                  refine ⟨stop, hlimit, ?_⟩
                  rw [hsent]
                  omega
                · exact absurd (hroom.room hat) (Nat.not_lt_of_le hfull)
            | schedule | offer | fail | overflow | send | count => cases hstopped
      · obtain ⟨hgenerator, hsent⟩ := hmove.generator_frame hlabel
        rw [hsent]
        exact ih hrun₀ hroom.of_append (hgenerator ▸ hstopped)

/-- Of the numbers below `n`, those below `k` are counted if just these pass. -/
theorem countP_range {q : Nat → Bool} {k n : Nat} (hle : k ≤ n) (hbelow : ∀ id < k, q id = true)
    (habove : ∀ id, k ≤ id → id < n → q id = false) : (List.range n).countP q = k := by
  obtain ⟨m, rfl⟩ := Nat.exists_eq_add_of_le hle
  have hfirst : (List.range k).countP q = k := by
    rw [List.countP_eq_length.2 fun id hid => hbelow id (List.mem_range.1 hid), List.length_range]
  have hrest : ((List.range m).map (k + ·)).countP q = 0 := by
    refine List.countP_eq_zero.2 fun id hid => ?_
    obtain ⟨i, hi, rfl⟩ := List.mem_map.1 hid
    have hlt := Nat.add_lt_add_left (List.mem_range.1 hi) k
    simp [habove (k + i) (Nat.le_add_right k i) hlt]
  rw [List.range_add, List.countP_append, hfirst, hrest, Nat.add_zero]

/-- A generator that has stopped while the queue had room has sent the jobs whose ticks do not lie
beyond the limit. -/
theorem sent_eq_countP (ht : Trace (step p) (.initial p cancelled b l) ts s)
    (hinterval : p.interval = some interval) (hstart : Nanos.perMilli ∣ p.started) {stop : Nat}
    (hlimit : p.stopAt = some stop) (hstop : Nanos.perMilli ∣ stop) (hlater : p.started ≤ stop)
    (hrun : s.cancelled = false) (hroom : Unblocked p ts) (hstopped : s.generator = .stopped) :
    s.sent = (List.range p.total).countP fun id =>
      Nanos.ceilMillis (p.started + id * interval) ≤ stop := by
  have hstops : ∀ instant ∈ p.stopAt, Nanos.perMilli ∣ instant := by
    intro instant hinstant
    rw [hlimit] at hinstant
    cases hinstant
    exact hstop
  have hpaced := paced_of_trace ht hinterval hstart hstops hrun
  have hsent : ∀ id < s.sent, Nanos.ceilMillis (p.started + id * interval) ≤ stop := by
    intro id hid
    have hmem : id ∈ (accepts ts).map Prod.fst := by
      rw [accepted_ids_of_trace (late_of_prompt ht)]
      exact List.mem_range.2 hid
    obtain ⟨entry, hentry, rfl⟩ := List.mem_map.1 hmem
    rw [← accepted_at_tick ht hpaced hstart hroom entry hentry]
    exact accepted_le_stop ht hlimit hlater entry hentry
  have hunsent : ∀ id, s.sent ≤ id → id < p.total →
      stop < Nanos.ceilMillis (p.started + id * interval) := by
    intro id hid hlt
    rcases stopped_of_trace ht hinterval hstart hstops hrun hroom hstopped with
      hall | ⟨stop', hstop', hbeyond⟩
    · exact absurd (Nat.lt_of_lt_of_le hlt hall) (Nat.not_lt_of_le hid)
    · cases hlimit.symm.trans hstop'
      exact Nat.lt_of_lt_of_le hbeyond (Nanos.ceilMillis_mono
        (Nat.add_le_add_left (Nat.mul_le_mul_right interval hid) p.started))
  symm
  apply countP_range (numbered_of_trace (late_of_prompt ht)).sent_le
  · intro id hid
    exact decide_eq_true (hsent id hid)
  · intro id hid hlt
    exact decide_eq_false (Nat.not_le_of_lt (hunsent id hid hlt))

/-! ## No job is left out -/

/-- A run that has ended well without a limit has offered and sent all its jobs. -/
theorem offers_all (ht : Trace (lateStep p) (.initial p cancelled b l) ts s)
    (hrun : s.cancelled = false) (halive : ¬ s.Crashed) (hfinished : s.supervisor = .finished)
    (hnone : p.stopAt = none) :
    (offers ts).map Prod.fst = List.range p.total ∧
      (accepts ts).map Prod.fst = List.range p.total := by
  have horderly := orderly_of_trace ht
  obtain ⟨r, -, hdispatched, -, -, -, -, hall⟩ := complete_of_trace ht hrun halive hfinished
  obtain ⟨hstopped, -⟩ := horderly.settled hfinished (horderly.failure_eq_none halive)
  have hsent : s.sent = p.total := by
    have hlength := congrArg List.length hdispatched
    rw [dispatched_ids_of_trace ht, List.length_range, List.length_range] at hlength
    exact hlength.trans (hall hnone)
  obtain ⟨k, hids, hle, hoffered⟩ := offered_ids_of_trace ht
  rw [hstopped, hsent] at hoffered
  rw [hids, accepted_ids_of_trace ht, hsent, Nat.le_antisymm hle hoffered.1]
  exact ⟨rfl, rfl⟩

/-- A generator does not die as long as it can make every job and reckon with every tick. -/
theorem generator_ne_crashed (ht : Trace (lateStep p) (.initial p cancelled b l) ts s)
    (hmakes : ∀ id < p.total, p.operation id ≠ none)
    (hin : p.total * p.interval.getD 0 ≤ Nanos.longest) : s.generator ≠ .crashed := by
  induction ht with
  | nil => simp [State.initial]
  | @snoc ts s s' label hs hstep ih =>
      have hmove := move_of_step hstep
      have hnumbered := numbered_of_trace hs
      by_cases hlabel : label = .act .generator
      · subst hlabel
        cases hmove with
        | generator hmove =>
            cases hmove with
            | fail hmakes' hnone => exact absurd hnone (hmakes _ (hnumbered.of_makes hmakes').2)
            | @overflow id wake hat _ _ hbeyond =>
                have hplace := hnumbered.place
                rw [hat] at hplace
                have hle := Nat.mul_le_mul_right (p.interval.getD 0) (Nat.succ_le_of_lt hplace.2)
                exact absurd hbeyond (Nat.not_lt_of_le (Nat.le_trans hle hin))
            | finish | schedule | offer | quit | expire | send | count => simp
      · rw [(hmove.generator_frame hlabel).1]
        exact ih

end Run
end LoadGen
