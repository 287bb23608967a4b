import LoadGen.Proofs.Engine.Ends
import LoadGen.Proofs.Run.Cancellation
import LoadGen.Proofs.Run.Pacing

/-!
# Ramped and limited runs

A run with a ramp-up offers its jobs at the ticks of the ramp-up, and a run with a limit stops
making jobs when the limit is over.  Both count the time from the start of the run.

* `Engine.runs_ramped` — when the jobs of a ramp-up are offered, whatever the queue does.
* `Engine.runs_limited` — which jobs are sent within a limit.
* `Run.onward`, `Run.trace_of_onward` — a run in which the first task that has a step goes on.
-/

namespace LoadGen

namespace Run

/-- A label that can be next: of the first task that has a step, or of the next instant for which a
task waits. -/
def next? (p : Plan) (s : State) : Option Label :=
  let tasks := (List.range p.tasks).map p.actor ++ [.supervisor]
  match tasks.find? fun actor => (stepActor p s actor).isSome with
  | some actor => some (.act actor)
  | none => (soonest (s.wakes p)).map .wait

/-- At most so many steps of a run, each the next one. -/
def onward (p : Plan) (s : State) : Nat → History × State
  | 0 => ([], s)
  | n + 1 =>
    match next? p s with
    | none => ([], s)
    | some label =>
      match step p s label with
      | none => ([], s)
      | some s' =>
        let rest := onward p s' n
        (⟨s, label, s'⟩ :: rest.1, rest.2)

theorem trace_of_onward (p : Plan) (s : State) (n : Nat) :
    Trace (step p) s (onward p s n).1 (onward p s n).2 := by
  induction n generalizing s with
  | zero => exact .nil
  | succ n ih =>
      rw [onward]
      split
      · exact .nil
      · split
        · exact .nil
        · exact .cons (x := ⟨_, _, _⟩) ‹_› (ih _)

end Run

namespace Engine

open Run (History offers accepts Unblocked)

/-- The interval of a ramp-up. -/
theorem interval_eq {e : Engine} {bench : BenchOptions} {span : Nat}
    (hspan : bench.rampUp = some span) (hpos : 0 < span) (htotal : 1 ≤ bench.total) :
    e.interval bench =
      some (max (min (span / bench.total) Nanos.wordMax) e.options.minRampInterval) := by
  rw [interval, hspan]
  exact if_neg (by omega)

/-- A positive limit is over so much later, on a whole millisecond. -/
theorem stopAt_eq {bench : BenchOptions} {d now : Nat} (hlimit : bench.duration = some d)
    (hpos : 0 < d) (hstart : Nanos.perMilli ∣ now) :
    stopAt bench now = some (now + Nanos.ceilMillis d) := by
  rw [stopAt, hlimit]
  simp only [if_neg (Nat.ne_of_gt hpos), Nanos.deadlineAt, Nanos.ceilMillis_add hstart]

/-! ## Ramp-ups -/

/-- A ramp-up offers the first job at the start and any other one at its tick, or when the queue has
taken the job before if that is later, as long as the run is not cancelled and has no limit.  So no
job is early, and the ticks stay where they are whatever the queue does.  No job is left out: the
generator lives as long as it can make the jobs, and a run that ends has offered and sent all of
them.  If the queue always has room and the interval is not raised, all are sent within the span. -/
theorem runs_ramped (e : Engine) (session : Session) (bench : BenchOptions) {span interval : Nat}
    (hspan : bench.rampUp = some span) (hpos : 0 < span) (htotal : 1 ≤ bench.total)
    (hinterval :
      interval = max (min (span / bench.total) Nanos.wordMax) e.options.minRampInterval)
    (hin : (bench.total + 1) * interval ≤ Nanos.longest) (hlimit : bench.duration.getD 0 = 0)
    (hstart : Nanos.perMilli ∣ session.now) {cancelled : Bool} {ts : History} {s : Run.State}
    (hruns : e.PromptRuns session bench cancelled ts s) (hrun : s.cancelled = false) :
    (∀ instant, (0, instant) ∈ offers ts → instant = session.now) ∧
      (∀ id instant, (id + 1, instant) ∈ offers ts → ∃ freed, (id, freed) ∈ accepts ts ∧
        instant = max (session.now + Nanos.ceilMillis ((id + 1) * interval)) freed) ∧
      (∀ id instant, (id, instant) ∈ offers ts → session.now + id * interval ≤ instant) ∧
      (∀ id freed, (id, freed) ∈ accepts ts → ∃ instant ≤ freed, (id, instant) ∈ offers ts) ∧
      ((accepts ts).map Prod.fst = List.range s.sent ∧
        ∃ k, (offers ts).map Prod.fst = List.range k ∧ k ≤ bench.total) ∧
      ((∀ id < bench.total, e.factory id bench ≠ none) → s.generator ≠ .crashed) ∧
      (¬ s.Crashed → s.supervisor = .finished →
        (offers ts).map Prod.fst = List.range bench.total ∧
          (accepts ts).map Prod.fst = List.range bench.total) ∧
      (Unblocked (e.plan bench session.now) ts →
        e.options.minRampInterval ≤ min (span / bench.total) Nanos.wordMax →
          ∀ entry ∈ accepts ts, entry.2 ≤ session.now + Nanos.ceilMillis span) := by
  have hinterval' : (e.plan bench session.now).interval = some interval :=
    hinterval ▸ interval_eq hspan hpos htotal
  have hnone : (e.plan bench session.now).stopAt = none := stopAt_eq_none hlimit session.now
  have hstop : ∀ stop ∈ (e.plan bench session.now).stopAt, Nanos.perMilli ∣ stop := by
    intro stop hstop
    rw [hnone] at hstop
    cases hstop
  have hpaced := Run.paced_of_trace hruns hinterval' hstart hstop hrun
  have haccepted := Run.accepted_ids_of_trace hruns.runs
  obtain ⟨k, hids, hk, -⟩ := Run.offered_ids_of_trace hruns.runs
  have hnext : ∀ id instant, (id + 1, instant) ∈ offers ts → ∃ freed, (id, freed) ∈ accepts ts ∧
      instant = max (session.now + Nanos.ceilMillis ((id + 1) * interval)) freed := by
    intro id instant hentry
    obtain ⟨freed, hfreed, hinstant⟩ := hpaced.offered _ hentry
    rw [← Nanos.ceilMillis_add hstart]
    exact ⟨freed, hfreed, hinstant⟩
  refine ⟨?_, hnext, ?_, ?_, ⟨haccepted, k, hids, hk⟩, ?_, ?_, ?_⟩
  · intro instant hentry
    obtain ⟨freed, hfirst, hinstant⟩ := hpaced.offered _ hentry
    have hstarted : freed = session.now := hfirst
    simpa [hstarted, plan, Nanos.ceilMillis_of_dvd hstart] using hinstant
  · intro id instant hentry
    obtain ⟨freed, -, hinstant⟩ := hpaced.offered _ hentry
    have hceil := Nanos.le_ceilMillis (session.now + id * interval)
    rw [show instant = _ from hinstant]
    exact Nat.le_trans hceil (Nat.le_max_left _ _)
  · intro id freed hentry
    obtain ⟨instant, hle, hmem, -⟩ := Run.offered_of_accepted hruns _ hentry
    exact ⟨instant, hle, hmem⟩
  · intro hmakes
    refine Run.generator_ne_crashed hruns.runs hmakes ?_
    rw [hinterval', Option.getD_some]
    exact Nat.le_trans (Nat.mul_le_mul_right interval (Nat.le_succ bench.total)) hin
  · exact fun halive hfinished => Run.offers_all hruns.runs hrun halive hfinished hnone
  · intro hroom hraised entry hentry
    have hid : entry.1 < bench.total := by
      have hmem := List.mem_map_of_mem (f := Prod.fst) hentry
      rw [haccepted, List.mem_range] at hmem
      exact Nat.lt_of_lt_of_le hmem (Run.numbered_of_trace hruns.runs).sent_le
    have hshare : interval ≤ span / bench.total := by
      rw [hinterval, Nat.max_eq_left hraised]
      exact Nat.min_le_left _ _
    rw [Run.accepted_at_tick hruns hpaced hstart hroom entry hentry, ← Nanos.ceilMillis_add hstart]
    refine Nanos.ceilMillis_mono (Nat.add_le_add_left ?_ session.now)
    calc entry.1 * interval
        ≤ bench.total * (span / bench.total) := Nat.mul_le_mul (Nat.le_of_lt hid) hshare
      _ ≤ span := Nat.mul_div_le span bench.total

/-- One worker whose calls take five milliseconds, behind a queue for one job. -/
def slow : Engine where
  backend :=
    { sample.backend with
      call := fun _ _ _ => { latency := 5000000, answer := .value (.succeeded 5 true) } }
  factory := sample.factory
  options := sample.options

/-- Four jobs over five milliseconds. -/
def slowBench : BenchOptions := { total := 4, rampUp := some 5000000 }

/-- A run of the four jobs. -/
def slowRun : History × Run.State :=
  let p := slow.plan slowBench 0
  Run.onward p (.initial p false slow.start.breaker slow.start.ledger) 120

/-- The queue holds the third job up until the first call is over, so the fourth one is late, too,
but its tick at four milliseconds is not put off. -/
theorem runs_ramped_slow :
    slow.PromptRuns slow.start slowBench false slowRun.1 slowRun.2 ∧
      slowRun.2.supervisor = .finished ∧
      offers slowRun.1 = [(0, 0), (1, 2000000), (2, 3000000), (3, 5000000)] ∧
      accepts slowRun.1 = [(0, 0), (1, 2000000), (2, 5000000), (3, 10000000)] ∧
      ∃ freed, (2, freed) ∈ accepts slowRun.1 ∧
        5000000 = max (0 + Nanos.ceilMillis 3750000) freed := by
  have hruns : slow.PromptRuns slow.start slowBench false slowRun.1 slowRun.2 :=
    Run.trace_of_onward _ _ _
  have hoffers : offers slowRun.1 = [(0, 0), (1, 2000000), (2, 3000000), (3, 5000000)] := by
    decide +kernel
  have hinterval : 1250000 =
      max (min (5000000 / slowBench.total) Nanos.wordMax) slow.options.minRampInterval := by
    decide
  have hwhen := runs_ramped slow slow.start slowBench rfl (by decide) (by decide) hinterval
    (by decide) rfl (by decide) hruns (by decide +kernel)
  refine ⟨hruns, by decide +kernel, hoffers, by decide +kernel, ?_⟩
  exact hwhen.2.1 2 5000000 (by rw [hoffers]; decide)

/-! ## Limits -/

/-- A limit stops the sending of jobs when it is over, as long as the run is not cancelled.  The
jobs that are sent are the first ones, and the run reports how many.  If the jobs come at ticks and
the queue always has room, they are those whose ticks do not lie beyond the limit, with the tick in
the very millisecond in which the limit is over. -/
theorem runs_limited (e : Engine) (session : Session) (bench : BenchOptions) {d : Nat}
    (hlimit : bench.duration = some d) (hpos : 0 < d)
    (hstart : Nanos.perMilli ∣ session.now) {cancelled : Bool} {ts : History} {s : Run.State}
    (hruns : e.PromptRuns session bench cancelled ts s) (hrun : s.cancelled = false) :
    (∀ entry ∈ accepts ts, entry.2 ≤ session.now + Nanos.ceilMillis d) ∧
      (accepts ts).map Prod.fst = List.range s.sent ∧
      (¬ s.Crashed → s.supervisor = .finished →
        ∃ r, s.outcome? (e.plan bench session.now) = some (.ok r) ∧
          (accepts ts).map Prod.fst = List.range r.dispatched ∧ r.dispatched ≤ bench.total ∧
          ∀ interval, e.interval bench = some interval →
            Unblocked (e.plan bench session.now) ts →
              r.dispatched = (List.range bench.total).countP fun id =>
                Nanos.ceilMillis (id * interval) ≤ Nanos.ceilMillis d) := by
  have hstopAt : (e.plan bench session.now).stopAt = some (session.now + Nanos.ceilMillis d) :=
    stopAt_eq hlimit hpos hstart
  have hlater : session.now ≤ session.now + Nanos.ceilMillis d := Nat.le_add_right _ _
  have haccepted := Run.accepted_ids_of_trace hruns.runs
  refine ⟨Run.accepted_le_stop hruns hstopAt hlater, haccepted, ?_⟩
  intro halive hfinished
  have horderly := Run.orderly_of_trace hruns.runs
  obtain ⟨hstopped, -⟩ := horderly.settled hfinished (horderly.failure_eq_none halive)
  have hr := Run.ok_of_finished hruns.runs halive hfinished
  have hsent := (Run.settled_of_outcome? hruns.runs hr).sent_eq
  rw [hsent] at haccepted
  have hle := (Run.numbered_of_trace hruns.runs).dispatched_le
  refine ⟨_, hr, haccepted, hle, fun interval hinterval hroom => ?_⟩
  have haligned : Nanos.perMilli ∣ session.now + Nanos.ceilMillis d :=
    Nat.dvd_add hstart (Nanos.ceilMillis_dvd d)
  have hcount := Run.sent_eq_countP hruns hinterval hstart hstopAt haligned hlater hrun hroom
    hstopped
  simpa only [plan, hsent, Nanos.ceilMillis_add hstart, Nat.add_le_add_iff_left] using hcount

/-- Six jobs over nine milliseconds, of which there are four and a half. -/
def limitedBench : BenchOptions := { total := 6, rampUp := some 9000000, duration := some 4500000 }

/-- A run of the six jobs. -/
def limitedRun : History × Run.State :=
  let p := sample.plan limitedBench 0
  Run.onward p (.initial p false sample.start.breaker sample.start.ledger) 120

/-- The tick of the fourth job and the end of the limit fall on the same millisecond. -/
theorem runs_limited_sample :
    sample.PromptRuns sample.start limitedBench false limitedRun.1 limitedRun.2 ∧
      accepts limitedRun.1 = [(0, 0), (1, 2000000), (2, 3000000), (3, 5000000)] ∧
      ∃ r, limitedRun.2.outcome? (sample.plan limitedBench 0) = some (.ok r) ∧
        r.dispatched = 4 := by
  have hruns : sample.PromptRuns sample.start limitedBench false limitedRun.1 limitedRun.2 :=
    Run.trace_of_onward _ _ _
  have hroom : Unblocked (sample.plan limitedBench 0) limitedRun.1 := by decide +kernel
  obtain ⟨-, -, hends⟩ := runs_limited sample sample.start limitedBench rfl (by decide)
    (by decide) hruns (by decide +kernel)
  obtain ⟨r, hr, -, -, hcount⟩ := hends (by decide +kernel) (by decide +kernel)
  refine ⟨hruns, by decide +kernel, r, hr, ?_⟩
  rw [hcount 1500000 (by decide) hroom]
  decide

end Engine
end LoadGen
