import LoadGen.Proofs.Engine.Results
import LoadGen.Proofs.Run.Recording
import LoadGen.Proofs.Run.Repetition

/-!
# Runs that are repeated

When a run has ended, nothing of it is left that could touch the ledger or the breaker.  The next
run of the engine begins with an empty ledger, so all that it takes over from the runs before it is
the breaker and the clock: it goes as it would on an engine that has just been created, whose breaker
stands the same way.

* `Engine.Past` — the sessions that an engine can come to.
* `Engine.SameEnd` — two runs that have come to the same, and `Engine.Repeats` — two engines, in two
  sessions, whose runs go the same way.
* `Engine.runs_repeat` — the end of a run and the run after it.
-/

namespace LoadGen
namespace Engine

open Run (History Matches Result)

/-! ## What went before -/

/-- The sessions that an engine can come to: by runs that have ended, well or not, in any order of
their steps, with requests for stages and with pauses between them, and whatever is done to the
breaker. -/
inductive Past (e : Engine) : Session → Prop
  | start : Past e e.start
  | ask {session : Session} (hpast : Past e session) (stage : Stage) :
      Past e (e.ask session stage).1
  | pause {session : Session} {now : Nat} (hpast : Past e session) (hlater : session.now ≤ now) :
      Past e { session with now }
  | adjust {session : Session} (hpast : Past e session) (breaker : Circuit.Breaker) :
      Past e { session with breaker }
  | run {session : Session} {bench : BenchOptions} {cancelled : Bool} {ts : History}
      {s : Run.State} (hpast : Past e session) (hruns : e.Runs session bench cancelled ts s)
      (hfinished : s.supervisor = .finished) :
      Past e
        { now := s.now
          breaker := s.breaker
          ledger := s.ledger
          journal := .run s.calls :: session.journal }

variable {e : Engine} {session session' : Session} {bench : BenchOptions} {cancelled : Bool}
  {cancelAt : Option Nat} {d : Nat} {draw : Nat → Nat → Float}

theorem ask_fst (e : Engine) (session : Session) (stage : Stage) : (e.ask session stage).1 =
    { session with journal := .stage stage :: session.journal } := by
  unfold ask
  simp only
  split <;> rfl

/-- Whatever went before, the ledger is kept as the options of the engine say. -/
theorem Past.ledger_options (h : e.Past session) : session.ledger.options = e.options.ledger := by
  induction h with
  | start => rfl
  | ask _ stage ih =>
      rw [ask_fst]
      exact ih
  | pause _ _ ih | adjust _ _ ih => exact ih
  | run _ hruns _ ih => exact (Run.ledger_options_of_trace hruns).trans ih

theorem past_launch (h : e.Past session) (hends : (e.launch session bench cancelAt).2 ≠ .stalled) :
    e.Past (e.launch session bench cancelAt).1 := by
  obtain ⟨ts, hruns⟩ := Run.trace_of_reachable (Run.reachable_run (e.plan bench session.now)
    cancelAt (.initial (e.plan bench session.now) (cancelAt.any (· ≤ session.now)) session.breaker
      session.ledger))
  unfold launch at hends ⊢
  simp only at hends ⊢
  split
  · rename_i hfits
    rw [if_pos hfits] at hends
    split
    · exact h.run hruns (Run.finished_of_outcome? ‹_›)
    · exact h.run hruns (Run.finished_of_outcome? ‹_›)
    · rename_i hnone
      rw [hnone] at hends
      exact absurd rfl hends
  · exact h

/-- A run that `Engine.run` carries out to its end leads to another session of this kind. -/
theorem past_run (h : e.Past session) (hends : (e.run session bench cancelAt).2 ≠ .stalled) :
    e.Past (e.run session bench cancelAt).1 := by
  unfold run at hends ⊢
  split
  · exact h
  · rename_i hsound
    simp only [hsound] at hends
    split
    · rename_i hcheck
      rw [if_pos hcheck] at hends
      have hasked := h.ask .health
      cases hask : e.ask session .health with
      | mk asked answer =>
          rw [hask] at hasked hends
          cases answer with
          | error error => exact hasked
          | ok _ => exact past_launch hasked hends
    · rename_i hcheck
      rw [if_neg hcheck] at hends
      exact past_launch h hends

/-! ## The same run, at another time -/

/-- The result of a run that ended well. -/
def result? : RunOutcome → Option Result
  | .completed result => some result
  | .failed _ | .stalled | .oversized => none

theorem eq_completed_of_result? {outcome : RunOutcome} {result : Result}
    (h : result? outcome = some result) : outcome = .completed result := by
  cases outcome with
  | completed _ => exact congrArg RunOutcome.completed (Option.some.inj h)
  | failed _ | stalled | oversized => cases h

/-- Two runs that have been carried out have come to the same, and are reported in the same way. -/
structure SameEnd (e : Engine) (reached : Session × RunOutcome) (e' : Engine)
    (reached' : Session × RunOutcome) : Prop where
  outcome : reached.2 = reached'.2
  report : ∀ result, reached.2 = .completed result →
    e.report? reached.1 result = e'.report? reached'.1 result

theorem SameEnd.symm {e e' : Engine} {reached reached' : Session × RunOutcome}
    (h : SameEnd e reached e' reached') : SameEnd e' reached' e reached := by
  refine ⟨h.outcome.symm, ?_⟩
  intro result hcompleted
  exact (h.report result (h.outcome.trans hcompleted)).symm

/-- A run without a result has nothing to report. -/
theorem SameEnd.of_result?_eq_none {e e' : Engine} {reached reached' : Session × RunOutcome}
    (h : reached.2 = reached'.2) (hnone : result? reached.2 = none) :
    SameEnd e reached e' reached' := by
  refine ⟨h, ?_⟩
  intro result hcompleted
  rw [hcompleted] at hnone
  cases hnone

/-- The runs of two engines, each in its session, go the same way. -/
structure Repeats (e : Engine) (session : Session) (e' : Engine) (session' : Session)
    (bench : BenchOptions) : Prop where
  /-- Every history of the one has a history of the other that matches it. -/
  history : ∀ {cancelled : Bool} {ts : History} {s : Run.State},
    e.Runs session bench cancelled ts s → ∃ ts' s', e'.Runs session' bench cancelled ts' s' ∧
      Matches (e.plan bench session.now) ts s (e'.plan bench session'.now) ts' s'
  /-- Runs that are carried out, and cancelled after the same time if ever, come to the same. -/
  carried_out : ∀ cancelAfter : Option Nat,
    SameEnd e (e.run session bench (cancelAfter.map (session.now + ·))) e'
      (e'.run session' bench (cancelAfter.map (session'.now + ·)))

/-- A session on a clock that is ahead, with a breaker that stands the same way.  The journal and
what is in the ledger do not matter. -/
structure Ahead (d : Nat) (session session' : Session) : Prop where
  now : session'.now = d + session.now
  breaker : session'.breaker = session.breaker.postpone d
  options : session'.ledger.options = session.ledger.options

/-- The plan of a run that begins later. -/
theorem plan_postpone (hd : Nanos.perMilli ∣ d) (now : Nat) :
    ({ e with draw } : Engine).plan bench (d + now) = (e.plan bench now).postpone d draw := by
  have hstop : stopAt bench (d + now) = (stopAt bench now).map (d + ·) := by
    unfold stopAt
    cases hduration : bench.duration with
    | none => rfl
    | some limit =>
        simp only
        split
        · rfl
        · rw [Nanos.deadlineAt_add hd now limit]
          rfl
  unfold plan Run.Plan.postpone
  simp only [hstop]
  rfl

/-- What is reported after a run does not depend on the time at which it ends. -/
theorem report?_postpone (final : Run.State) (journal journal' : List Contact) (result : Result) :
    ({ e with draw } : Engine).report?
        ⟨d + final.now, final.breaker.postpone d, final.ledger.postpone d,
          .run final.calls :: journal'⟩ result =
      e.report? ⟨final.now, final.breaker, final.ledger, .run final.calls :: journal⟩ result := by
  unfold report?
  simp only [Ledger.snapshot?_postpone]
  rfl

section

variable (hd : Nanos.perMilli ∣ d) (hjitter : e.options.policy.jitter = 0.0)
  (hahead : Ahead d session session')

include hd hjitter hahead

theorem launch_postpone : SameEnd e (e.launch session bench cancelAt) { e with draw }
    (({ e with draw } : Engine).launch session' bench (cancelAt.map (d + ·))) := by
  obtain ⟨now', breaker', ledger', journal'⟩ := session'
  obtain ⟨hnow, hbreaker, hoptions⟩ := hahead
  simp only at hnow hbreaker hoptions
  subst hnow hbreaker
  have hplan : ({ e with draw } : Engine).plan bench (d + session.now) =
      (e.plan bench session.now).postpone d draw := plan_postpone hd session.now
  have hfinal : Run.run ((e.plan bench session.now).postpone d draw) (cancelAt.map (d + ·))
      (.initial ((e.plan bench session.now).postpone d draw)
        (cancelAt.any (decide <| · ≤ session.now)) (session.breaker.postpone d) ledger') =
      (Run.run (e.plan bench session.now) cancelAt (.initial (e.plan bench session.now)
        (cancelAt.any (decide <| · ≤ session.now)) session.breaker session.ledger)).postpone d := by
    rw [← Run.initial_postpone hoptions]
    exact Run.run_postpone hd hjitter cancelAt
  have hfits : ((e.plan bench session.now).postpone d draw).fits =
      (e.plan bench session.now).fits := rfl
  simp only [launch, hplan, Nanos.any_le_add, hfinal, hfits, Run.outcome?_postpone]
  split
  · split
    · refine ⟨rfl, ?_⟩
      intro result _
      exact (report?_postpone _ session.journal journal' result).symm
    · exact .of_result?_eq_none rfl rfl
    · exact .of_result?_eq_none rfl rfl
  · exact .of_result?_eq_none rfl rfl

theorem run_postpone : SameEnd e (e.run session bench cancelAt) { e with draw }
    (({ e with draw } : Engine).run session' bench (cancelAt.map (d + ·))) := by
  cases hfault : e.options.fault? with
  | some fault =>
      simp only [run, hfault]
      exact .of_result?_eq_none rfl rfl
  | none =>
      cases hcheck : e.options.healthCheck with
      | false =>
          simp only [run, hfault, hcheck, Bool.false_eq_true, if_false]
          exact launch_postpone hd hjitter hahead
      | true =>
          cases hstage : e.backend.stageFault .health with
          | some chain =>
              simp only [run, ask, hfault, hcheck, hstage, if_true]
              exact .of_result?_eq_none rfl rfl
          | none =>
              simp only [run, ask, hfault, hcheck, hstage, if_true]
              -- The health check leaves a mark in the two journals, and nothing else.
              have hasked : Ahead d
                  { session with journal := .stage .health :: session.journal }
                  { session' with journal := .stage .health :: session'.journal } :=
                ⟨hahead.now, hahead.breaker, hahead.options⟩
              exact launch_postpone hd hjitter hasked

/-- The runs of the two sessions go the same way, whichever of them comes first. -/
theorem repeats_of_ahead : Repeats e session { e with draw } session' bench ∧
    Repeats { e with draw } session' e session bench := by
  have hplan : ({ e with draw } : Engine).plan bench session'.now =
      (e.plan bench session.now).postpone d draw := by
    rw [hahead.now]
    exact plan_postpone hd session.now
  have hcarried (cancelAfter : Option Nat) :
      SameEnd e (e.run session bench (cancelAfter.map (session.now + ·))) { e with draw }
        (({ e with draw } : Engine).run session' bench
          (cancelAfter.map (session'.now + ·))) := by
    have hcancel : cancelAfter.map (session'.now + ·) =
        (cancelAfter.map (session.now + ·)).map (d + ·) := by
      rw [Option.map_map, hahead.now]
      congr 1
      funext after
      exact Nat.add_assoc _ _ _
    rw [hcancel]
    exact run_postpone hd hjitter hahead
  constructor
  · refine ⟨?_, hcarried⟩
    intro cancelled ts s hruns
    unfold Runs
    rw [hplan, hahead.breaker]
    exact Run.exists_later hd hjitter hahead.options hruns
  · refine ⟨?_, fun cancelAfter => (hcarried cancelAfter).symm⟩
    intro cancelled ts s hruns
    unfold Runs at hruns ⊢
    rw [hplan] at hruns ⊢
    rw [hahead.breaker] at hruns
    exact Run.exists_earlier hd hjitter hahead.options hruns

end

/-- When a run has ended, its tasks have, and nothing of it touches the ledger or the breaker any
more.  A run that begins on a whole millisecond, after whatever went before, goes as it would on an
engine that has just been created, at any other whole millisecond at which its breaker stands the
same way: it has the same histories, and comes to the same counts, the same duration and the same
report.  This takes waits without a random share. -/
theorem runs_repeat (e : Engine) :
    (∀ {session : Session} {bench : BenchOptions} {cancelled : Bool} {ts : History} {s : Run.State}
      {outcome : Except Task Result}, e.Runs session bench cancelled ts s →
      s.outcome? (e.plan bench session.now) = some outcome →
        s.generator.ended = true ∧ s.workersEnded = true ∧ s.collector ≠ .listening ∧
          (∀ actor, Run.stepActor (e.plan bench session.now) s actor = none) ∧
          ∀ us s', Trace (Run.lateStep (e.plan bench session.now)) s us s' →
            s'.ledger = s.ledger ∧ s'.breaker = s.breaker) ∧
      ∀ {session : Session} {bench : BenchOptions} {now : Nat} {breaker : Circuit.Breaker}
        (draw : Nat → Nat → Float), e.Past session → e.options.policy.jitter = 0.0 →
        Nanos.perMilli ∣ session.now → Nanos.perMilli ∣ now →
        session.breaker.Alike session.now breaker now →
        Repeats e session { e with draw }
            { ({ e with draw } : Engine).start with now, breaker } bench ∧
          Repeats { e with draw } { ({ e with draw } : Engine).start with now, breaker } e session
            bench := by
  constructor
  · intro session bench cancelled ts s outcome hruns houtcome
    have hfinished := Run.finished_of_outcome? houtcome
    obtain ⟨hgenerator, hworkers, hcollector⟩ := Run.ended_of_finished hruns hfinished
    refine ⟨hgenerator, hworkers, hcollector, Run.no_act_of_finished hruns hfinished, ?_⟩
    intro us s' hrest
    exact (Run.untouched_of_finished hruns hfinished hrest).2
  · intro session bench now breaker draw hpast hjitter haligned haligned' halike
    have hoptions := hpast.ledger_options
    -- Either may come first.
    rcases Nat.le_total session.now now with hle | hle
    · obtain ⟨d, rfl⟩ := Nat.exists_eq_add_of_le' hle
      have hd : Nanos.perMilli ∣ d := (Nat.dvd_add_left haligned).1 haligned'
      exact repeats_of_ahead hd hjitter ⟨rfl, halike.eq_postpone, hoptions.symm⟩
    · obtain ⟨d, hnow⟩ := Nat.exists_eq_add_of_le' hle
      have hd : Nanos.perMilli ∣ d := by
        rw [hnow] at haligned
        exact (Nat.dvd_add_left haligned').1 haligned
      rw [hnow] at halike
      have hboth : Repeats { e with draw } { ({ e with draw } : Engine).start with now, breaker }
            e session bench ∧
          Repeats e session { e with draw }
            { ({ e with draw } : Engine).start with now, breaker } bench :=
        repeats_of_ahead hd hjitter ⟨hnow, halike.symm.eq_postpone, hoptions⟩
      exact ⟨hboth.2, hboth.1⟩

/-! ## A run and the run after it -/

/-- The sample with waits that have no random share, and with a circuit that the first failure
opens. -/
def steady : Engine :=
  { sample with
    options :=
      { sample.options with
        policy := { maxRetries := 0, jitter := 0.0 }
        thresholds := { failure := 1 } } }

/-- Where the engine stands after a run of two jobs, of which the second fails. -/
def afterTwo : Session :=
  (steady.run steady.start { total := 2 } none).1

/-- A new session whose circuit has just been opened. -/
def justOpened : Session :=
  { steady.start with breaker := { state := .opened, failures := 1, openedAt := some 0 } }

theorem past_afterTwo : steady.Past afterTwo := by
  have hresult : result? (steady.run steady.start { total := 2 } none).2 =
      some ⟨1, 2, 2, 1, 1, 2000000⟩ := by
    decide +kernel
  apply past_run .start
  rw [eq_completed_of_result? hresult]
  exact RunOutcome.noConfusion

/-- The circuit that the second job has opened refuses the first job of the next run, and so does a
circuit that is open when an engine is created. -/
theorem runs_repeat_steady :
    (∃ ts, sample.Runs sample.start { total := 2, parallels := 2 } false ts sampleEnd ∧
      ∀ actor, Run.stepActor (sample.plan { total := 2, parallels := 2 } 0) sampleEnd actor =
        none) ∧
      steady.Past afterTwo ∧
      Repeats steady afterTwo { steady with draw := fun _ _ => 0.5 } justOpened
        { total := 3, rampUp := some 90000000000, duration := some 70000000000 } := by
  constructor
  · obtain ⟨ts, hruns⟩ := sample_runs
    obtain ⟨-, -, -, hstuck, -⟩ := (runs_repeat sample).1 hruns sample_outcome?
    exact ⟨ts, hruns, hstuck⟩
  · refine ⟨past_afterTwo, ((runs_repeat steady).2 (fun _ _ => 0.5) past_afterTwo rfl ?_ ?_ ?_).1⟩
    · decide +kernel
    · decide +kernel
    · exact ⟨by decide +kernel, by decide +kernel, by decide +kernel, by decide +kernel⟩

end Engine
end LoadGen
