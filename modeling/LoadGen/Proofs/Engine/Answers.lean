import LoadGen.Proofs.Decimal.Order
import LoadGen.Proofs.Engine.Results
import LoadGen.Proofs.Run.Aftermath

/-!
# What an engine answers

A run fails before it begins if the options of the engine are not sound, or else if the backend is
not healthy where this is checked; then neither the ledger nor the breaker is touched.  Otherwise it
is launched, and fails if and only if one of its tasks dies.  This holds in every order of the steps
of its tasks, and whatever dies together with whatever else.

* `EngineOptions.Sound` — options that an engine can work with, and `fault?_eq_none_iff`.
* `Engine.examine` — what is examined before a run is launched.
* `Engine.Return`, `Engine.Returns` — the calls of `Engine.run` that return, in any order of steps;
  `Engine.returns_of_run` says that those that are carried out are among them.
* `Engine.Answers` — what such a call answers and what it leaves behind.
* `Engine.run_answers` — every call answers in this way.
-/

namespace LoadGen

/-! ## Sound options -/

/-- Options that an engine can work with: waits do not shrink from one retry to the next, their
random share is a fraction, the first of them is not above the maximum, the breaker does not move
without an outcome, and the rate window has room. -/
structure EngineOptions.Sound (o : EngineOptions) : Prop where
  backoff_finite : o.policy.backoffFactor.isFinite = true
  one_le_backoff : 1.0 ≤ o.policy.backoffFactor
  jitter_nonneg : 0.0 ≤ o.policy.jitter
  jitter_le_one : o.policy.jitter ≤ 1.0
  delays : o.policy.initialDelay ≤ o.policy.maxDelay
  failure_pos : 0 < o.thresholds.failure
  success_pos : 0 < o.thresholds.success
  bucketSize_pos : 0 < o.ledger.bucketSize
  windowBuckets_pos : 0 < o.ledger.windowBuckets

namespace EngineOptions

/-- A check that passes leaves the rest to the checks after it. -/
theorem check_eq_none_iff {c : Prop} [Decidable c] {fault : ConfigFault}
    {rest : Option ConfigFault} :
    (if c then some fault else rest) = none ↔ ¬ c ∧ rest = none := by
  split <;> simp [*]

/-- The checks let through all sound options and no others. -/
theorem fault?_eq_none_iff (o : EngineOptions) : o.fault? = none ↔ o.Sound := by
  unfold fault?
  simp only [check_eq_none_iff, not_or, not_not, Nat.not_lt, and_true]
  constructor
  · rintro ⟨⟨hfinite, hbackoff⟩, hjitter, hdelays, ⟨hfailure, hsuccess⟩, hbucket, hbuckets⟩
    exact
      { backoff_finite := hfinite
        one_le_backoff := (Decimal.not_lt_iff_le hfinite (by decide)).1 hbackoff
        jitter_nonneg := hjitter.1
        jitter_le_one := hjitter.2
        delays := hdelays
        failure_pos := Nat.pos_of_ne_zero hfailure
        success_pos := Nat.pos_of_ne_zero hsuccess
        bucketSize_pos := Nat.pos_of_ne_zero hbucket
        windowBuckets_pos := Nat.pos_of_ne_zero hbuckets }
  · intro h
    have hbackoff : ¬ o.policy.backoffFactor < 1.0 :=
      (Decimal.not_lt_iff_le h.backoff_finite (by decide)).2 h.one_le_backoff
    exact ⟨⟨h.backoff_finite, hbackoff⟩, ⟨h.jitter_nonneg, h.jitter_le_one⟩, h.delays,
      ⟨h.failure_pos.ne', h.success_pos.ne'⟩, h.bucketSize_pos.ne', h.windowBuckets_pos.ne'⟩

instance (o : EngineOptions) : Decidable o.Sound :=
  decidable_of_iff (o.fault?.isNone = true) (Option.isNone_iff_eq_none.trans o.fault?_eq_none_iff)

theorem exists_fault_of_unsound {o : EngineOptions} (h : ¬ o.Sound) :
    ∃ fault, o.fault? = some fault := by
  rw [← fault?_eq_none_iff] at h
  exact Option.ne_none_iff_exists'.1 h

end EngineOptions

/-- The session after a run. -/
def Session.after (session : Session) (s : Run.State) : Session where
  now := s.now
  breaker := s.breaker
  ledger := s.ledger
  journal := .run s.calls :: session.journal

/-- The outcome of a run that returns with an answer. -/
def RunOutcome.ofAnswer : Except RunError Run.Result → RunOutcome
  | .ok result => .completed result
  | .error error => .failed error

namespace Engine

open Run (History Result)

variable {e : Engine} {session : Session} {bench : BenchOptions} {cancelled : Bool}
  {cancelAt : Option Nat}

/-! ## Before a run -/

/-- What is examined before a run is launched: the options, and after them the backend's health if
it is to be checked. -/
def examine (e : Engine) (session : Session) : Session × Except RunError Unit :=
  match e.options.fault? with
  | some fault => (session, .error (.config fault))
  | none => if e.options.healthCheck then e.ask session .health else (session, .ok ())

/-- What is wrong with the backend's health, as far as it is checked. -/
def illness? (e : Engine) : Option Fault.Chain :=
  if e.options.healthCheck then e.backend.stageFault .health else none

/-- What the backend is asked for before a run. -/
def checkup (e : Engine) : List Contact :=
  if e.options.healthCheck then [.stage .health] else []

theorem run_eq_examine (e : Engine) (session : Session) (bench : BenchOptions)
    (cancelAt : Option Nat) : e.run session bench cancelAt =
      match e.examine session with
      | (session', .error error) => (session', .failed error)
      | (session', .ok ()) => e.launch session' bench cancelAt := by
  unfold run examine
  cases e.options.fault? with
  | some fault => rfl
  | none =>
      cases e.options.healthCheck with
      | false => rfl
      | true =>
          cases e.ask session .health with
          | mk asked answer => cases answer <;> rfl

theorem examine_of_fault (session : Session) {fault : ConfigFault}
    (h : e.options.fault? = some fault) : e.examine session = (session, .error (.config fault)) := by
  rw [examine, h]

theorem examine_of_ill (session : Session) {chain : Fault.Chain} (h : e.options.Sound)
    (hill : e.illness? = some chain) :
    e.examine session = ({ session with journal := .stage .health :: session.journal },
      .error (.backend e.backend.name .health chain)) := by
  unfold illness? at hill
  split at hill
  · rename_i hcheck
    rw [examine, (EngineOptions.fault?_eq_none_iff _).2 h]
    simp only [hcheck, if_true, ask, hill]
  · cases hill

theorem examine_of_healthy (session : Session) (h : e.options.Sound)
    (hhealthy : e.illness? = none) :
    e.examine session = ({ session with journal := e.checkup ++ session.journal }, .ok ()) := by
  rw [examine, (EngineOptions.fault?_eq_none_iff _).2 h]
  unfold illness? at hhealthy
  unfold checkup
  split at hhealthy
  · rename_i hcheck
    simp only [hcheck, if_true, ask, hhealthy]
    rfl
  · rename_i hcheck
    simp only [hcheck]
    rfl

/-! ## Calls that return -/

/-- A call of an engine that has returned. -/
structure Return where
  /-- The steps of the run's tasks, and of its caller while they worked. -/
  steps : History
  /-- Whether the caller's cancellation has fired. -/
  callerCancelled : Bool
  /-- Where the engine stands. -/
  session : Session
  answer : Except RunError Result

/-- The calls of an engine that return, in any order of the steps.  The flag tells whether the
caller has cancelled the run before its tasks are started. -/
inductive Returns (e : Engine) (session : Session) (bench : BenchOptions) (cancelled : Bool) :
    Return → Prop
  | refused {refusing : Session} {error : RunError}
      (hexamine : e.examine session = (refusing, .error error)) :
      Returns e session bench cancelled ⟨[], cancelled, refusing, .error error⟩
  | ended {examined : Session} {ts : History} {s : Run.State} {answer : Except Task Result}
      (hexamine : e.examine session = (examined, .ok ()))
      (hfits : (e.plan bench examined.now).fits = true)
      (hruns : e.Runs examined bench cancelled ts s)
      (houtcome : s.outcome? (e.plan bench examined.now) = some answer) :
      Returns e session bench cancelled
        ⟨ts, s.callerCancelled, examined.after s, answer.mapError .task⟩

/-- What is launched and returns is one of these calls. -/
theorem returns_of_launch {examined : Session} {answer : Except RunError Result}
    (hexamine : e.examine session = (examined, .ok ()))
    (hanswer : (e.launch examined bench cancelAt).2 = .ofAnswer answer) :
    ∃ ts caller, e.Returns session bench (cancelAt.any (· ≤ examined.now))
      ⟨ts, caller, (e.launch examined bench cancelAt).1, answer⟩ := by
  obtain ⟨ts, hruns⟩ := Run.trace_of_reachable (Run.reachable_run (e.plan bench examined.now)
    cancelAt (.initial (e.plan bench examined.now) (cancelAt.any (· ≤ examined.now))
      examined.breaker examined.ledger))
  unfold launch at hanswer ⊢
  simp only at hanswer ⊢
  split
  · rename_i hfits
    rw [if_pos hfits] at hanswer
    split at hanswer
    · rename_i houtcome
      cases answer <;> cases hanswer
      exact ⟨ts, _, .ended hexamine hfits hruns houtcome⟩
    · rename_i houtcome
      cases answer <;> cases hanswer
      exact ⟨ts, _, .ended hexamine hfits hruns houtcome⟩
    · cases answer <;> cases hanswer
  · -- A run that is too large does not begin, and does not return either.
    rename_i hfits
    rw [if_neg hfits] at hanswer
    cases answer <;> cases hanswer

/-- What `Engine.run` carries out and returns is one of these calls. -/
theorem returns_of_run {answer : Except RunError Result}
    (hanswer : (e.run session bench cancelAt).2 = .ofAnswer answer) :
    ∃ ts caller, e.Returns session bench (cancelAt.any (· ≤ session.now))
      ⟨ts, caller, (e.run session bench cancelAt).1, answer⟩ := by
  rw [run_eq_examine] at hanswer ⊢
  by_cases hsound : e.options.Sound
  · cases hill : e.illness? with
    | some chain =>
        have hexamine := examine_of_ill session hsound hill
        rw [hexamine] at hanswer ⊢
        cases answer <;> cases hanswer
        exact ⟨[], _, .refused hexamine⟩
    | none =>
        have hexamine := examine_of_healthy session hsound hill
        rw [hexamine] at hanswer ⊢
        exact returns_of_launch hexamine hanswer
  · obtain ⟨fault, hfault⟩ := EngineOptions.exists_fault_of_unsound hsound
    have hexamine := examine_of_fault session hfault
    rw [hexamine] at hanswer ⊢
    cases answer <;> cases hanswer
    exact ⟨[], _, .refused hexamine⟩

/-! ## What they answer -/

/-- What a call answers and what it leaves behind. -/
structure Answers (e : Engine) (session : Session) (bench : BenchOptions) (cancelled : Bool)
    (r : Return) : Prop where
  config_iff : (∃ fault, r.answer = .error (.config fault)) ↔ ¬ e.options.Sound
  /-- Options that are not sound are refused before anything happens, whatever the backend and the
  factory are. -/
  unsound : ¬ e.options.Sound → r.steps = [] ∧ r.session = session ∧
    ∀ backend factory, ({ e with backend, factory } : Engine).Returns session bench cancelled r
  backend_iff : (∃ name stage chain, r.answer = .error (.backend name stage chain)) ↔
    e.options.Sound ∧ ∃ chain, e.illness? = some chain
  /-- A backend that is not healthy is asked for nothing but its health, whatever it does with calls
  and whatever the factory is. -/
  ill : ∀ chain, e.options.Sound → e.illness? = some chain →
    r.answer = .error (.backend e.backend.name .health chain) ∧ r.steps = [] ∧
      r.session = { session with journal := .stage .health :: session.journal } ∧
      ∀ call factory, ({ e with backend := { e.backend with call }, factory } : Engine).Returns
        session bench cancelled r
  /-- Otherwise the answer is that of a run which has come to its end. -/
  launched : e.options.Sound → e.illness? = none → ∃ s answer,
    e.Runs session bench cancelled r.steps s ∧
      Run.Concludes (e.plan bench session.now) r.steps s answer ∧
      r.answer = answer.mapError .task ∧
      r.session = { session with journal := e.checkup ++ session.journal }.after s
  caller_iff : r.callerCancelled = true ↔
    cancelled = true ∨ ∃ x ∈ r.steps, x.label = .cancel

theorem answers_of_unsound {r : Return} (h : e.Returns session bench cancelled r)
    (hsound : ¬ e.options.Sound) : e.Answers session bench cancelled r := by
  obtain ⟨fault, hfault⟩ := EngineOptions.exists_fault_of_unsound hsound
  have hexamined := examine_of_fault session hfault
  cases h with
  | ended hexamine =>
      rw [hexamined] at hexamine
      cases hexamine
  | refused hexamine =>
      rw [hexamined] at hexamine
      cases hexamine
      refine
        { config_iff := iff_of_true ⟨fault, rfl⟩ hsound
          unsound := fun _ => ⟨rfl, rfl, fun _ _ => .refused (examine_of_fault session hfault)⟩
          backend_iff := iff_of_false ?_ fun h => hsound h.1
          ill := fun _ h => absurd h hsound
          launched := fun h => absurd h hsound
          caller_iff := by simp }
      rintro ⟨name, stage, chain, hanswer⟩
      cases hanswer

theorem answers_of_ill {r : Return} {chain : Fault.Chain}
    (h : e.Returns session bench cancelled r) (hsound : e.options.Sound)
    (hill : e.illness? = some chain) : e.Answers session bench cancelled r := by
  have hexamined := examine_of_ill session hsound hill
  cases h with
  | ended hexamine =>
      rw [hexamined] at hexamine
      cases hexamine
  | refused hexamine =>
      rw [hexamined] at hexamine
      cases hexamine
      refine
        { config_iff := iff_of_false ?_ (not_not_intro hsound)
          unsound := fun h => absurd hsound h
          backend_iff := iff_of_true ⟨_, _, chain, rfl⟩ ⟨hsound, chain, hill⟩
          ill := ?_
          launched := ?_
          caller_iff := by simp }
      · rintro ⟨fault, hanswer⟩
        cases hanswer
      · intro chain' _ hill'
        obtain rfl : chain = chain' := Option.some.inj (hill.symm.trans hill')
        exact ⟨rfl, rfl, rfl, fun _ _ => .refused hexamined⟩
      · intro _ hhealthy
        rw [hill] at hhealthy
        cases hhealthy

theorem answers_of_healthy {r : Return} (h : e.Returns session bench cancelled r)
    (hsound : e.options.Sound) (hhealthy : e.illness? = none) :
    e.Answers session bench cancelled r := by
  have hexamined := examine_of_healthy session hsound hhealthy
  cases h with
  | refused hexamine =>
      rw [hexamined] at hexamine
      cases hexamine
  | @ended examined ts s answer hexamine _ hruns houtcome =>
      rw [hexamined] at hexamine
      cases hexamine
      refine
        { config_iff := iff_of_false ?_ (not_not_intro hsound)
          unsound := fun h => absurd hsound h
          backend_iff := iff_of_false ?_ ?_
          ill := ?_
          launched := ?_
          caller_iff := Run.callerCancelled_iff hruns }
      · rintro ⟨fault, hanswer⟩
        cases answer <;> cases hanswer
      · rintro ⟨name, stage, chain, hanswer⟩
        cases answer <;> cases hanswer
      · rintro ⟨-, chain, hill⟩
        rw [hhealthy] at hill
        cases hill
      · intro chain _ hill
        rw [hhealthy] at hill
        cases hill
      · intro _ _
        -- The examination left a mark in the journal, of which the run knows nothing.
        exact ⟨s, answer, hruns, Run.concludes_of_outcome? hruns houtcome, rfl, rfl⟩

theorem answers_of_returns {r : Return} (h : e.Returns session bench cancelled r) :
    e.Answers session bench cancelled r := by
  by_cases hsound : e.options.Sound
  · cases hill : e.illness? with
    | some chain => exact answers_of_ill h hsound hill
    | none => exact answers_of_healthy h hsound hill
  · exact answers_of_unsound h hsound

/-- Every call that returns answers in this way, whatever the options, the backend, the factory, the
session, the order of the steps and the moment at which the caller cancels; and the calls that are
carried out are among them. -/
theorem run_answers (e : Engine) (session : Session) (bench : BenchOptions) :
    (∀ cancelAt answer, (e.run session bench cancelAt).2 = .ofAnswer answer →
      ∃ ts caller, e.Returns session bench (cancelAt.any (· ≤ session.now))
        ⟨ts, caller, (e.run session bench cancelAt).1, answer⟩) ∧
      ∀ cancelled r, e.Returns session bench cancelled r →
        e.Answers session bench cancelled r :=
  ⟨fun _ _ => returns_of_run, fun _ _ => answers_of_returns⟩

/-- The worker dies of the first job, and the factory of the second one. -/
def doomed : Engine :=
  { deadly with factory := fun id _ => if id = 0 then some (.read (.make "get" "0")) else none }

/-- The end of a run of two jobs. -/
def doomedEnd : Run.State :=
  let p := doomed.plan { total := 2 } 0
  Run.run p none (.initial p false doomed.start.breaker doomed.start.ledger)

/-- The sample on a backend that is down. -/
def ailing : Engine :=
  { sample with backend := { sample.backend with stageFault := fun _ => some ⟨["down"]⟩ } }

/-- The same with a threshold that the breaker cannot have. -/
def reckless : Engine :=
  { ailing with options := { ailing.options with thresholds := { failure := 0 } } }

/-- Where the generator and a worker have both died, the generator is named; where the options are
not sound and the backend is not healthy, the options are. -/
theorem run_answers_doomed :
    (∃ r, doomed.Returns doomed.start { total := 2 } false r ∧
      r.answer = .error (.task .generator) ∧ doomedEnd.workerCrashed = true ∧
        ∃ span, r.session.ledger.finished = some span) ∧
      (∃ r, ailing.Returns ailing.start {} false r ∧
        r.answer = .error (.backend "sample" .health ⟨["down"]⟩) ∧
          r.session.ledger = ailing.start.ledger) ∧
      ∃ r fault, reckless.Returns reckless.start {} false r ∧ r.answer = .error (.config fault) ∧
        r.session.journal = [] := by
  refine ⟨?_, ?_, ?_⟩
  · have hsound : doomed.options.Sound := by decide +kernel
    have hexamine := examine_of_healthy doomed.start hsound rfl
    obtain ⟨ts, hruns⟩ := Run.trace_of_reachable (Run.reachable_run (doomed.plan { total := 2 } 0)
      none (.initial (doomed.plan { total := 2 } 0) false doomed.start.breaker doomed.start.ledger))
    have houtcome : doomedEnd.outcome? (doomed.plan { total := 2 } 0) =
        some (.error .generator) := by
      decide +kernel
    have hreturns : doomed.Returns doomed.start { total := 2 } false _ :=
      .ended hexamine (by decide +kernel) hruns houtcome
    have hanswers := (run_answers doomed doomed.start { total := 2 }).2 false _ hreturns
    obtain ⟨s, answer, -, hconcludes, -, hsession⟩ := hanswers.launched hsound rfl
    obtain ⟨span, hspan, -⟩ := hconcludes.finished
    refine ⟨_, hreturns, rfl, by decide +kernel, span, ?_⟩
    rw [hsession]
    exact hspan
  · have hsound : ailing.options.Sound := by decide +kernel
    have hreturns : ailing.Returns ailing.start {} false _ :=
      .refused (examine_of_ill _ hsound rfl)
    have hanswers := (run_answers ailing ailing.start {}).2 false _ hreturns
    obtain ⟨hanswer, -, hsession, -⟩ := hanswers.ill _ hsound rfl
    refine ⟨_, hreturns, hanswer, ?_⟩
    rw [hsession]
  · have hunsound : ¬ reckless.options.Sound := by decide +kernel
    obtain ⟨fault, hfault⟩ := EngineOptions.exists_fault_of_unsound hunsound
    have hreturns : reckless.Returns reckless.start {} false _ :=
      .refused (examine_of_fault _ hfault)
    have hanswers := (run_answers reckless reckless.start {}).2 false _ hreturns
    obtain ⟨-, hsession, -⟩ := hanswers.unsound hunsound
    exact ⟨_, fault, hreturns, rfl, congrArg Session.journal hsession⟩

end Engine
end LoadGen
