import LoadGen.Circuit.Breaker
import LoadGen.Fault.Classifier
import LoadGen.Retry.Policy

/-!
# Executing a call under a retry policy

An execution makes one call again and again until it succeeds, fails for good, is refused by the
circuit breaker or is cancelled.  It is a state machine: `Execution.step` makes its next move at an
instant, given the cancellation flag and the breaker that it shares with others.

* Before every call the flag is looked at first and the breaker second.  A refusal carries the
  failure of the call before.
* A call runs for its latency.  Cancellation interrupts it without an outcome on the breaker;
  otherwise its outcome is recorded the moment it answers.
* After a failure that may be retried the execution waits; cancellation interrupts the wait too.
* A call can take down the task that makes it, and so does a wait that has no length.

An execution that waits for time to pass has no move, and `Execution.wake?` tells
when it will have one.
-/

namespace LoadGen
namespace Retry

variable {α : Type}

/-- What a call comes to. -/
inductive Answer (α : Type)
  | value (a : α)
  | fault (chain : Fault.Chain)
  /-- The call takes down the task that made it. -/
  | crash (text : String)

structure Reply (α : Type) where
  /-- How long the call runs, in nanoseconds. -/
  latency : Nat := 0
  /-- Whether the call fires the cancellation right before it answers. -/
  cancels : Bool := false
  answer : Answer α

/-- A failed call with its classification. -/
structure Failure where
  chain : Fault.Chain
  info : Fault.Info
  deriving DecidableEq, Repr

/-- Why an execution ended without a value. -/
inductive ExecuteError
  /-- The breaker refused a call; `last` is the failure of the call before it. -/
  | circuitOpen (state : Circuit.State) (attempts : Nat) (last : Option Failure)
  | cancelled
  | failed (failure : Failure) (attempts : Nat)
  deriving DecidableEq, Repr

/-- What took down the task of an execution. -/
inductive Crash
  /-- A call did, with a text. -/
  | call (text : String)
  /-- The wait before the next call has no length. -/
  | delay (fault : DelayFault)
  deriving DecidableEq, Repr

namespace ExecuteError

def message : ExecuteError → String
  | .circuitOpen state _ _ => "circuit breaker is " ++ state.name
  | .cancelled => "operation cancelled"
  | .failed failure attempts =>
    "operation failed after " ++ toString attempts ++ " attempt(s): " ++ failure.chain.text

/-- The last failed call that the error tells of. -/
def failure? : ExecuteError → Option Failure
  | .circuitOpen _ _ last => last
  | .cancelled => none
  | .failed failure _ => some failure

def attempts : ExecuteError → Nat
  | .circuitOpen _ attempts _ => attempts
  | .cancelled => 0
  | .failed _ attempts => attempts

end ExecuteError

inductive Phase (α : Type)
  /-- About to make a call, after the failure of the call before. -/
  | ready (last : Option Failure)
  /-- In a call that answers at `wake`. -/
  | calling (wake : Nat) (reply : Reply α)
  /-- Waiting until `wake` to make the call again. -/
  | waiting (failure : Failure) (wake : Nat)
  /-- Ended with a value and the number of calls, or with an error. -/
  | done (outcome : Except ExecuteError (α × Nat))
  /-- Ended without an outcome, since the task went down. -/
  | crashed (cause : Crash)

/-- A call under way, with retries. -/
structure Execution (α : Type) where
  /-- The number of calls that answered, which is also the number of the next call. -/
  attempts : Nat := 0
  phase : Phase α := .ready none

/-- What an execution runs with. -/
structure Setting (α : Type) where
  policy : Policy
  thresholds : Circuit.Thresholds
  classifier : Fault.Classifier
  /-- The draw from the unit interval for the random share of each wait. -/
  draw : Nat → Float
  /-- How the call with a given number goes when it is made at a given instant. -/
  call : Nat → Nat → Reply α

/-- One move of an execution: its new state, the breaker after it, and whether the
cancellation was fired. -/
structure Move (α : Type) where
  execution : Execution α
  breaker : Circuit.Breaker
  cancels : Bool := false

namespace Setting

/-- Whether a failure after `attempts` calls is not retried. -/
def givesUp (S : Setting α) (attempts : Nat) (info : Fault.Info) : Bool :=
  S.policy.maxRetries ≤ attempts - 1 || !S.policy.retryable.contains info.kind

end Setting

namespace Execution

def isCalling (e : Execution α) : Bool :=
  match e.phase with
  | .calling _ _ => true
  | _ => false

/-- The instant at which an execution that waits will have a move. -/
def wake? (e : Execution α) : Option Nat :=
  match e.phase with
  | .calling wake _ => some wake
  | .waiting _ wake => some wake
  | _ => none

def toPhase (e : Execution α) (phase : Phase α) : Execution α :=
  { e with phase }

/-- The move of an execution whose call has answered. -/
def settle (S : Setting α) (now : Nat) (b : Circuit.Breaker) (e : Execution α) (reply : Reply α) :
    Move α :=
  let attempts := e.attempts + 1
  match reply.answer with
  | .value a =>
    { execution := ⟨attempts, .done (.ok (a, attempts))⟩
      breaker := b.recordSuccess S.thresholds now
      cancels := reply.cancels }
  | .fault chain =>
    let failure : Failure := ⟨chain, S.classifier.classify chain⟩
    let phase : Phase α :=
      if S.givesUp attempts failure.info then .done (.error (.failed failure attempts))
      else match S.policy.delay (attempts - 1) (S.draw (attempts - 1)) with
        | .ok wait => .waiting failure (Nanos.wakeAt now wait)
        | .error fault => .crashed (.delay fault)
    { execution := ⟨attempts, phase⟩
      breaker := b.recordFailure S.thresholds now
      cancels := reply.cancels }
  | .crash text =>
    { execution := ⟨e.attempts, .crashed (.call text)⟩
      breaker := b
      cancels := reply.cancels }

/-- The next move at `now`, if there is one. -/
def step (S : Setting α) (now : Nat) (cancelled : Bool) (b : Circuit.Breaker) (e : Execution α) :
    Option (Move α) :=
  match e.phase with
  | .ready last =>
    if cancelled then
      some { execution := e.toPhase (.done (.error .cancelled)), breaker := b }
    else if b.canExecute S.thresholds now then
      let reply := S.call e.attempts now
      let wake := Nanos.wakeAt now reply.latency
      some { execution := e.toPhase (.calling wake reply), breaker := b }
    else
      let refusal := .circuitOpen b.state e.attempts last
      some { execution := e.toPhase (.done (.error refusal)), breaker := b }
  | .calling wake reply =>
    if cancelled then
      some { execution := e.toPhase (.done (.error .cancelled)), breaker := b }
    else if wake ≤ now then some (e.settle S now b reply)
    else none
  | .waiting failure wake =>
    if cancelled then
      some { execution := e.toPhase (.done (.error .cancelled)), breaker := b }
    else if wake ≤ now then
      some { execution := e.toPhase (.ready (some failure)), breaker := b }
    else none
  | .done _ => none
  | .crashed _ => none

end Execution
end Retry
end LoadGen
