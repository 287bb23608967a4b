/-!
# The circuit breaker

A breaker watches the outcomes of calls and refuses further calls while the
backend seems to be down.

* Closed: every call may be made.  So many failures in a row open the circuit.
* Open: calls are refused until the timeout has passed since the circuit opened.  From then on
  calls may be made again, but the circuit stays open until the first outcome: a success makes it
  half open, a failure opens it anew.  Outcomes that arrive earlier belong to calls already under
  way and do not move it.
* Half open: every call may be made.  So many successes in a row close the
  circuit; any failure opens it.

The breaker is a value; each operation is given the instant at which it happens.
-/

namespace LoadGen
namespace Circuit

/-- The recorded condition of a circuit. -/
inductive State
  | closed
  | opened
  | halfOpen
  deriving DecidableEq, Repr

def State.name : State → String
  | .closed => "closed"
  | .opened => "open"
  | .halfOpen => "half_open"

def State.ofName? (s : String) : Option State :=
  [State.closed, .opened, .halfOpen].find? (·.name == s)

structure Thresholds where
  /-- Failures in a row that open a closed circuit. -/
  failure : Nat := 5
  /-- Successes in a row that close a half-open circuit. -/
  success : Nat := 3
  /-- How long an open circuit refuses calls, in nanoseconds. -/
  timeout : Nat := 30000000000
  deriving DecidableEq, Repr

/-- The state of a circuit and the outcomes counted towards its next move. -/
structure Breaker where
  state : State := .closed
  failures : Nat := 0
  successes : Nat := 0
  /-- When the circuit was last opened. -/
  openedAt : Option Nat := none
  deriving DecidableEq, Repr

namespace Breaker

/-- The largest number of outcomes that is counted. -/
def countMax : Nat := Nat.pow 2 32 - 1

def bump (n : Nat) : Nat :=
  min (n + 1) countMax

/-- Whether the timeout has passed since the circuit was last opened. -/
def probeReady (b : Breaker) (t : Thresholds) (now : Nat) : Bool :=
  match b.openedAt with
  | none => true
  | some opened => t.timeout ≤ now - opened

/-- Whether a call may be made at `now`. -/
def canExecute (b : Breaker) (t : Thresholds) (now : Nat) : Bool :=
  match b.state with
  | .closed => true
  | .halfOpen => true
  | .opened => b.probeReady t now

def trip (b : Breaker) (now : Nat) : Breaker :=
  { b with state := .opened, successes := 0, openedAt := some now }

def probe (b : Breaker) : Breaker :=
  { b with state := .halfOpen, failures := 0, successes := 0 }

/-- Counts a success of a half-open circuit, and closes the circuit when it is
the last one needed. -/
def probeSucceeded (b : Breaker) (t : Thresholds) : Breaker :=
  let n := bump b.successes
  if t.success ≤ n then { b with state := .closed, failures := 0, successes := 0 }
  else { b with failures := 0, successes := n }

def recordSuccess (b : Breaker) (t : Thresholds) (now : Nat) : Breaker :=
  match b.state with
  | .closed => { b with failures := 0, successes := bump b.successes }
  -- Before the timeout the outcome belongs to a call made when the circuit was still closed.
  | .opened => if b.probeReady t now then b.probe.probeSucceeded t else b
  | .halfOpen => b.probeSucceeded t

def recordFailure (b : Breaker) (t : Thresholds) (now : Nat) : Breaker :=
  match b.state with
  | .closed =>
    let counted := { b with failures := bump b.failures, successes := 0 }
    if t.failure ≤ counted.failures then counted.trip now else counted
  | .opened =>
    -- A late failure is counted, but the circuit was opened by an earlier one.
    if b.probeReady t now then b.probe.trip now else { b with failures := bump b.failures }
  | .halfOpen => b.trip now

def reset (_ : Breaker) : Breaker := {}

end Breaker
end Circuit
end LoadGen
