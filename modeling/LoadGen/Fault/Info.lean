/-!
# Faults

A failed call reports a chain of messages.  What kind of failure the chain describes, and what can
be done about it, is an `Info`.

* `Chain` — the messages of a failure, outermost first.
* `Kind`, `Severity`, `Info` — the classification of a failure.
-/

namespace LoadGen
namespace Fault

/-- The messages of a failure, each explained by the next. -/
structure Chain where
  messages : List String
  deriving DecidableEq, Repr, Inhabited

/-- The messages joined by colons. -/
def Chain.text (c : Chain) : String :=
  ": ".intercalate c.messages

inductive Kind
  | timeout
  | connection
  | network
  | authentication
  | rateLimit
  | temporary
  | permanent
  | unknown
  deriving DecidableEq, Repr

/-- Every kind, in the order in which kinds are listed. -/
def Kind.all : List Kind :=
  [.timeout, .connection, .network, .authentication, .rateLimit, .temporary, .permanent, .unknown]

def Kind.name : Kind → String
  | .timeout => "timeout"
  | .connection => "connection"
  | .network => "network"
  | .authentication => "authentication"
  | .rateLimit => "rate_limit"
  | .temporary => "temporary"
  | .permanent => "permanent"
  | .unknown => "unknown"

def Kind.ofName? (s : String) : Option Kind :=
  Kind.all.find? (·.name == s)

inductive Severity
  | low
  | medium
  | high
  | critical
  deriving DecidableEq, Repr

def Severity.name : Severity → String
  | .low => "low"
  | .medium => "medium"
  | .high => "high"
  | .critical => "critical"

def Severity.ofName? (s : String) : Option Severity :=
  [Severity.low, .medium, .high, .critical].find? (·.name == s)

/-- The classification of a failed call. -/
structure Info where
  kind : Kind
  /-- Whether the same call may succeed when it is made again. -/
  retryable : Bool
  /-- Whether the client can recover, for instance by connecting again. -/
  recoverable : Bool
  severity : Severity
  deriving DecidableEq, Repr

/-- The classification of a failure that no rule describes. -/
def Info.unknown : Info :=
  ⟨.unknown, false, false, .medium⟩

theorem Kind.mem_all (k : Kind) : k ∈ Kind.all := by
  cases k <;> decide

theorem Kind.ofName?_name (k : Kind) : Kind.ofName? k.name = some k := by
  cases k <;> decide

theorem Severity.ofName?_name (s : Severity) : Severity.ofName? s.name = some s := by
  cases s <;> decide

end Fault
end LoadGen
