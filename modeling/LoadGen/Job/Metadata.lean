import LoadGen.Data.Assoc
import LoadGen.Json.Basic
import LoadGen.Time.Span

/-!
# Metadata

Operations and results carry values under a fixed set of keys.

* `MetaKey` — the keys, in the order in which they are listed.
* `MetaValue` — a value; `number?` is its numeric reading and `display` its written form.
* `Metadata` — a finite map from keys to values; `toList` lists it in key order.
-/

namespace LoadGen

/-- What a value of the metadata is about. -/
inductive MetaKey
  | statusCode
  | method
  | topic
  | partition
  | bytesSent
  | bytesReceived
  | connectTime
  | firstByteTime
  | queueTime
  | messageCount
  | errorType
  | errorSeverity
  | retryable
  | recoverable
  | circuitState
  | attempts
  deriving DecidableEq, Repr

namespace MetaKey

/-- Every key, in the order in which keys are listed. -/
def all : List MetaKey :=
  [.statusCode, .method, .topic, .partition, .bytesSent, .bytesReceived, .connectTime,
    .firstByteTime, .queueTime, .messageCount, .errorType, .errorSeverity, .retryable, .recoverable,
    .circuitState, .attempts]

def name : MetaKey → String
  | .statusCode => "status_code"
  | .method => "method"
  | .topic => "topic"
  | .partition => "partition"
  | .bytesSent => "bytes_sent"
  | .bytesReceived => "bytes_received"
  | .connectTime => "connect_time"
  | .firstByteTime => "first_byte_time"
  | .queueTime => "queue_time"
  | .messageCount => "message_count"
  | .errorType => "error_type"
  | .errorSeverity => "error_severity"
  | .retryable => "retryable"
  | .recoverable => "recoverable"
  | .circuitState => "circuit_state"
  | .attempts => "attempts"

def ofName? (s : String) : Option MetaKey :=
  all.find? (·.name == s)

/-- The place of a key in the listing order. -/
def rank (k : MetaKey) : Nat :=
  all.idxOf k

/-- Whether the values of this key are times in milliseconds. -/
def isTime : MetaKey → Bool
  | .connectTime | .firstByteTime | .queueTime => true
  | _ => false

theorem mem_all (k : MetaKey) : k ∈ all := by
  cases k <;> decide

theorem ofName?_name (k : MetaKey) : ofName? k.name = some k := by
  cases k <;> decide

end MetaKey

inductive MetaValue
  | bool (value : Bool)
  | int (value : Int)
  | float (value : Float)
  | text (value : String)
  /-- A span of time in nanoseconds. -/
  | duration (value : Nat)

namespace MetaValue

/-- The value as a number: integers, floats, and spans in milliseconds. -/
def number? : MetaValue → Option Float
  | .int v => some (Float.ofInt v)
  | .float v => some v
  | .duration d => some (Nanos.toMillis d)
  | .bool _ => none
  | .text _ => none

def display : MetaValue → String
  | .bool v => if v then "true" else "false"
  | .int v => toString v
  | .float v => Decimal.Style.plain.render v
  | .text v => v
  | .duration d => Span.format d

/-- The value in a document; a span is its milliseconds. -/
def toJson : MetaValue → Json
  | .bool v => .bool v
  | .int v => .int v
  | .float v => .float v
  | .text v => .text v
  | .duration d => .float (Nanos.toMillis d)

end MetaValue

/-- The metadata of an operation or a result. -/
abbrev Metadata := Assoc MetaKey MetaValue

def Metadata.toList (m : Metadata) : List (MetaKey × MetaValue) :=
  MetaKey.all.filterMap fun k => (m.get? k).map fun v => (k, v)

end LoadGen
