import LoadGen.Job.Metadata

/-!
# Jobs

A run makes numbered jobs, each of which asks the backend for one operation and ends in one result.

* `Operation`, `OperationResult` — what a call is given and what it answers.
* `Job` — an operation with its number in the run and the advisory limit for one call.
-/

namespace LoadGen

/-- One request to a backend. -/
structure Operation where
  kind : String
  key : String
  value : Option (List UInt8)
  params : Assoc String String
  /-- How long the backend should keep the value, in nanoseconds. -/
  ttl : Option Nat
  isRead : Bool
  metadata : Metadata

namespace Operation

/-- A write with nothing but a kind and a key. -/
def make (kind key : String) : Operation :=
  { kind, key, value := none, params := .empty, ttl := none, isRead := false, metadata := .empty }

def read (op : Operation) : Operation :=
  { op with isRead := true }

def withValue (op : Operation) (value : List UInt8) : Operation :=
  { op with value := some value }

def withParam (op : Operation) (name value : String) : Operation :=
  { op with params := op.params.insert name value }

def withTtl (op : Operation) (ttl : Nat) : Operation :=
  { op with ttl := some ttl }

def withMeta (op : Operation) (key : MetaKey) (value : MetaValue) : Operation :=
  { op with metadata := op.metadata.insert key value }

end Operation

/-- What came of an operation. -/
structure OperationResult where
  success : Bool
  /-- How long the operation took, in nanoseconds. -/
  duration : Nat
  isRead : Bool
  error : Option String
  value : Option (List UInt8)
  metadata : Metadata

namespace OperationResult

def succeeded (duration : Nat) (isRead : Bool) : OperationResult :=
  { success := true, duration, isRead, error := none, value := none, metadata := .empty }

def failed (duration : Nat) (isRead : Bool) (error : String) : OperationResult :=
  { success := false, duration, isRead, error := some error, value := none, metadata := .empty }

def withValue (r : OperationResult) (value : List UInt8) : OperationResult :=
  { r with value := some value }

def withMeta (r : OperationResult) (key : MetaKey) (value : MetaValue) : OperationResult :=
  { r with metadata := r.metadata.insert key value }

end OperationResult

/-- One unit of work of a run. -/
structure Job where
  id : Nat
  operation : Operation
  /-- The advisory limit for one call, in nanoseconds. -/
  timeout : Option Nat

end LoadGen
