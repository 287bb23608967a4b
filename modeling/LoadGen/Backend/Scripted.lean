import LoadGen.Backend.Basic

/-!
# Scripted backends

A script says beforehand how every call goes, so that a run can be examined without a server.

* `Timed` — a choice that depends on how much time has passed.
* `pickCall` — the entry of a script for a call: past the end the last one repeats.
* `Scripted` — a backend that follows a script for each job, and `OperationTemplate` a
  factory of the same kind.
-/

namespace LoadGen

/-- One of several things, depending on the time. -/
inductive Timed (β : Type)
  | always (b : β)
  /-- The first choice before `limit` nanoseconds have passed, the second from then on. -/
  | before (limit : Nat) (early late : Timed β)

def Timed.at {β : Type} (elapsed : Nat) : Timed β → β
  | .always b => b
  | .before limit early late => if elapsed < limit then early.at elapsed else late.at elapsed

/-- The entry for call number `n`; the last one repeats. -/
def pickCall {β : Type} (script : List β) (n : Nat) : Option β :=
  script[min n (script.length - 1)]?

namespace Scripted

/-- The result that a script gives, where it does not leave it to the call. -/
structure Fields where
  /-- The duration in nanoseconds; that of the call if not given. -/
  duration : Option Nat := none
  /-- Whether it was a read; as the operation says if not given. -/
  isRead : Option Bool := none
  error : Option String := none
  metadata : Metadata := .empty

/-- What a scripted call comes to. -/
inductive Effect
  | crash (text : String)
  | fault (chain : Fault.Chain)
  /-- An answer, successful or not. -/
  | result (success : Bool) (fields : Fields)

structure Call where
  /-- How long it sleeps, in nanoseconds. -/
  sleep : Nat := 0
  /-- Whether it fires the run's cancellation after the sleep. -/
  cancels : Bool := false
  effect : Effect

/-- The reply of a scripted call to an operation. -/
def Call.reply (c : Call) (op : Operation) : Retry.Reply OperationResult where
  latency := c.sleep
  cancels := c.cancels
  answer := match c.effect with
    | .crash text => .crash text
    | .fault chain => .fault chain
    | .result success fields =>
      .value
        { success
          duration := fields.duration.getD c.sleep
          isRead := fields.isRead.getD op.isRead
          error := fields.error
          value := none
          metadata := fields.metadata }

def immediate : Call := { effect := .result true {} }

end Scripted

structure Scripted where
  name : String := "scripted"
  connectFault : Option Fault.Chain := none
  healthFault : Option Fault.Chain := none
  closeFault : Option Fault.Chain := none
  figures : Assoc String MetaValue := .empty
  /-- Whether the number of calls is among the figures. -/
  countsCalls : Bool := false
  /-- The calls of job `n` are those of entry `n` modulo the number of entries. -/
  script : List (List (Timed Scripted.Call)) := []

namespace Scripted

def call (s : Scripted) (job : Job) (n elapsed : Nat) : Call :=
  match s.script[job.id % s.script.length]? with
  -- Only an empty script has no entry.
  | none => immediate
  | some calls => ((pickCall calls n).map (Timed.at elapsed)).getD immediate

def backend (s : Scripted) : Backend where
  name := s.name
  stageFault
    | .connect => s.connectFault
    | .health => s.healthFault
    | .close => s.closeFault
  call job n elapsed := (s.call job n elapsed).reply job.operation
  figures calls := if s.countsCalls then s.figures.insert "calls" (.int calls) else s.figures

end Scripted

/-- An operation whose key may mention the number of the job and the total, or the
death of the factory. -/
inductive OperationTemplate
  | make (op : Operation)
  | crash

namespace OperationTemplate

/-- Replaces every occurrence of `mark` by `text`. -/
def substitute (mark text : List Char) (fuel : Nat) (cs : List Char) : List Char :=
  match fuel, cs with
  | 0, cs => cs
  | _, [] => []
  | fuel + 1, c :: rest =>
    if mark.isPrefixOf (c :: rest) then
      text ++ substitute mark text fuel ((c :: rest).drop mark.length)
    else c :: substitute mark text fuel rest

/-- The key of job `id` among `total`. -/
def fillKey (key : String) (id total : Nat) : String :=
  let cs := key.toList
  let cs := substitute "\x7bid\x7d".toList (toString id).toList cs.length cs
  let cs := substitute "\x7btotal\x7d".toList (toString total).toList cs.length cs
  String.ofList cs

def fill (t : OperationTemplate) (id total : Nat) : Option Operation :=
  match t with
  | .make op => some { op with key := fillKey op.key id total }
  | .crash => none

/-- The factory that goes through the templates again and again; without
templates, the standard one. -/
def factory (templates : List OperationTemplate) : Factory :=
  fun id options =>
    match templates[id % templates.length]? with
    | some t => t.fill id options.total
    | none => Factory.standard id options

end OperationTemplate
end LoadGen
