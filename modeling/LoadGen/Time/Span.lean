import LoadGen.Time.Nanos

/-!
# Spans written for people

A span is written as a sum of units, `1h 30m`, and read from the same kind of text with more
spellings, optional fractions and free blanks.

* `Span.format` — the non-zero parts of a span, largest unit first.
* `Span.parse` — the span a text denotes, or why it denotes none.
-/

namespace LoadGen
namespace Span

/-- Seconds in a year of 365.25 days. -/
def yearSeconds : Nat := 31557600

/-- Seconds in a twelfth of a year, to a whole number of minutes. -/
def monthSeconds : Nat := 2630016

/-- A count with a unit that takes a plural. -/
def counted (n : Nat) (unit : String) : List String :=
  if n = 0 then [] else if n = 1 then ["1" ++ unit] else [toString n ++ unit ++ "s"]

/-- A count with a unit symbol. -/
def measured (n : Nat) (unit : String) : List String :=
  if n = 0 then [] else [toString n ++ unit]

/-- The span as a sum of units, `0s` for the empty one. -/
def format (d : Nat) : String :=
  let secs := d / Nanos.perSecond
  let frac := d % Nanos.perSecond
  let inYear := secs % yearSeconds
  let inMonth := inYear % monthSeconds
  let inDay := inMonth % 86400
  let parts :=
    counted (secs / yearSeconds) "year" ++
    counted (inYear / monthSeconds) "month" ++
    counted (inMonth / 86400) "day" ++
    measured (inDay / 3600) "h" ++
    measured (inDay % 3600 / 60) "m" ++
    measured (inDay % 60) "s" ++
    measured (frac / Nanos.perMilli) "ms" ++
    measured (frac / Nanos.perMicro % 1000) "us" ++
    measured (frac % 1000) "ns"
  if parts.isEmpty then "0s" else " ".intercalate parts

inductive Unit
  | nanosecond
  | microsecond
  | millisecond
  | second
  | minute
  | hour
  | day
  | week
  | month
  | year
  deriving DecidableEq, Repr

/-- The unit of a spelling. -/
def Unit.ofName? (name : String) : Option Unit :=
  if name ∈ ["nanos", "nsec", "ns"] then some .nanosecond
  else if name ∈ ["usec", "us", "µs"] then some .microsecond
  else if name ∈ ["millis", "msec", "ms"] then some .millisecond
  else if name ∈ ["seconds", "second", "secs", "sec", "s"] then some .second
  else if name ∈ ["minutes", "minute", "min", "mins", "m"] then some .minute
  else if name ∈ ["hours", "hour", "hrs", "hr", "h"] then some .hour
  else if name ∈ ["days", "day", "d"] then some .day
  else if name ∈ ["weeks", "week", "wks", "wk", "w"] then some .week
  else if name ∈ ["months", "month", "M"] then some .month
  else if name ∈ ["years", "year", "yrs", "yr", "y"] then some .year
  else none

/-- An amount of whole seconds and of nanoseconds, each of which has to fit into 64 bits. -/
structure Amount where
  seconds : Nat
  nanos : Nat
  deriving DecidableEq, Repr

/-- The number if it fits into 64 bits. -/
def word? (n : Nat) : Option Nat :=
  if n < Nat.pow 2 64 then some n else none

def divideExactly? (num den : Nat) : Option Nat :=
  if num % den = 0 then some (num / den) else none

def Unit.whole? (u : Unit) (n : Nat) : Option Amount :=
  let seconds factor := (word? (n * factor)).map fun s => Amount.mk s 0
  let nanos factor := (word? (n * factor)).map fun s => Amount.mk 0 s
  match u with
  | .nanosecond => nanos 1
  | .microsecond => nanos 1000
  | .millisecond => nanos 1000000
  | .second => seconds 1
  | .minute => seconds 60
  | .hour => seconds 3600
  | .day => seconds 86400
  | .week => seconds 604800
  | .month => seconds monthSeconds
  | .year => seconds yearSeconds

/-- The fraction `num / den` of a unit, which has to be a whole number of nanoseconds for the units
up to the minute and of seconds for the larger ones; a nanosecond has no fractions. -/
def Unit.part? (u : Unit) (num den : Nat) : Option Amount :=
  let exact factor := (word? (num * factor)).bind fun n => divideExactly? n den
  let seconds factor := (exact factor).map fun s => Amount.mk s 0
  let nanos factor := (exact factor).map fun s => Amount.mk 0 s
  match u with
  | .nanosecond => none
  | .microsecond => nanos 1000
  | .millisecond => nanos 1000000
  | .second => nanos 1000000000
  | .minute => nanos 60000000000
  | .hour => seconds 3600
  | .day => seconds 86400
  | .week => seconds 604800
  | .month => seconds monthSeconds
  | .year => seconds yearSeconds

/-- Why a text denotes no span. -/
inductive ReadFault
  /-- It is not written like a span, or some number on the way leaves 64 bits. -/
  | malformed
  /-- All numbers fit, and their sum is longer than every span. -/
  | overflow
  deriving DecidableEq, Repr

/-- What a text has to have. -/
def require {α : Type} : Option α → Except ReadFault α
  | some a => .ok a
  | none => .error .malformed

def add (total : Nat) (a : Amount) : Except ReadFault Nat := do
  let nanos ← require (word? (total % Nanos.perSecond + a.nanos))
  -- Nanoseconds that make up exactly one second are carried last, and may carry too far.
  let early := if nanos = Nanos.perSecond then 0 else nanos / Nanos.perSecond
  let carried ← require (word? (a.seconds + early))
  let seconds ← require (word? (total / Nanos.perSecond + carried))
  let sum := seconds * Nanos.perSecond + (nanos - early * Nanos.perSecond)
  if sum ≤ Nanos.longest then .ok sum else .error .overflow

/-- What the reader has seen since the last complete part. -/
inductive Reading
  /-- Nothing but blanks; `started` tells whether a part came before. -/
  | between (started : Bool)
  /-- A whole number. -/
  | number (n : Nat)
  /-- A number, the point and the digits `num` of a fraction over `den`. -/
  | fraction (n num den : Nat)
  /-- A number and the first letters of a unit, last letter first. -/
  | unit (n : Nat) (part : Option (Nat × Nat)) (letters : List Char)

/-- Characters with the Unicode property of white space. -/
def isBlank (c : Char) : Bool :=
  let n := c.toNat
  (9 ≤ n && n ≤ 13) || n == 32 || n == 133 || n == 160 || n == 5760 || (8192 ≤ n && n ≤ 8202) ||
    n == 8232 || n == 8233 || n == 8239 || n == 8287 || n == 12288

def isUnitLetter (c : Char) : Bool :=
  c.isAlpha || c == 'µ'

def pushDigit? (n : Nat) (c : Char) : Option Nat :=
  word? (n * 10 + (c.toNat - 48))

/-- Adds a complete part to the span. -/
def close (total n : Nat) (part : Option (Nat × Nat)) (letters : List Char) :
    Except ReadFault Nat := do
  let u ← require (Unit.ofName? (String.ofList letters.reverse))
  let whole ← require (u.whole? n)
  let total ← add total whole
  match part with
  | none => return total
  | some (num, den) =>
    let rest ← require (u.part? num den)
    add total rest

def step (state : Nat × Reading) (c : Char) : Except ReadFault (Nat × Reading) :=
  let (total, reading) := state
  match reading with
  | .between started =>
    if c.isDigit then .ok (total, .number (c.toNat - 48))
    else if isBlank c then .ok (total, .between started)
    else .error .malformed
  | .number n =>
    if c.isDigit then require ((pushDigit? n c).map fun n => (total, .number n))
    else if isBlank c then .ok (total, .number n)
    else if isUnitLetter c then .ok (total, .unit n none [c])
    else if c = '.' then .ok (total, .fraction n 0 1)
    else .error .malformed
  | .fraction n num den =>
    if c.isDigit then
      require ((word? (den * 10)).bind fun den =>
        (pushDigit? num c).map fun num => (total, .fraction n num den))
    else if isBlank c then .ok (total, .fraction n num den)
    else if isUnitLetter c && den != 1 then .ok (total, .unit n (some (num, den)) [c])
    else .error .malformed
  | .unit n part letters =>
    if c.isDigit then (close total n part letters).map fun t => (t, .number (c.toNat - 48))
    else if isBlank c then (close total n part letters).map fun t => (t, .between true)
    else if isUnitLetter c then .ok (total, .unit n part (c :: letters))
    else .error .malformed

/-- The span that `text` denotes: `0`, or one or more numbers with units. -/
def parse (text : String) : Except ReadFault Nat :=
  if text = "0" then .ok 0
  else do
    match ← text.toList.foldlM step (0, .between false) with
    | (total, .between true) => return total
    | (total, .unit n part letters) => close total n part letters
    | _ => throw .malformed

end Span
end LoadGen
