import LoadGen.Data.Tally
import LoadGen.Job.Metadata
import LoadGen.Measure.Percentile
import LoadGen.Measure.Retained

/-!
# Statistics of the metadata

The values that results carry under one key are folded into two kinds of figures: numbers are
summarised, and texts and flags are tallied.

* `NumericTrack`, `NumericSummary` — the numbers of one key, while recording and when reported.
* `KeyRecord` — both kinds for one key.
* `KeyStats` — all keys; `record` folds in the metadata of one result and `summary` reports.
-/

namespace LoadGen

/-- The figures of the numbers recorded under one key; there is at least one. -/
structure NumericTrack where
  count : Nat
  /-- The sum in the order of recording. -/
  sum : Float
  least : Float
  greatest : Float
  /-- The last numbers, for the percentiles. -/
  recent : Retained Float

/-- What is reported of the numbers of one key. -/
structure NumericSummary where
  count : Nat
  avg : Float
  min : Float
  max : Float
  p50 : Float
  p95 : Float
  p99 : Float

namespace NumericTrack

def start (capacity : Nat) (v : Float) : NumericTrack where
  count := 1
  sum := 0.0 + v
  least := v
  greatest := v
  recent := (Retained.empty capacity).push v

/-- The figures with one more number; of two equal extremes the newer one is kept, which matters for
zeros of unlike sign. -/
def add (t : NumericTrack) (v : Float) : NumericTrack where
  count := t.count + 1
  sum := t.sum + v
  least := if t.least < v then t.least else v
  greatest := if v < t.greatest then t.greatest else v
  recent := t.recent.push v

/-- The report of the figures; a percentile of no kept numbers is zero. -/
def summary (t : NumericTrack) : NumericSummary :=
  let sorted := t.recent.sorted fun x y => decide (x < y)
  let percentile p := (Percentile.nearestRank? sorted p).getD 0.0
  { count := t.count
    avg := t.sum / Float.ofNat t.count
    min := t.least
    max := t.greatest
    p50 := percentile 50
    p95 := percentile 95
    p99 := percentile 99 }

end NumericTrack

/-- What was recorded under one key. -/
structure KeyRecord where
  numeric : Option NumericTrack
  labels : Tally

structure KeySummary where
  numeric : Option NumericSummary
  labels : Tally

namespace KeyRecord

def empty : KeyRecord := ⟨none, .empty⟩

def addNumber (capacity : Nat) (r : KeyRecord) (v : Float) : KeyRecord :=
  { r with numeric := some (match r.numeric with
      | none => .start capacity v
      | some t => t.add v) }

def addLabel (r : KeyRecord) (label : String) : KeyRecord :=
  { r with labels := Tally.bump r.labels label }

def summary (r : KeyRecord) : KeySummary :=
  ⟨r.numeric.map NumericTrack.summary, r.labels⟩

end KeyRecord

/-- The statistics of all keys. -/
structure KeyStats where
  /-- How many numbers each key keeps for its percentiles. -/
  capacity : Nat
  records : Assoc MetaKey KeyRecord

namespace KeyStats

def empty (capacity : Nat) : KeyStats :=
  ⟨capacity, .empty⟩

/-- Folds in one value: a finite number or a label.  Other numbers leave no trace. -/
def addEntry (s : KeyStats) (key : MetaKey) (value : MetaValue) : KeyStats :=
  match value.number? with
  | some v =>
    if v.isFinite then
      { s with records := s.records.update key fun r => (r.getD .empty).addNumber s.capacity v }
    else s
  | none =>
    { s with records := s.records.update key fun r => (r.getD .empty).addLabel value.display }

/-- Folds in the metadata of one result. -/
def record (s : KeyStats) (metadata : Metadata) : KeyStats :=
  metadata.entries.foldl (fun s e => s.addEntry e.1 e.2) s

def isEmpty (s : KeyStats) : Bool :=
  s.records.isEmpty

def clear (s : KeyStats) : KeyStats :=
  { s with records := .empty }

/-- The report of all keys, in key order. -/
def summary (s : KeyStats) : List (MetaKey × KeySummary) :=
  MetaKey.all.filterMap fun k => (s.records.get? k).map fun r => (k, r.summary)

end KeyStats

namespace NumericSummary

def members (n : NumericSummary) : List (String × Json) :=
  [("count", .nat n.count), ("avg", .float n.avg), ("min", .float n.min), ("max", .float n.max),
    ("p50", .float n.p50), ("p95", .float n.p95), ("p99", .float n.p99)]

end NumericSummary

namespace KeySummary

/-- The key in a document: the numbers inline, then the labels in order; each part
only if it is there. -/
def toJson (k : KeySummary) : Json :=
  let numeric := (k.numeric.map NumericSummary.members).getD []
  let labels :=
    if k.labels.isEmpty then []
    else [("labels", Json.object ((Tally.byLabel k.labels).map fun e => (e.1, Json.nat e.2)))]
  .object (numeric ++ labels)

def table (keys : List (MetaKey × KeySummary)) : Json :=
  .object (keys.map fun e => (e.1.name, e.2.toJson))

end KeySummary
end LoadGen
