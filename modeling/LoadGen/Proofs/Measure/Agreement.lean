import LoadGen.Measure.Snapshot
import LoadGen.Proofs.Measure.Figures
import Mathlib.Data.List.Sort

/-!
# Snapshots do not depend on the order of the results

Results reach a ledger in some order.  As long as the ledger has room for all durations and for all
failure texts, the order leaves no trace in the counts, the durations, the failure texts and the
numbers and labels of each key.

* `Snapshot.Agrees` — two snapshots that show the same, rates and spans of time apart.
* `sortBy_eq_of_perm` — sorting forgets the order.
* `Ledger.agrees_of_perm` — ledgers that have recorded the same results in any order agree.
-/

namespace LoadGen

/-! ## What a snapshot shows of a key -/

namespace Snapshot

/-- What a snapshot shows of a key. -/
def key? (s : Snapshot) (key : MetaKey) : Option KeySummary :=
  s.keys.lookup key

/-- How many numbers a snapshot counts under a key. -/
def numbers? (s : Snapshot) (key : MetaKey) : Option Nat :=
  (s.key? key).bind fun k => k.numeric.map NumericSummary.count

/-- How often a snapshot counts a label under a key. -/
def labels? (s : Snapshot) (key : MetaKey) (label : String) : Option Nat :=
  (s.key? key).bind fun k => k.labels.get? label

/-- Two snapshots that show the same results, apart from the rates and the spans of time. -/
structure Agrees (a b : Snapshot) : Prop where
  total : a.total = b.total
  success : a.success = b.success
  failed : a.failed = b.failed
  reads : a.reads = b.reads
  writes : a.writes = b.writes
  latency : a.latency = b.latency
  errors : ∀ message, a.errors.get? message = b.errors.get? message
  keys : a.keys.map Prod.fst = b.keys.map Prod.fst
  numbers : ∀ key, a.numbers? key = b.numbers? key
  labels : ∀ key label, a.labels? key label = b.labels? key label

end Snapshot

theorem lookup_filterMap {κ α : Type} [DecidableEq κ] (f : κ → Option α) (keys : List κ) (key : κ) :
    (keys.filterMap fun k => (f k).map fun a => (k, a)).lookup key =
      if key ∈ keys then f key else none := by
  induction keys with
  | nil => rfl
  | cons k rest ih =>
      rw [List.filterMap_cons]
      by_cases hk : key = k
      · subst hk
        cases hf : f key with
        | none => simp [ih, hf]
        | some a => simp
      · cases hf : f k with
        | none => simp [ih, hk]
        | some a =>
            have hne : (key == k) = false := by simpa using hk
            simp [ih, hk, List.lookup_cons, hne]

theorem KeyStats.lookup_summary (s : KeyStats) (key : MetaKey) :
    s.summary.lookup key = (s.records.get? key).map KeyRecord.summary := by
  have h := lookup_filterMap (fun k => (s.records.get? k).map KeyRecord.summary) MetaKey.all key
  rw [if_pos (MetaKey.mem_all key)] at h
  rw [← h, summary]
  simp [Option.map_map, Function.comp_def]

/-- The keys of a report are those that have a record. -/
theorem KeyStats.map_fst_summary (s : KeyStats) :
    s.summary.map Prod.fst = MetaKey.all.filter fun k => (s.records.get? k).isSome := by
  rw [summary, List.map_filterMap]
  induction MetaKey.all with
  | nil => rfl
  | cons k rest ih =>
      rw [List.filterMap_cons, List.filter_cons]
      cases hrecord : s.records.get? k <;> simpa [hrecord] using ih

/-! ## The order of the results -/

theorem pairwise_le_sortBy (xs : List Nat) :
    (sortBy (fun x y => decide (x < y)) xs).Pairwise fun x y => x ≤ y := by
  have hpairwise : (sortBy (fun x y => decide (x < y)) xs).Pairwise
      fun x y => decide (y < x) = false :=
    pairwise_sortBy (by simp; omega) (by simp; omega) xs
  exact hpairwise.imp fun hle => Nat.le_of_not_lt (by simpa using hle)

/-- Sorting numbers forgets the order in which they came. -/
theorem sortBy_eq_of_perm {xs ys : List Nat} (h : xs.Perm ys) :
    sortBy (fun x y => decide (x < y)) xs = sortBy (fun x y => decide (x < y)) ys := by
  have hperm : (sortBy (fun x y => decide (x < y)) xs).Perm
      (sortBy (fun x y => decide (x < y)) ys) :=
    (perm_sortBy _ xs).trans (h.trans (perm_sortBy _ ys).symm)
  exact hperm.eq_of_pairwise (fun x y _ _ => Nat.le_antisymm) (pairwise_le_sortBy xs)
    (pairwise_le_sortBy ys)

/-- A buffer that has room for all values keeps all of them. -/
theorem Retained.toList_pushAll {α : Type} {capacity : Nat} {values : List α}
    (h : values.length ≤ capacity) :
    ((Retained.empty capacity).pushAll values).toList = values := by
  have hroom : values.reverse.length ≤ (Retained.empty capacity : Retained α).capacity := by
    rw [List.length_reverse]
    exact h
  rw [toList, newest_pushAll, newest_empty, List.append_nil, List.take_of_length_le hroom,
    List.reverse_reverse]

namespace Ledger

variable {l l' : Ledger} {rs rs' : List (Nat × OperationResult)}

theorem latency_eq_of_perm (h : l.Holds rs) (h' : l'.Holds rs')
    (hperm : (rs.map Prod.snd).Perm (rs'.map Prod.snd)) (hroom : rs.length ≤ l.options.sampleCap)
    (hroom' : rs'.length ≤ l'.options.sampleCap) : l.latency = l'.latency := by
  have hdurations : (Figures.durations rs).Perm (Figures.durations rs') := by
    have hmapped := hperm.map OperationResult.duration
    rw [List.map_map, List.map_map] at hmapped
    exact hmapped
  have hcounts : l.counts = l'.counts := by rw [h.counts, h'.counts, Counts.tally_perm hperm]
  have hsum : l.figures.sum = l'.figures.sum := by
    rw [h.figures, h'.figures, Figures.sum_addAll, Figures.sum_addAll, hdurations.sum_nat]
    rfl
  have hfastest : l.figures.fastest = l'.figures.fastest := by
    rw [h.figures, h'.figures, Figures.fastest_addAll, Figures.fastest_addAll]
    refine hdurations.foldl_eq' (fun x _ y _ fastest => ?_) none
    cases fastest <;> simp [Figures.shorter] <;> omega
  have hslowest : l.figures.slowest = l'.figures.slowest := by
    rw [h.figures, h'.figures, Figures.slowest_addAll, Figures.slowest_addAll]
    exact hdurations.foldl_eq' (fun x _ y _ slowest => by omega) 0
  have hsorted : (l.figures.samples.sorted fun x y => decide (x < y)) =
      l'.figures.samples.sorted fun x y => decide (x < y) := by
    rw [h.figures, h'.figures, Figures.samples_addAll, Figures.samples_addAll, Retained.sorted,
      Retained.sorted]
    simp only [Figures.empty]
    rw [Retained.toList_pushAll (by rwa [Figures.durations, List.length_map]),
      Retained.toList_pushAll (by rwa [Figures.durations, List.length_map])]
    exact sortBy_eq_of_perm hdurations
  simp only [latency, hcounts, hsum, hfastest, hslowest, hsorted]

/-- Under the cap, each failure text is counted as often as it stands in the results. -/
theorem get?_errors_of_holds (h : l.Holds rs)
    (hcap : (Figures.messages (rs.map Prod.snd)).dedup.length ≤ l.options.errorCap)
    (message : String) :
    l.figures.errors.get? message =
      Tally.entry ((Figures.messages (rs.map Prod.snd)).count message) := by
  rw [h.figures, Figures.errors_addAll]
  exact (congrArg (Assoc.get? · message) (foldl_tallyError_of_few hcap)).trans
    (Tally.get?_bumpAll _ message)

/-- The record of a key is made of the values that the results carry under it. -/
theorem get?_keys_of_holds (h : l.Holds rs) (key : MetaKey) :
    l.figures.keys.records.get? key = KeyRecord.addAll l.options.keySampleCap
      ((rs.map Prod.snd).filterMap fun r => r.metadata.get? key) := by
  rw [h.figures, Figures.keys_addAll]
  refine (KeyStats.get?_recordAll _ key).trans ?_
  rw [List.filterMap_map, List.filterMap_map]
  rfl

theorem key?_view (l : Ledger) (now : Nat) (key : MetaKey) :
    (l.view now).key? key = (l.figures.keys.records.get? key).map KeyRecord.summary :=
  KeyStats.lookup_summary _ key

/-- A snapshot counts the numbers that the results carry under a key. -/
theorem numbers?_view_of_holds (h : l.Holds rs) (now : Nat) (key : MetaKey) :
    (l.view now).numbers? key = Tally.entry
      (((rs.map Prod.snd).filterMap fun r => r.metadata.get? key).countP MetaValue.isNumber) := by
  rw [Snapshot.numbers?, key?_view, get?_keys_of_holds h, ← KeyRecord.numbers?_addAll, Option.bind_map]
  congr 1
  funext r
  simp [KeyRecord.summary, KeyRecord.numbers?, Function.comp_def, NumericTrack.summary]

/-- A snapshot counts the labels that the results carry under a key. -/
theorem labels?_view_of_holds (h : l.Holds rs) (now : Nat) (key : MetaKey) (label : String) :
    (l.view now).labels? key label = Tally.entry
      ((((rs.map Prod.snd).filterMap fun r => r.metadata.get? key).filterMap
        MetaValue.label?).count label) := by
  rw [Snapshot.labels?, key?_view, get?_keys_of_holds h, ← KeyRecord.labels_addAll, Option.bind_map]
  rfl

/-- Ledgers that have recorded the same results show the same, whatever the order in which they came
and the instants at which they were recorded. -/
theorem agrees_of_perm (h : l.Holds rs) (h' : l'.Holds rs')
    (hperm : (rs.map Prod.snd).Perm (rs'.map Prod.snd))
    (hroom : rs.length ≤ l.options.sampleCap) (hroom' : rs'.length ≤ l'.options.sampleCap)
    (hcap : (Figures.messages (rs.map Prod.snd)).dedup.length ≤ l.options.errorCap)
    (hcap' : (Figures.messages (rs'.map Prod.snd)).dedup.length ≤ l'.options.errorCap)
    (now now' : Nat) : (l.view now).Agrees (l'.view now') := by
  have hcounts : l.counts = l'.counts := by rw [h.counts, h'.counts, Counts.tally_perm hperm]
  have hmessages : (Figures.messages (rs.map Prod.snd)).Perm
      (Figures.messages (rs'.map Prod.snd)) := (hperm.filter _).map _
  have hvalues (key : MetaKey) : ((rs.map Prod.snd).filterMap fun r => r.metadata.get? key).Perm
      ((rs'.map Prod.snd).filterMap fun r => r.metadata.get? key) := hperm.filterMap _
  exact
    { total := by rw [view, view, hcounts]
      success := by rw [view, view, hcounts]
      failed := by rw [view, view, hcounts]
      reads := by rw [view, view, hcounts]
      writes := by rw [view, view, hcounts]
      latency := latency_eq_of_perm h h' hperm hroom hroom'
      errors := by
        intro message
        have hcount := hmessages.count_eq message
        exact (get?_errors_of_holds h hcap message).trans
          ((congrArg Tally.entry hcount).trans (get?_errors_of_holds h' hcap' message).symm)
      keys := by
        refine (KeyStats.map_fst_summary _).trans (Eq.trans ?_ (KeyStats.map_fst_summary _).symm)
        congr 1
        funext key
        rw [get?_keys_of_holds h, get?_keys_of_holds h', KeyRecord.isSome_addAll,
          KeyRecord.isSome_addAll, (hvalues key).any_eq]
      numbers := by
        intro key
        rw [numbers?_view_of_holds h, numbers?_view_of_holds h', (hvalues key).countP_eq]
      labels := by
        intro key label
        rw [labels?_view_of_holds h, labels?_view_of_holds h',
          ((hvalues key).filterMap _).count_eq] }

end Ledger
end LoadGen
