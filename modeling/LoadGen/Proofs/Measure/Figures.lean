import LoadGen.Proofs.Measure.Counts
import LoadGen.Proofs.Measure.Texts
import LoadGen.Proofs.Trace
import Mathlib.Algebra.GroupWithZero.Nat

/-!
# The figures of a list of results

The figures of many results are those of the results one after the other, and each figure depends on
one part of them only: on their durations, on the texts of the failed ones, or on the values under
one metadata key.

* `Figures.addAll` — the figures with a list of further results; `sum_addAll`, `samples_addAll` and
  the other lemmas of this kind say what each figure is made of.
* `KeyStats.get?_recordAll` — the record of a key is made of the values under this key.
* `KeyRecord.addAll_eq_ofParts` — the numbers among these values and the labels among them each make
  their own part of it.
* `KeyRecord.numbers?_addAll`, `KeyRecord.labels_addAll` — how many numbers and labels it counts.
* `Ledger.Holds` — a ledger that has accepted a list of results.
-/

namespace LoadGen

/-! ## Figure by figure -/

namespace Figures

variable {errorCap : Nat}

/-- The figures with further results, each with the instant at which it is recorded. -/
def addAll (errorCap : Nat) (f : Figures) (rs : List (Nat × OperationResult)) : Figures :=
  rs.foldl (fun f r => f.add errorCap r.1 r.2) f

/-- The durations of some results. -/
def durations (rs : List (Nat × OperationResult)) : List Nat :=
  rs.map fun r => r.2.duration

/-- The texts under which the failed ones of some results are counted, caps apart. -/
def messages (rs : List OperationResult) : List String :=
  (rs.filter fun r => !r.success).map OperationResult.failureText

theorem addAll_snoc (f : Figures) (rs : List (Nat × OperationResult)) (r : Nat × OperationResult) :
    f.addAll errorCap (rs ++ [r]) = (f.addAll errorCap rs).add errorCap r.1 r.2 := by
  rw [addAll, List.foldl_append]
  rfl

theorem sum_addAll (f : Figures) (rs : List (Nat × OperationResult)) :
    (f.addAll errorCap rs).sum = f.sum + (durations rs).sum := by
  induction rs generalizing f with
  | nil => rfl
  | cons r rs ih =>
      have hcons : (durations (r :: rs)).sum = r.2.duration + (durations rs).sum := List.sum_cons
      rw [addAll, List.foldl_cons, ← addAll, ih, hcons, ← Nat.add_assoc]
      rfl

/-- The shorter of a duration and the shortest one so far. -/
def shorter (fastest : Option Nat) (duration : Nat) : Option Nat :=
  some (match fastest with
    | none => duration
    | some d => min d duration)

theorem fastest_addAll (f : Figures) (rs : List (Nat × OperationResult)) :
    (f.addAll errorCap rs).fastest = (durations rs).foldl shorter f.fastest := by
  induction rs generalizing f with
  | nil => rfl
  | cons r rs ih => exact ih (f.add errorCap r.1 r.2)

theorem slowest_addAll (f : Figures) (rs : List (Nat × OperationResult)) :
    (f.addAll errorCap rs).slowest = (durations rs).foldl max f.slowest := by
  induction rs generalizing f with
  | nil => rfl
  | cons r rs ih => exact ih (f.add errorCap r.1 r.2)

theorem samples_addAll (f : Figures) (rs : List (Nat × OperationResult)) :
    (f.addAll errorCap rs).samples = f.samples.pushAll (durations rs) := by
  induction rs generalizing f with
  | nil => rfl
  | cons r rs ih => exact ih (f.add errorCap r.1 r.2)

/-- The window sees the instants of the results only. -/
theorem window_addAll (f : Figures) (rs : List (Nat × OperationResult)) :
    (f.addAll errorCap rs).window =
      (rs.map Prod.fst).foldl (fun w (now : Nat) => w.record now) f.window := by
  induction rs generalizing f with
  | nil => rfl
  | cons r rs ih => exact ih (f.add errorCap r.1 r.2)

theorem keys_addAll (f : Figures) (rs : List (Nat × OperationResult)) :
    (f.addAll errorCap rs).keys = (rs.map fun r => r.2.metadata).foldl KeyStats.record f.keys := by
  induction rs generalizing f with
  | nil => rfl
  | cons r rs ih => exact ih (f.add errorCap r.1 r.2)

theorem errors_addAll (f : Figures) (rs : List (Nat × OperationResult)) :
    (f.addAll errorCap rs).errors =
      (messages (rs.map Prod.snd)).foldl (tallyError errorCap) f.errors := by
  induction rs generalizing f with
  | nil => rfl
  | cons r rs ih =>
      rw [addAll, List.foldl_cons, ← addAll, ih]
      cases hsuccess : r.2.success <;> simp [add, messages, hsuccess]

end Figures

/-! ## The values under a key -/

namespace MetaValue

/-- Whether a value counts as a number: a finite one does. -/
def isNumber (v : MetaValue) : Bool :=
  v.number?.any Float.isFinite

/-- The number that a value counts as, if it does. -/
def finite? (v : MetaValue) : Option Float :=
  v.number?.filter Float.isFinite

/-- The label that a value counts as: everything that is not numeric is one. -/
def label? (v : MetaValue) : Option String :=
  if v.number?.isSome then none else some v.display

theorem isSome_finite? (v : MetaValue) : v.finite?.isSome = v.isNumber :=
  Option.isSome_filter

end MetaValue

namespace NumericTrack

/-- The track of a list of numbers; without a number there is none. -/
def ofList? (capacity : Nat) : List Float → Option NumericTrack
  | [] => none
  | v :: vs => some (vs.foldl add (start capacity v))

theorem ofList?_snoc (capacity : Nat) (vs : List Float) (v : Float) :
    ofList? capacity (vs ++ [v]) = some (match ofList? capacity vs with
      | none => .start capacity v
      | some t => t.add v) := by
  cases vs with
  | nil => rfl
  | cons first vs => exact congrArg some List.foldl_append

theorem count_ofList? (capacity : Nat) (vs : List Float) :
    (ofList? capacity vs).map count = Tally.entry vs.length := by
  induction vs using List.reverseRecOn with
  | nil => rfl
  | append_singleton vs v ih =>
      rw [ofList?_snoc, List.length_append, List.length_singleton, ← Tally.map_succ_entry, ← ih]
      cases ofList? capacity vs <;> rfl

end NumericTrack

namespace KeyRecord

variable {capacity : Nat}

/-- The record of a key with one more value. -/
def addValue (capacity : Nat) (r : Option KeyRecord) (v : MetaValue) : Option KeyRecord :=
  match v.number? with
  | some n => if n.isFinite then some ((r.getD .empty).addNumber capacity n) else r
  | none => some ((r.getD .empty).addLabel v.display)

/-- The record of a key after a list of values. -/
def addAll (capacity : Nat) (values : List MetaValue) : Option KeyRecord :=
  values.foldl (addValue capacity) none

theorem addAll_snoc (values : List MetaValue) (v : MetaValue) :
    addAll capacity (values ++ [v]) = addValue capacity (addAll capacity values) v :=
  List.foldl_append

/-- The record that is made of some numbers and some labels; without either there is none. -/
def ofParts (capacity : Nat) (numbers : List Float) (labels : List String) : Option KeyRecord :=
  if numbers.isEmpty && labels.isEmpty then none
  else some ⟨NumericTrack.ofList? capacity numbers, .bumpAll .empty labels⟩

section Parts

variable (numbers : List Float) (labels : List String)

theorem isSome_ofParts : (ofParts capacity numbers labels).isSome =
    !(numbers.isEmpty && labels.isEmpty) := by
  unfold ofParts
  cases numbers.isEmpty && labels.isEmpty <;> rfl

theorem getD_ofParts : (ofParts capacity numbers labels).getD .empty =
    ⟨NumericTrack.ofList? capacity numbers, .bumpAll .empty labels⟩ := by
  unfold ofParts
  split
  · rename_i hnone
    obtain ⟨hnumbers, hlabels⟩ := Bool.and_eq_true_iff.1 hnone
    rw [List.isEmpty_iff.1 hnumbers, List.isEmpty_iff.1 hlabels]
    rfl
  · rfl

theorem numeric_ofParts : (ofParts capacity numbers labels).bind KeyRecord.numeric =
    NumericTrack.ofList? capacity numbers := by
  have hparts : ((ofParts capacity numbers labels).getD .empty).numeric =
      NumericTrack.ofList? capacity numbers := congrArg KeyRecord.numeric (getD_ofParts _ _)
  rw [← hparts]
  cases ofParts capacity numbers labels <;> rfl

theorem get?_labels_ofParts (label : String) :
    ((ofParts capacity numbers labels).bind fun r => r.labels.get? label) =
      Tally.entry (labels.count label) := by
  have hparts : ((ofParts capacity numbers labels).getD .empty).labels = .bumpAll .empty labels :=
    congrArg KeyRecord.labels (getD_ofParts _ _)
  rw [← Tally.get?_bumpAll, ← hparts]
  cases ofParts capacity numbers labels <;> rfl

end Parts

/-- The numbers and the labels of a key do not meet: each kind makes its own part of the record. -/
theorem addAll_eq_ofParts (values : List MetaValue) :
    addAll capacity values = ofParts capacity (values.filterMap MetaValue.finite?)
      (values.filterMap MetaValue.label?) := by
  induction values using List.reverseRecOn with
  | nil => rfl
  | append_singleton values v ih =>
      rw [addAll_snoc, ih, filterMap_snoc, filterMap_snoc, addValue]
      cases hnumber : v.number? with
      | none =>
          have hfinite : v.finite? = none := by rw [MetaValue.finite?, hnumber]; rfl
          have hlabel : v.label? = some v.display := by rw [MetaValue.label?, hnumber]; rfl
          rw [hfinite, hlabel, Option.toList_none, Option.toList_some, List.append_nil]
          simp only [getD_ofParts, addLabel, ← Tally.bumpAll_snoc]
          rw [ofParts, if_neg (by simp)]
      | some n =>
          have hlabel : v.label? = none := by rw [MetaValue.label?, hnumber]; rfl
          rw [hlabel, Option.toList_none, List.append_nil]
          cases hfinite : n.isFinite with
          | false =>
              have hnone : v.finite? = none := by simp [MetaValue.finite?, hnumber, hfinite]
              simp [hnone, hfinite]
          | true =>
              have hsome : v.finite? = some n := by simp [MetaValue.finite?, hnumber, hfinite]
              rw [hsome, Option.toList_some]
              simp only [hfinite, if_true, getD_ofParts, addNumber]
              rw [ofParts, if_neg (by simp)]
              exact congrArg (fun t => some (KeyRecord.mk t _)) (NumericTrack.ofList?_snoc _ _ _).symm

/-- How many numbers a record counts. -/
def numbers? (r : KeyRecord) : Option Nat :=
  r.numeric.map NumericTrack.count

theorem numbers?_addAll (values : List MetaValue) :
    (addAll capacity values).bind numbers? = Tally.entry (values.countP MetaValue.isNumber) := by
  have hlength : (values.filterMap MetaValue.finite?).length = values.countP MetaValue.isNumber := by
    rw [List.length_filterMap_eq_countP]
    simp only [MetaValue.isSome_finite?]
  rw [← hlength, ← NumericTrack.count_ofList?, ← numeric_ofParts, ← addAll_eq_ofParts,
    Option.map_bind]
  rfl

theorem labels_addAll (values : List MetaValue) (label : String) :
    ((addAll capacity values).bind fun r => r.labels.get? label) =
      Tally.entry ((values.filterMap MetaValue.label?).count label) := by
  rw [addAll_eq_ofParts, get?_labels_ofParts]

/-- A key has a record once a value counted as a number or as a label. -/
theorem isSome_addAll (values : List MetaValue) :
    (addAll capacity values).isSome = values.any fun v => v.isNumber || v.label?.isSome := by
  rw [addAll_eq_ofParts, isSome_ofParts, Bool.eq_iff_iff]
  simp only [← MetaValue.isSome_finite?]
  simp [List.filterMap_eq_nil_iff, Option.isSome_iff_ne_none, and_or_left, exists_or]

end KeyRecord

namespace KeyStats

variable {s : KeyStats}

theorem get?_addEntry (key : MetaKey) (value : MetaValue) (k : MetaKey) :
    (s.addEntry key value).records.get? k =
      if k = key then KeyRecord.addValue s.capacity (s.records.get? k) value
      else s.records.get? k := by
  unfold addEntry KeyRecord.addValue
  cases hnumber : value.number? with
  | none =>
      simp only [Assoc.get?_update]
      by_cases h : k = key
      · subst h
        rfl
      · rw [if_neg h, if_neg h]
  | some n =>
      simp only
      split
      · simp only [Assoc.get?_update]
        by_cases h : k = key
        · subst h
          rfl
        · rw [if_neg h, if_neg h]
      · split <;> rfl

@[simp] theorem capacity_addEntry (key : MetaKey) (value : MetaValue) :
    (s.addEntry key value).capacity = s.capacity := by
  unfold addEntry
  split
  · split <;> rfl
  · rfl

@[simp] theorem capacity_record (m : Metadata) : (s.record m).capacity = s.capacity := by
  unfold record
  induction m.entries generalizing s with
  | nil => rfl
  | cons e rest ih => exact ih.trans (capacity_addEntry e.1 e.2)

/-- The metadata of a result gives a key one more value or none. -/
theorem get?_record (m : Metadata) (k : MetaKey) :
    (s.record m).records.get? k =
      (m.get? k).toList.foldl (KeyRecord.addValue s.capacity) (s.records.get? k) := by
  obtain ⟨entries, hdistinct⟩ := m
  simp only [record, Assoc.get?]
  induction entries generalizing s with
  | nil => rfl
  | cons e rest ih =>
      obtain ⟨key, value⟩ := e
      obtain ⟨hnew, hrest⟩ := List.nodup_cons.1 hdistinct
      have hafter := get?_addEntry (s := s) key value k
      simp only [Assoc.get?] at hafter
      rw [List.foldl_cons, ih hrest, capacity_addEntry, hafter, Assoc.find?]
      by_cases hkey : key = k
      · subst hkey
        -- The key stands here, so it stands nowhere else.
        have hnone : Assoc.find? key rest = none := by
          cases hfind : Assoc.find? key rest with
          | none => rfl
          | some a =>
              have hmem := (Assoc.find?_eq_some_iff hrest).1 hfind
              exact absurd (List.mem_map_of_mem hmem) hnew
        rw [hnone, if_pos rfl, if_pos rfl]
        rfl
      · rw [if_neg (Ne.symm hkey), if_neg hkey]

@[simp] theorem capacity_recordAll (ms : List Metadata) :
    (ms.foldl record s).capacity = s.capacity := by
  induction ms generalizing s with
  | nil => rfl
  | cons m rest ih => exact ih.trans (capacity_record m)

/-- The record of a key is made of the values that the results carry under it. -/
theorem get?_recordAll (ms : List Metadata) (k : MetaKey) {capacity : Nat} :
    (ms.foldl record (.empty capacity)).records.get? k =
      KeyRecord.addAll capacity (ms.filterMap (·.get? k)) := by
  induction ms using List.reverseRecOn with
  | nil => rfl
  | append_singleton ms m ih =>
      rw [List.foldl_append, filterMap_snoc, KeyRecord.addAll, List.foldl_append, ← KeyRecord.addAll,
        ← ih]
      have hlast := get?_record (s := ms.foldl record (.empty capacity)) m k
      rw [capacity_recordAll] at hlast
      exact hlast

end KeyStats

/-! ## The whole ledger -/

namespace Ledger

/-- The ledger has been offered these results since it was last reset, each at its instant, and it
has accepted all of them. -/
structure Holds (l : Ledger) (rs : List (Nat × OperationResult)) : Prop where
  counts : l.counts = .tally (rs.map Prod.snd)
  figures : l.figures = (Figures.empty l.options l.started).addAll l.options.errorCap rs

variable {l : Ledger} {rs : List (Nat × OperationResult)}

theorem holds_start (options : LedgerOptions) (now : Nat) : (start options now).Holds [] where
  counts := rfl
  figures := rfl

theorem Holds.record (h : l.Holds rs) {now : Nat} {r : OperationResult}
    (haccepted : (l.record now r).2 = true) : (l.record now r).1.Holds (rs ++ [(now, r)]) := by
  unfold Ledger.record at haccepted ⊢
  simp only at haccepted ⊢
  split at haccepted
  · rename_i haccepts
    rw [if_pos haccepts]
    refine ⟨?_, ?_⟩
    · rw [List.map_append, List.map_singleton, Counts.tally_snoc, ← h.counts]
    · rw [Figures.addAll_snoc, ← h.figures]
  · cases haccepted

theorem Holds.finish (h : l.Holds rs) (now : Nat) : (l.finish now).Holds rs where
  counts := h.counts
  figures := h.figures

end Ledger
end LoadGen
