import LoadGen.Measure.Ledger
import Mathlib.Data.List.Induction
import Mathlib.Data.List.Perm.Basic

/-!
# The counts of a list of results

* `Counts.tally` — the counts after a list of results.
* `total_tally`, `ofOutcome_tally`, `ofDirection_tally`, `success_add_failed_tally`,
  `reads_add_writes_tally` — what each count is; `tally_eq` says so of all of them.
* `tally_perm` — the order of the results does not matter.
-/

namespace LoadGen

namespace Counts

/-- The counts of a list of results. -/
def tally (rs : List OperationResult) : Counts :=
  rs.foldl add {}

theorem tally_snoc (rs : List OperationResult) (r : OperationResult) :
    tally (rs ++ [r]) = (tally rs).add r := by
  rw [tally, List.foldl_append]
  rfl

theorem total_tally (rs : List OperationResult) : (tally rs).total = rs.length := by
  induction rs using List.reverseRecOn with
  | nil => rfl
  | append_singleton rs r ih =>
      rw [tally_snoc, add, List.length_append, ih]
      rfl

/-- The number of successes or of failures. -/
def ofOutcome (c : Counts) (success : Bool) : Nat :=
  if success then c.success else c.failed

theorem ofOutcome_tally (rs : List OperationResult) (success : Bool) :
    (tally rs).ofOutcome success = rs.countP (·.success == success) := by
  induction rs using List.reverseRecOn with
  | nil => cases success <;> rfl
  | append_singleton rs r ih =>
      rw [tally_snoc, List.countP_append, ← ih]
      cases success <;> cases hr : r.success <;> simp [ofOutcome, add, hr]

/-- The number of reads or of writes. -/
def ofDirection (c : Counts) (isRead : Bool) : Nat :=
  if isRead then c.reads else c.writes

theorem ofDirection_tally (rs : List OperationResult) (isRead : Bool) :
    (tally rs).ofDirection isRead = rs.countP (·.isRead == isRead) := by
  induction rs using List.reverseRecOn with
  | nil => cases isRead <;> rfl
  | append_singleton rs r ih =>
      rw [tally_snoc, List.countP_append, ← ih]
      cases isRead <;> cases hr : r.isRead <;> simp [ofDirection, add, hr]

theorem reads_add_writes_tally (rs : List OperationResult) :
    (tally rs).reads + (tally rs).writes = rs.length := by
  induction rs using List.reverseRecOn with
  | nil => rfl
  | append_singleton rs r ih =>
      rw [tally_snoc, add, List.length_append, ← ih]
      cases r.isRead <;> simp <;> omega

theorem success_add_failed_tally (rs : List OperationResult) :
    (tally rs).success + (tally rs).failed = rs.length := by
  induction rs using List.reverseRecOn with
  | nil => rfl
  | append_singleton rs r ih =>
      rw [tally_snoc, add, List.length_append, ← ih]
      cases r.success <;> simp <;> omega

/-- All counts of a list of results. -/
theorem tally_eq (rs : List OperationResult) :
    tally rs =
      { total := rs.length
        success := rs.countP (·.success)
        failed := rs.countP (!·.success)
        reads := rs.countP (·.isRead)
        writes := rs.countP (!·.isRead) } := by
  have htotal := total_tally rs
  have hsuccess : (tally rs).success = rs.countP (·.success) := by
    simpa [ofOutcome] using ofOutcome_tally rs true
  have hfailed : (tally rs).failed = rs.countP (!·.success) := by
    simpa [ofOutcome] using ofOutcome_tally rs false
  have hreads : (tally rs).reads = rs.countP (·.isRead) := by
    simpa [ofDirection] using ofDirection_tally rs true
  have hwrites : (tally rs).writes = rs.countP (!·.isRead) := by
    simpa [ofDirection] using ofDirection_tally rs false
  rw [← htotal, ← hsuccess, ← hfailed, ← hreads, ← hwrites]

/-- The order in which results are counted does not matter. -/
theorem tally_perm {rs rs' : List OperationResult} (h : rs.Perm rs') : tally rs = tally rs' := by
  refine h.foldl_eq' (fun x _ y _ (c : Counts) => ?_) {}
  cases hx : x.success <;> cases hy : y.success <;> cases hx' : x.isRead <;>
    cases hy' : y.isRead <;> simp [add, hx, hy, hx', hy']

end Counts
end LoadGen
