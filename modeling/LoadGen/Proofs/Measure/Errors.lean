import LoadGen.Proofs.Measure.Agreement
import LoadGen.Proofs.Measure.Calls

/-!
# The failure texts that a ledger counts

The failures that a ledger has accepted since the last reset are tallied by their texts, under the cap
that the ledger was given.

* `Ledger.Stands.errors_eq` — the tally of the texts.
* `Ledger.errors_of_calls` — what a ledger shows of them after any calls.
-/

namespace LoadGen

theorem Figures.length_messages (rs : List OperationResult) :
    (messages rs).length = rs.countP fun r => r.success == false := by
  rw [messages, List.length_map, List.countP_eq_length_filter]
  congr 1
  refine List.filter_congr fun r _ => ?_
  cases r.success <;> rfl

namespace Ledger

variable {l : Ledger} {rs : List (Nat × OperationResult)}

/-- The texts of the failures that the ledger has accepted. -/
theorem Stands.errors_eq (h : l.Stands rs) :
    l.figures.errors =
      let texts := Figures.messages ((Figures.fitting 0 rs).map Prod.snd)
      .bumpAll .empty (texts.map (countedAs (firstTexts l.options.errorCap texts))) := by
  rw [h.figures, Figures.errors_addAll]
  exact foldl_tallyError_empty _ _

/-- The failure texts of a ledger after any calls: the first distinct ones, as many as the cap allows,
are counted under themselves, and all other failures together, also those that carry the name of the
others.  The numbers add up to the failures that were accepted; the ledger counts as failed also those
for which it had no room.  A failure without a text has an unknown error. -/
theorem errors_of_calls (options : LedgerOptions) (began : Nat) (calls : List Call) (now : Nat) :
    let s := ((start options began).performAll calls).view now
    let texts := Figures.messages ((Figures.fitting 0 (offered calls)).map Prod.snd)
    let known := firstTexts options.errorCap texts
    let others := texts.countP fun text => decide (text ∉ known ∨ text = otherErrors)
    (∀ text ∈ known, text ≠ otherErrors → s.errors.get? text = some (texts.count text)) ∧
      s.errors.get? otherErrors = (if others = 0 then none else some others) ∧
      (∀ text, text ∉ known → text ≠ otherErrors → s.errors.get? text = none) ∧
      (s.errors.entries.map Prod.snd).sum = texts.length ∧
      (Figures.fitting 0 (offered calls) = offered calls → texts.length = s.failed) ∧
      s.errors.size ≤ options.errorCap + 1 ∧
      texts = (((Figures.fitting 0 (offered calls)).map Prod.snd).filter fun r => !r.success).map
        fun r => r.error.getD "unknown error" := by
  intro s texts known others
  have hstands := stands_performAll options began calls
  have herrors : s.errors = .bumpAll .empty (texts.map (countedAs known)) := by
    have hoptions := options_performAll (start options began) calls
    have h := hstands.errors_eq
    rw [hoptions] at h
    exact h
  refine ⟨?_, ?_, ?_, ?_, ?_, ?_, ?_⟩
  · intro text hknown hother
    have hpos : texts.count text ≠ 0 :=
      Nat.ne_of_gt (List.count_pos_iff.2 (mem_of_mem_firstTexts hknown))
    rw [herrors, Tally.get?_bumpAll, count_countedAs_of_mem hknown hother, Tally.entry, if_neg hpos]
  · rw [herrors, Tally.get?_bumpAll, count_countedAs_otherErrors, Tally.entry]
  · intro text hnew hother
    rw [herrors, Tally.get?_bumpAll, count_countedAs_of_not_mem hnew hother, Tally.entry, if_pos rfl]
  · rw [herrors, Tally.sum_bumpAll, List.length_map]
  · intro hall
    have hfailed : s.failed = (Counts.tally ((offered calls).map Prod.snd)).ofOutcome false :=
      congrArg (Counts.ofOutcome · false) hstands.counts
    rw [hfailed, Counts.ofOutcome_tally, ← hall, Figures.length_messages]
  · rw [herrors, Tally.size_bumpAll]
    exact (length_eraseDups_countedAs known texts).trans
      (Nat.add_le_add_right (List.length_take_le _ _) 1)
  · exact List.map_congr_left fun r _ => r.failureText_eq

/-- The name of the others may be among the known texts, and takes up room there. -/
example :
    let calls (texts : List String) :=
      receipts [1, 2, 3, 4, 5] (texts.map (OperationResult.failed 1 true))
    let entries (cap : Nat) (texts : List String) :=
      (((start { errorCap := cap } 0).performAll (calls texts)).view 9).errors.entries
    entries 2 ["a", "other errors", "b", "a", "c"] = [("a", 2), ("other errors", 3)] ∧
      entries 2 ["a", "b", "c", "other errors", "b"] =
        [("a", 1), ("b", 2), ("other errors", 2)] := by
  decide

end Ledger
end LoadGen
