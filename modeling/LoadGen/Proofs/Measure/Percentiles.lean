import LoadGen.Proofs.Measure.Refusals

/-!
# What a percentile says

The percentile for a percentage is found by rank in a sorted copy of the kept values.  Of the values
themselves it says this: more than the given share of them are no greater than it, and no more than
that share are less.  Equal values do not matter here, nor does the order in which the values came.

* `Percentile.NearestRank` — a value that divides a list in this way.
* `Percentile.nearestRank_of_sorted` — the member at the rank of the percentage does.
* `Ledger.percentiles_of_calls` — the percentiles of a ledger divide the last durations that it has
  recorded.
-/

namespace LoadGen

/-! ## The share of the values on either side -/

namespace Percentile

variable {α : Type}

/-- A member of a list that divides it at a percentage: more than the share of the members are no
greater, and no more than the share are less. -/
structure NearestRank [LE α] [LT α] [DecidableLE α] [DecidableLT α] (values : List α)
    (percentage : Nat) (v : α) : Prop where
  mem : v ∈ values
  share_lt : values.length * percentage < 100 * values.countP fun x => decide (x ≤ v)
  le_share : (100 * values.countP fun x => decide (x < v)) ≤ values.length * percentage

theorem NearestRank.of_perm [LE α] [LT α] [DecidableLE α] [DecidableLT α] {xs ys : List α}
    {p : Nat} {v : α} (h : NearestRank xs p v) (hperm : xs.Perm ys) : NearestRank ys p v where
  mem := hperm.mem_iff.1 h.mem
  share_lt := by
    rw [← hperm.length_eq, ← hperm.countP_eq]
    exact h.share_lt
  le_share := by
    rw [← hperm.length_eq, ← hperm.countP_eq]
    exact h.le_share

variable {sorted : List α} {i p : Nat}

/-- No member up to a place of an ascending list is greater than the one there. -/
theorem lt_countP_le_getElem [LE α] [DecidableLE α] (hsorted : sorted.Pairwise (· ≤ ·))
    (hrefl : ∀ x ∈ sorted, x ≤ x) (hi : i < sorted.length) :
    i < sorted.countP fun x => decide (x ≤ sorted[i]) := by
  have hbefore : ∀ x ∈ sorted.take (i + 1), decide (x ≤ sorted[i]) = true := by
    intro x hx
    obtain ⟨j, hj, rfl⟩ := List.mem_take_iff_getElem.1 hx
    rw [decide_eq_true_eq]
    rcases Nat.eq_or_lt_of_le (show j ≤ i by omega) with rfl | hless
    · exact hrefl _ (List.getElem_mem hi)
    · exact List.pairwise_iff_getElem.1 hsorted j i (by omega) hi hless
  calc i < (sorted.take (i + 1)).length := by rw [List.length_take]; omega
    _ = (sorted.take (i + 1)).countP fun x => decide (x ≤ sorted[i]) :=
        (List.countP_eq_length.2 hbefore).symm
    _ ≤ sorted.countP fun x => decide (x ≤ sorted[i]) := (List.take_sublist _ _).countP_le

/-- No member from a place of an ascending list on is less than the one there. -/
theorem countP_lt_getElem_le [LE α] [LT α] [DecidableLT α] (hsorted : sorted.Pairwise (· ≤ ·))
    (hrefl : ∀ x ∈ sorted, x ≤ x) (hlt : ∀ x ∈ sorted, ∀ y ∈ sorted, x ≤ y → ¬ y < x)
    (hi : i < sorted.length) :
    (sorted.countP fun x => decide (x < sorted[i])) ≤ i := by
  have hafter : ∀ x ∈ sorted.drop i, ¬ decide (x < sorted[i]) = true := by
    intro x hx
    obtain ⟨j, hj, rfl⟩ := List.mem_drop_iff_getElem.1 hx
    rw [decide_eq_true_eq]
    refine hlt _ (List.getElem_mem hi) _ (List.getElem_mem _) ?_
    rcases Nat.eq_zero_or_pos j with rfl | hpos
    · exact hrefl _ (List.getElem_mem hi)
    · exact List.pairwise_iff_getElem.1 hsorted i (i + j) hi _ (by omega)
  calc (sorted.countP fun x => decide (x < sorted[i]))
      = ((sorted.take i).countP fun x => decide (x < sorted[i])) +
          (sorted.drop i).countP fun x => decide (x < sorted[i]) := by
        rw [← List.countP_append, List.take_append_drop]
    _ = (sorted.take i).countP fun x => decide (x < sorted[i]) := by
        rw [List.countP_eq_zero.2 hafter, Nat.add_zero]
    _ ≤ (sorted.take i).length := List.countP_le_length
    _ ≤ i := List.length_take_le _ _

/-- The member of an ascending list at the rank of a percentage divides it there. -/
theorem nearestRank_of_sorted [LE α] [LT α] [DecidableLE α] [DecidableLT α]
    (hsorted : sorted.Pairwise (· ≤ ·)) (hrefl : ∀ x ∈ sorted, x ≤ x)
    (hlt : ∀ x ∈ sorted, ∀ y ∈ sorted, x ≤ y → ¬ y < x) (hp : p < 100) {v : α}
    (hv : nearestRank? sorted p = some v) : NearestRank sorted p v := by
  obtain ⟨hplace, rfl⟩ := List.getElem?_eq_some_iff.1 hv
  have hrank := rank_eq_of_lt (Nat.zero_lt_of_lt hplace) hp
  have hle := lt_countP_le_getElem hsorted hrefl hplace
  have hless := countP_lt_getElem_le hsorted hrefl hlt hplace
  refine ⟨List.getElem_mem hplace, ?_, ?_⟩ <;> omega

end Percentile

/-! ## The percentiles of a ledger -/

namespace Ledger

def Call.isLook (call : Call) : Bool :=
  match call.act with
  | .look => true
  | .record _ | .finish | .reset => false

/-- The snapshots that were taken on the way have changed nothing. -/
theorem performAll_filter_isLook (l : Ledger) (calls : List Call) :
    l.performAll (calls.filter (!·.isLook)) = l.performAll calls := by
  induction calls generalizing l with
  | nil => rfl
  | cons call calls ih =>
      obtain ⟨now, act⟩ := call
      cases act with
      | look => exact ih l
      | record result => exact ih _
      | finish | reset => exact ih _

theorem length_lastDurations (cap : Nat) (rs : List (Nat × OperationResult)) :
    (lastDurations cap rs).length = min cap rs.length := by
  simp [lastDurations, Figures.durations]

/-- The percentiles are figures, so the counts do not matter to them. -/
theorem SameFigures.percentiles_eq {l l' : Ledger} (h : SameFigures l l') :
    l.latency.percentiles = l'.latency.percentiles := by
  simp only [LatencySummary.percentiles, latency, h.figures]

/-- The percentiles that a ledger reports after any calls divide the last durations that it has
recorded since the last reset, as many as it keeps, at their percentages. -/
theorem percentiles_of_calls (options : LedgerOptions) (hcap : 1 ≤ options.sampleCap) (began : Nat)
    (calls : List Call) (now : Nat) :
    let l := (start options began).performAll calls
    let recorded := offered (admitted (start options began) calls)
    let kept := lastDurations options.sampleCap recorded
    let latency := (l.view now).latency
    ((Figures.durations (offered calls)).sum ≤ Nanos.longest → recorded = offered calls) ∧
      kept.length = min options.sampleCap recorded.length ∧
      l.figures.samples.toList = kept ∧
      (start options began).performAll (calls.filter (!·.isLook)) = l ∧
      (recorded ≠ [] → ∀ e ∈
          [(50, latency.p50), (90, latency.p90), (95, latency.p95), (99, latency.p99)],
        Percentile.NearestRank kept e.1 e.2 ∧
          kept.length * e.1 / 100 < kept.length ∧
          (ascending kept)[kept.length * e.1 / 100]? = some e.2) := by
  intro l recorded kept latency
  refine ⟨offered_admitted_of_room options began, length_lastDurations _ _,
    samples_performAll options began calls, performAll_filter_isLook _ calls, ?_⟩
  intro hne e he
  have hsame := sameFigures_replay options began calls
  have hholds := holds_replay options began calls
  have hoptions := options_performAll (start options began) (admitted (start options began) calls)
  have hpercentile := percentiles_of_holds hholds (by rwa [hoptions]) hne e
    (hsame.percentiles_eq ▸ he)
  rw [hoptions] at hpercentile
  obtain ⟨hmem, hrank⟩ : e.2 ∈ kept ∧ Percentile.nearestRank? (ascending kept) e.1 = some e.2 :=
    hpercentile
  have hp : e.1 < 100 := LatencySummary.percentage_lt latency e he
  have hlength : (ascending kept).length = kept.length := length_sortBy _ _
  have hpos : 0 < kept.length := List.length_pos_iff.2 (List.ne_nil_of_mem hmem)
  have hnearest := Percentile.nearestRank_of_sorted (pairwise_le_sortBy kept)
    (fun x _ => Nat.le_refl x) (fun x _ y _ => Nat.not_lt.2) hp hrank
  refine ⟨hnearest.of_perm (perm_sortBy _ kept), ?_, ?_⟩
  · rw [← Percentile.rank_eq_of_lt hpos hp]
    exact Percentile.rank_lt e.1 hpos
  · rw [Percentile.nearestRank?, hlength, Percentile.rank_eq_of_lt hpos hp] at hrank
    exact hrank

/-- Of seven durations the last five are kept, some of them equal; one result is refused and a
snapshot is taken on the way. -/
theorem percentiles_of_sevenResults :
    let calls : List Call :=
      [⟨1, .record (.succeeded 8 true)⟩, ⟨2, .record (.succeeded 1 true)⟩,
        ⟨3, .record (.succeeded 3 false)⟩, ⟨4, .record (.failed Nanos.longest true "late")⟩,
        ⟨5, .record (.succeeded 9 true)⟩, ⟨6, .look⟩, ⟨7, .record (.succeeded 3 true)⟩,
        ⟨8, .record (.failed 2 false "boom")⟩, ⟨9, .record (.succeeded 3 true)⟩]
    let options : LedgerOptions := { sampleCap := 5 }
    1 ≤ options.sampleCap ∧ offered (admitted (start options 0) calls) ≠ [] ∧
      ∃ s, ((start options 0).performAll calls).snapshot? 10 = some s ∧
        s.latency.p50 = 3 ∧ Percentile.NearestRank [3, 9, 3, 2, 3] 50 s.latency.p50 ∧
        s.latency.p90 = 9 ∧ Percentile.NearestRank [3, 9, 3, 2, 3] 90 s.latency.p90 := by
  intro calls options
  have hcap : 1 ≤ options.sampleCap := by decide
  have hne : offered (admitted (start options 0) calls) ≠ [] := by decide
  have hlast : lastDurations options.sampleCap (offered (admitted (start options 0) calls)) =
      [3, 9, 3, 2, 3] := by decide
  have hs : ((start options 0).performAll calls).snapshot? 10 =
      some (((start options 0).performAll calls).view 10) :=
    snapshot?_eq_some_iff.2 ⟨by decide, rfl⟩
  have hvalues : (((start options 0).performAll calls).view 10).latency.p50 = 3 ∧
      (((start options 0).performAll calls).view 10).latency.p90 = 9 := by decide
  obtain ⟨-, -, -, -, hpercentiles⟩ := percentiles_of_calls options hcap 0 calls 10
  rw [hlast] at hpercentiles
  refine ⟨hcap, hne, _, hs, ?_⟩
  generalize ((start options 0).performAll calls).view 10 = s at hpercentiles hvalues ⊢
  have h50 := hpercentiles hne (50, s.latency.p50) (by simp)
  have h90 := hpercentiles hne (90, s.latency.p90) (by simp)
  exact ⟨hvalues.1, h50.1, hvalues.2, h90.1⟩

end Ledger
end LoadGen
