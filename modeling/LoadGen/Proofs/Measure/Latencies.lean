import LoadGen.Proofs.Measure.Agreement
import LoadGen.Proofs.Measure.Calls
import Mathlib.Algebra.Order.BigOperators.Group.List
import Mathlib.Algebra.Order.Ring.Nat

/-!
# The figures of a snapshot belong together

A snapshot takes its figures from parts of the ledger that are kept apart: the counts, the sum and
the extremes of all durations, the last durations, and the rate window.  They agree with each other
all the same, however many durations have been dropped and however often the ledger has been reset.

* `Percentile.nearestRank?_eq_some`, `Percentile.nearestRank?_mono` — the percentiles of a sorted list
  are members of it, and a higher percentage gives no lower member.
* `RateWindow.total_record_le` — the window holds no more records than it was given.
* `Ledger.extremes_of_holds` — every duration lies between the shortest and the longest one.
* `LatencySummary.Ordered`, `Ledger.ordered_of_holds` — the percentiles of the last durations lie
  between the extremes of all of them.
* `Ledger.snapshot_of_calls` — how the figures of any snapshot belong together.
-/

namespace LoadGen

/-! ## Percentiles of sorted lists -/

namespace Percentile

variable {xs : List Nat} {p q : Nat}

theorem nearestRank?_eq_some {α : Type} {xs : List α} (hne : xs ≠ []) (p : Nat) :
    ∃ v ∈ xs, nearestRank? xs p = some v := by
  have hrank := rank_lt p (List.length_pos_iff.2 hne)
  exact ⟨xs[rank xs.length p], List.getElem_mem hrank, List.getElem?_eq_getElem hrank⟩

theorem nearestRank?_mono {u v : Nat} (hsorted : xs.Pairwise fun x y => x ≤ y) (hpq : p ≤ q)
    (hp : nearestRank? xs p = some u) (hq : nearestRank? xs q = some v) : u ≤ v := by
  obtain ⟨hlow, rfl⟩ := List.getElem?_eq_some_iff.1 hp
  obtain ⟨hhigh, rfl⟩ := List.getElem?_eq_some_iff.1 hq
  rcases Nat.eq_or_lt_of_le (rank_mono xs.length hpq) with hsame | hless
  · simp only [hsame]
    exact Nat.le_refl _
  · exact List.pairwise_iff_getElem.1 hsorted _ _ hlow hhigh hless

end Percentile

/-! ## Extremes and mean -/

namespace Figures

/-- The shortest duration is one of them, and none is shorter. -/
theorem foldl_shorter (ds : List Nat) (hne : ds ≠ []) :
    ∃ m ∈ ds, ds.foldl shorter none = some m ∧ ∀ d ∈ ds, m ≤ d := by
  induction ds using List.reverseRecOn with
  | nil => exact absurd rfl hne
  | append_singleton ds last ih =>
      rw [List.foldl_append]
      rcases List.eq_nil_or_concat ds with rfl | ⟨before, d, hds⟩
      · exact ⟨last, by simp, rfl, by simp⟩
      · obtain ⟨m, hmem, hfold, hle⟩ := ih (by simp [hds])
        rw [hfold]
        refine ⟨min m last, ?_, rfl, ?_⟩
        · rcases Nat.le_total m last with hm | hlast
          · rw [Nat.min_eq_left hm]
            exact List.mem_append_left _ hmem
          · rw [Nat.min_eq_right hlast]
            simp
        · intro d hd
          rcases List.mem_append.1 hd with hold | hnew
          · exact Nat.le_trans (Nat.min_le_left _ _) (hle d hold)
          · rw [List.mem_singleton.1 hnew]
            exact Nat.min_le_right _ _

theorem le_foldl_max (ds : List Nat) : ∀ d ∈ ds, d ≤ ds.foldl max 0 := by
  induction ds using List.reverseRecOn with
  | nil => simp
  | append_singleton ds last ih =>
      intro d hd
      rw [List.foldl_append]
      rcases List.mem_append.1 hd with hold | hnew
      · exact Nat.le_trans (ih d hold) (Nat.le_max_left _ _)
      · rw [List.mem_singleton.1 hnew]
        exact Nat.le_max_right _ _

end Figures

theorem mean_le {ds : List Nat} {m : Nat} (h : ∀ d ∈ ds, d ≤ m) : ds.sum / ds.length ≤ m := by
  apply Nat.div_le_of_le_mul
  simpa using List.sum_le_card_nsmul ds m h

theorem le_mean {ds : List Nat} {m : Nat} (hne : ds ≠ []) (h : ∀ d ∈ ds, m ≤ d) :
    m ≤ ds.sum / ds.length := by
  rw [Nat.le_div_iff_mul_le (List.length_pos_iff.2 hne), Nat.mul_comm]
  simpa using List.card_nsmul_le_sum ds m h

/-! ## The window -/

namespace RateWindow

theorem total_eq_sum (w : RateWindow) : w.total = w.buckets.sum :=
  List.sum_eq_foldl.symm

/-- Moving forward drops records and adds none. -/
theorem total_advance_le (w : RateWindow) (now : Int) : (w.advance now).total ≤ w.total := by
  rw [total_eq_sum, total_eq_sum]
  show (rotate w.buckets _).sum ≤ w.buckets.sum
  rw [rotate_eq]
  generalize min (w.elapsedBuckets now) w.buckets.length = n
  have hsublist := List.take_sublist w.buckets.length (List.replicate n 0 ++ w.buckets)
  have hsum : (List.replicate n 0 ++ w.buckets).sum = w.buckets.sum := by simp
  rw [← hsum]
  exact hsublist.sum_le_sum fun _ _ => Nat.zero_le _

theorem total_record_le (w : RateWindow) (now : Int) : (w.record now).total ≤ w.total + 1 := by
  have hbump (buckets : List Nat) : (bumpNewest buckets).sum ≤ buckets.sum + 1 := by
    cases buckets with
    | nil => simp [bumpNewest]
    | cons n rest =>
        simp only [bumpNewest, List.sum_cons]
        omega
  have hadvance := total_advance_le w now
  rw [total_eq_sum] at hadvance ⊢
  exact Nat.le_trans (hbump _) (Nat.add_le_add_right hadvance 1)

end RateWindow

theorem Figures.total_window_addAll_le {errorCap : Nat} (f : Figures)
    (rs : List (Nat × OperationResult)) :
    (f.addAll errorCap rs).window.total ≤ f.window.total + rs.length := by
  induction rs using List.reverseRecOn with
  | nil => exact Nat.le_refl _
  | append_singleton rs r ih =>
      rw [Figures.addAll_snoc, List.length_append]
      exact Nat.le_trans (RateWindow.total_record_le _ _) (Nat.add_le_add_right ih 1)

/-! ## The latency summary -/

theorem LatencySummary.percentage_lt (s : LatencySummary) : ∀ e ∈ s.percentiles, e.1 < 100 := by
  simp [percentiles]

/-- The percentiles lie between the extremes, in the order of their percentages. -/
structure LatencySummary.Ordered (s : LatencySummary) : Prop where
  min_le_p50 : s.min ≤ s.p50
  p50_le_p90 : s.p50 ≤ s.p90
  p90_le_p95 : s.p90 ≤ s.p95
  p95_le_p99 : s.p95 ≤ s.p99
  p99_le_max : s.p99 ≤ s.max

namespace Ledger

variable {l : Ledger} {rs : List (Nat × OperationResult)}

/-- The last durations, as many as a ledger keeps. -/
def lastDurations (cap : Nat) (rs : List (Nat × OperationResult)) : List Nat :=
  ((Figures.durations rs).reverse.take cap).reverse

theorem mem_lastDurations {cap d : Nat} (h : d ∈ lastDurations cap rs) : d ∈ Figures.durations rs :=
  List.mem_reverse.1 (List.mem_of_mem_take (List.mem_reverse.1 h))

theorem lastDurations_ne_nil {cap : Nat} (hcap : 1 ≤ cap) (hne : rs ≠ []) :
    lastDurations cap rs ≠ [] := by
  rw [lastDurations, Figures.durations, ne_eq, List.reverse_eq_nil_iff, List.take_eq_nil_iff]
  simp [hne, Nat.one_le_iff_ne_zero.1 hcap]

theorem samples_of_holds (h : l.Holds rs) :
    l.figures.samples.toList = lastDurations l.options.sampleCap rs := by
  rw [h.figures, Figures.samples_addAll, Retained.toList, Figures.empty, Retained.newest_pushAll,
    Retained.newest_empty, List.append_nil]
  rfl

theorem avg_of_holds (h : l.Holds rs) (hfew : rs.length < Nat.pow 2 32) :
    l.latency.avg = (Figures.durations rs).sum / rs.length := by
  have htotal : l.counts.total = rs.length := by
    rw [h.counts, Counts.total_tally, List.length_map]
  have hsum : l.figures.sum = (Figures.durations rs).sum := by
    rw [h.figures, Figures.sum_addAll]
    exact Nat.zero_add _
  show meanDuration l.figures.sum l.counts.total = _
  rw [htotal, hsum, meanDuration, if_pos hfew]

/-- Every duration lies between the extremes, also one that is no longer kept. -/
theorem extremes_of_holds (h : l.Holds rs) :
    ∀ d ∈ Figures.durations rs, l.latency.min ≤ d ∧ d ≤ l.latency.max := by
  intro d hd
  obtain ⟨m, -, hfold, hle⟩ := Figures.foldl_shorter _ (List.ne_nil_of_mem hd)
  have hmin : l.latency.min = m := by
    show l.figures.fastest.getD 0 = m
    rw [h.figures, Figures.fastest_addAll]
    exact congrArg (Option.getD · 0) hfold
  have hmax : l.latency.max = (Figures.durations rs).foldl max 0 := by
    show l.figures.slowest = _
    rw [h.figures, Figures.slowest_addAll]
    rfl
  rw [hmin, hmax]
  exact ⟨hle d hd, Figures.le_foldl_max _ d hd⟩

theorem mean_of_holds (h : l.Holds rs) (hfew : rs.length < Nat.pow 2 32) :
    l.latency.min ≤ l.latency.avg ∧ l.latency.avg ≤ l.latency.max := by
  have hlength : rs.length = (Figures.durations rs).length := (List.length_map _).symm
  rw [avg_of_holds h hfew, hlength]
  refine ⟨?_, mean_le fun d hd => (extremes_of_holds h d hd).2⟩
  rcases List.eq_nil_or_concat rs with rfl | ⟨before, r, hlast⟩
  · -- Without a result there is no shortest duration, and it reads as zero.
    show l.figures.fastest.getD 0 ≤ _
    rw [h.figures]
    exact Nat.le_refl 0
  · exact le_mean (by simp [Figures.durations, hlast]) fun d hd => (extremes_of_holds h d hd).1

/-- The durations of a list in ascending order. -/
def ascending (durations : List Nat) : List Nat :=
  sortBy (fun x y => decide (x < y)) durations

/-- Each percentile is one of the last durations, the one at its rank. -/
theorem percentiles_of_holds (h : l.Holds rs) (hcap : 1 ≤ l.options.sampleCap) (hne : rs ≠ []) :
    ∀ e ∈ l.latency.percentiles, e.2 ∈ lastDurations l.options.sampleCap rs ∧
      Percentile.nearestRank? (ascending (lastDurations l.options.sampleCap rs)) e.1 = some e.2 := by
  have hperm := perm_sortBy (fun x y => decide (x < y)) (lastDurations l.options.sampleCap rs)
  have hsome : ascending (lastDurations l.options.sampleCap rs) ≠ [] := fun hnil =>
    lastDurations_ne_nil hcap hne (List.nil_perm.1 (hnil ▸ hperm))
  have hsorted : (l.figures.samples.sorted fun x y => decide (x < y)) =
      ascending (lastDurations l.options.sampleCap rs) := by
    rw [Retained.sorted, samples_of_holds h, ascending]
  simp only [LatencySummary.percentiles, latency, hsorted, List.forall_mem_cons]
  have hrank : ∀ p, (Percentile.nearestRank? (ascending (lastDurations l.options.sampleCap rs))
      p).getD 0 ∈ lastDurations l.options.sampleCap rs ∧
      Percentile.nearestRank? (ascending (lastDurations l.options.sampleCap rs)) p =
        some ((Percentile.nearestRank? (ascending (lastDurations l.options.sampleCap rs)) p).getD
          0) := by
    intro p
    obtain ⟨v, hv, hvalue⟩ := Percentile.nearestRank?_eq_some hsome p
    rw [hvalue]
    exact ⟨hperm.mem_iff.1 hv, rfl⟩
  exact ⟨hrank 50, hrank 90, hrank 95, hrank 99, by simp⟩

/-- The percentiles are those of the last durations, but the extremes are those of all of them. -/
theorem ordered_of_holds (h : l.Holds rs) (hcap : 1 ≤ l.options.sampleCap) (hne : rs ≠ []) :
    l.latency.Ordered := by
  have hpercentile := percentiles_of_holds h hcap hne
  have hsorted : (ascending (lastDurations l.options.sampleCap rs)).Pairwise fun x y => x ≤ y :=
    pairwise_le_sortBy _
  obtain ⟨hmem50, h50⟩ := hpercentile (50, l.latency.p50) (by simp [LatencySummary.percentiles])
  obtain ⟨-, h90⟩ := hpercentile (90, l.latency.p90) (by simp [LatencySummary.percentiles])
  obtain ⟨-, h95⟩ := hpercentile (95, l.latency.p95) (by simp [LatencySummary.percentiles])
  obtain ⟨hmem99, h99⟩ := hpercentile (99, l.latency.p99) (by simp [LatencySummary.percentiles])
  exact
    { min_le_p50 := (extremes_of_holds h _ (mem_lastDurations hmem50)).1
      p50_le_p90 := Percentile.nearestRank?_mono hsorted (show 50 ≤ 90 by decide) h50 h90
      p90_le_p95 := Percentile.nearestRank?_mono hsorted (show 90 ≤ 95 by decide) h90 h95
      p95_le_p99 := Percentile.nearestRank?_mono hsorted (show 95 ≤ 99 by decide) h95 h99
      p99_le_max := (extremes_of_holds h _ (mem_lastDurations hmem99)).2 }

theorem window_of_holds (h : l.Holds rs) : l.figures.window.total ≤ rs.length := by
  have hempty : (Figures.empty l.options l.started).window.total = 0 := by
    rw [RateWindow.total_eq_sum]
    simp [Figures.empty, RateWindow.start]
  rw [h.figures]
  exact (Figures.total_window_addAll_le _ rs).trans (by rw [hempty, Nat.zero_add])

/-! ## Snapshots -/

theorem snapshot?_eq_some_iff {now : Nat} {s : Snapshot} :
    l.snapshot? now = some s ↔ (l.view now).endsInCalendar = true ∧ l.view now = s := by
  unfold snapshot?
  by_cases hends : (l.view now).endsInCalendar = true <;> simp [hends]

/-- How the figures of a snapshot belong together, after any calls on a ledger: it counts the results
that were offered since the last reset, and its mean, its extremes and its percentiles are in order,
whichever durations have been dropped. -/
theorem snapshot_of_calls (options : LedgerOptions) (began : Nat) (calls : List Call) (now : Nat)
    (s : Snapshot) (hroom : (Figures.durations (offered calls)).sum ≤ Nanos.longest)
    (hfew : (offered calls).length < Nat.pow 2 32)
    (hs : ((start options began).performAll calls).snapshot? now = some s) :
    s.total = (offered calls).length ∧
      s.success + s.failed = s.total ∧
      s.reads + s.writes = s.total ∧
      ((start options began).performAll calls).figures.window.total ≤ s.total ∧
      s.latency.avg = (Figures.durations (offered calls)).sum / s.total ∧
      s.latency.min ≤ s.latency.avg ∧
      s.latency.avg ≤ s.latency.max ∧
      (1 ≤ options.sampleCap → 1 ≤ s.total → s.latency.Ordered ∧
        ∀ e ∈ s.latency.percentiles,
          let sorted := ascending (lastDurations options.sampleCap (offered calls))
          sorted[sorted.length * e.1 / 100]? = some e.2) := by
  have hview := (snapshot?_eq_some_iff.1 hs).2
  have holds := (stands_performAll options began calls).holds hroom
  have hoptions := options_performAll (start options began) calls
  -- How the ledger came to hold these results does not matter from here on.
  generalize (start options began).performAll calls = l at hview holds hoptions ⊢
  generalize offered calls = rs at hroom hfew holds ⊢
  subst hview
  have hcounts : l.counts = .tally (rs.map Prod.snd) := holds.counts
  have hlength : (rs.map Prod.snd).length = rs.length := List.length_map _
  have htotal : l.counts.total = rs.length := by rw [hcounts, Counts.total_tally, hlength]
  show l.counts.total = _ ∧ _
  refine ⟨htotal, ?_, ?_, ?_, ?_, ?_, ?_, ?_⟩
  · show l.counts.success + l.counts.failed = l.counts.total
    rw [htotal, hcounts, Counts.success_add_failed_tally, hlength]
  · show l.counts.reads + l.counts.writes = l.counts.total
    rw [htotal, hcounts, Counts.reads_add_writes_tally, hlength]
  · show l.figures.window.total ≤ l.counts.total
    rw [htotal]
    exact window_of_holds holds
  · show l.latency.avg = _ / l.counts.total
    rw [htotal]
    exact avg_of_holds holds hfew
  · exact (mean_of_holds holds hfew).1
  · exact (mean_of_holds holds hfew).2
  · intro hcap hsome
    have hcap : 1 ≤ l.options.sampleCap := by rwa [hoptions]
    have hne : rs ≠ [] := by
      rintro rfl
      have hzero : 1 ≤ l.counts.total := hsome
      rw [htotal] at hzero
      cases hzero
    refine ⟨ordered_of_holds holds hcap hne, fun e he => ?_⟩
    have hrank := (percentiles_of_holds holds hcap hne e he).2
    have hpos : 0 < (ascending (lastDurations l.options.sampleCap rs)).length := by
      rw [ascending, length_sortBy, List.length_pos_iff]
      exact lastDurations_ne_nil hcap hne
    rw [Percentile.nearestRank?, Percentile.rank_eq_of_lt hpos
      (LatencySummary.percentage_lt _ e he), hoptions] at hrank
    exact hrank

/-- Four results, of which one is dropped with a reset and another one for want of room. -/
theorem snapshot_of_fourCalls :
    let calls : List Call :=
      [⟨0, .record (.succeeded 9 true)⟩, ⟨1, .reset⟩, ⟨1, .record (.succeeded 7 true)⟩,
        ⟨2, .record (.failed 3 false "boom")⟩, ⟨3, .look⟩, ⟨4, .finish⟩,
        ⟨5, .record (.succeeded 5 false)⟩]
    let options : LedgerOptions := { sampleCap := 2 }
    ∃ s, ((start options 0).performAll calls).snapshot? 6 = some s ∧ s.total = 3 ∧
      s.latency.avg = 5 ∧ s.latency.max = 7 ∧ s.latency.p50 = 5 ∧ s.latency.Ordered := by
  intro calls options
  have hs : ((start options 0).performAll calls).snapshot? 6 =
      some (((start options 0).performAll calls).view 6) :=
    snapshot?_eq_some_iff.2 ⟨by decide, rfl⟩
  obtain ⟨htotal, -, -, -, havg, -, -, horder⟩ :=
    snapshot_of_calls options 0 calls 6 _ (by decide) (by decide) hs
  rw [htotal] at havg
  exact ⟨_, hs, htotal.trans (by decide), havg.trans (by decide), by decide, by decide,
    (horder (by decide) (by decide)).1⟩

end Ledger
end LoadGen
