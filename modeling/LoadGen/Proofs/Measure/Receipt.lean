import LoadGen.Proofs.Measure.Latencies

/-!
# The order of receipt

The results of a run reach the ledger in the order in which the workers hand them over.  Two ledgers
that begin together and record the same results at the same instants, but in another order, report the
same, as long as no cap is reached: all durations are kept, and every failure text is counted under
itself.

* `Snapshot.Matches` — two snapshots that show the same, rates and spans of time included.
* `Ledger.snapshot?_receipts_perm` — the order of receipt does not show.
-/

namespace LoadGen

/-- Two snapshots that show the same, rates and spans of time included. -/
structure Snapshot.Matches (a b : Snapshot) : Prop extends a.Agrees b where
  errorRate : a.errorRate = b.errorRate
  rps : a.rps = b.rps
  throughput : a.throughput = b.throughput
  duration : a.duration = b.duration

namespace Ledger

variable {l l' : Ledger} {rs rs' : List (Nat × OperationResult)}

/-- The rates are those of the counts, the instants of the results and the span of the recording. -/
theorem matches_of_agrees {now : Nat} (hagrees : (l.view now).Agrees (l'.view now))
    (hwindow : l.figures.window = l'.figures.window) (hstarted : l.started = l'.started)
    (hfinished : l.finished = l'.finished) : (l.view now).Matches (l'.view now) := by
  have htotal : l.counts.total = l'.counts.total := hagrees.total
  have hfailed : l.counts.failed = l'.counts.failed := hagrees.failed
  have hduration : l.duration now = l'.duration now := by
    rw [Ledger.duration, Ledger.duration, hstarted, hfinished]
  exact
    { hagrees with
      errorRate := by simp only [view, htotal, hfailed]
      rps := congrArg RateWindow.rate hwindow
      throughput := by simp only [view, htotal, hduration]
      duration := hduration }

/-- Snapshots of the same span are both taken or both refused. -/
theorem snapshot?_of_matches {now : Nat} (h : (l.view now).Matches (l'.view now)) :
    Option.Rel Snapshot.Matches (l.snapshot? now) (l'.snapshot? now) := by
  have hspan : (l.view now).span = (l'.view now).span := by
    unfold Snapshot.span
    rw [h.duration]
  have hends : (l.view now).endsInCalendar = (l'.view now).endsInCalendar := by
    rw [Snapshot.endsInCalendar, Snapshot.endsInCalendar, hspan]
  simp only [snapshot?, hends]
  split
  · exact .some h
  · exact .none

section Receipts

variable (options : LedgerOptions) (began : Nat) {instants : List Nat}
  {results : List OperationResult}

/-- A ledger that has room for all durations holds the results that it receives. -/
theorem holds_receipts (hinstants : instants.length = results.length)
    (hroom : (results.map OperationResult.duration).sum ≤ Nanos.longest) :
    ((start options began).performAll (receipts instants results)).Holds
      (instants.zip results) := by
  have hstands := stands_performAll options began (receipts instants results)
  rw [offered_receipts] at hstands
  refine hstands.holds ?_
  have hdurations : Figures.durations (instants.zip results) =
      ((instants.zip results).map Prod.snd).map OperationResult.duration := List.map_map.symm
  rwa [hdurations, List.map_snd_zip (Nat.le_of_eq hinstants.symm)]

/-- The window is filled at the same instants, whichever results are received there. -/
theorem window_receipts (hinstants : instants.length = results.length)
    (hroom : (results.map OperationResult.duration).sum ≤ Nanos.longest) :
    ((start options began).performAll (receipts instants results)).figures.window =
      instants.foldl (fun w (now : Nat) => w.record now)
        (.start options.windowBuckets options.bucketSize began) := by
  rw [(holds_receipts options began hinstants hroom).figures, Figures.window_addAll,
    List.map_fst_zip (Nat.le_of_eq hinstants), options_performAll,
    (frame_receipts _ instants results).1]
  rfl

end Receipts

/-- The order in which results are received does not show in a snapshot, as long as no cap is
reached. -/
theorem snapshot?_receipts_perm (options : LedgerOptions) (began now : Nat) (instants : List Nat)
    (results results' : List OperationResult) (hperm : results.Perm results')
    (hinstants : instants.length = results.length)
    (hroom : (results.map OperationResult.duration).sum ≤ Nanos.longest)
    (hkept : results.length ≤ options.sampleCap)
    (hcap : (Figures.messages results).dedup.length ≤ options.errorCap) :
    Option.Rel Snapshot.Matches
      (((start options began).performAll (receipts instants results)).snapshot? now)
      (((start options began).performAll (receipts instants results')).snapshot? now) := by
  have hinstants' : instants.length = results'.length := hinstants.trans hperm.length_eq
  have hsnd : (instants.zip results).map Prod.snd = results :=
    List.map_snd_zip (Nat.le_of_eq hinstants.symm)
  have hsnd' : (instants.zip results').map Prod.snd = results' :=
    List.map_snd_zip (Nat.le_of_eq hinstants'.symm)
  have hmessages : (Figures.messages results).Perm (Figures.messages results') :=
    (hperm.filter _).map _
  have hholds := holds_receipts options began hinstants hroom
  have hroom' : (results'.map OperationResult.duration).sum ≤ Nanos.longest := by
    rwa [← (hperm.map OperationResult.duration).sum_nat]
  have hholds' := holds_receipts options began hinstants' hroom'
  have hoptions := options_performAll (start options began) (receipts instants results)
  have hoptions' := options_performAll (start options began) (receipts instants results')
  have hframe := frame_receipts (start options began) instants results
  have hframe' := frame_receipts (start options began) instants results'
  have hlength : (instants.zip results).length = results.length := by
    rw [← List.length_map Prod.snd, hsnd]
  have hlength' : (instants.zip results').length = results.length := by
    rw [← List.length_map Prod.snd, hsnd', hperm.length_eq]
  have hagrees := agrees_of_perm hholds hholds' (by rwa [hsnd, hsnd'])
    (by rwa [hoptions, hlength]) (by rwa [hoptions', hlength'])
    (by rwa [hoptions, hsnd]) (by rwa [hoptions', hsnd', ← hmessages.dedup.length_eq]) now now
  exact snapshot?_of_matches (matches_of_agrees hagrees
    ((window_receipts options began hinstants hroom).trans
      (window_receipts options began hinstants' hroom').symm)
    (hframe.1.trans hframe'.1.symm) (hframe.2.trans hframe'.2.symm))

/-- Two failures and a success fill the caps exactly, and come in two orders. -/
theorem snapshot?_receipts_swap :
    let slow := OperationResult.failed 9 true "timed out"
    let refused := OperationResult.failed 1 false "refused"
    let fine := OperationResult.succeeded 4 true
    let options : LedgerOptions := { sampleCap := 3, errorCap := 2 }
    Option.Rel Snapshot.Matches
      (((start options 0).performAll (receipts [1, 2, 5] [slow, refused, fine])).snapshot? 6)
      (((start options 0).performAll (receipts [1, 2, 5] [refused, slow, fine])).snapshot? 6) := by
  intro slow refused fine options
  exact snapshot?_receipts_perm options 0 6 [1, 2, 5] [slow, refused, fine] [refused, slow, fine]
    (.swap refused slow [fine]) rfl (by decide) (by decide) (by decide)

/-- With room for one failure text only, the order does show: the text that comes first is the one
that is counted under itself. -/
example :
    let errors (texts : List String) := (((start { errorCap := 1 } 0).performAll (receipts [1, 2]
      (texts.map (OperationResult.failed 1 false)))).view 3).errors.entries
    errors ["a", "b"] = [("a", 1), ("other errors", 1)] ∧
      errors ["b", "a"] = [("b", 1), ("other errors", 1)] := by
  decide

end Ledger
end LoadGen
