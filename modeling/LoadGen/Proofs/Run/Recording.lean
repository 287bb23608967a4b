import LoadGen.Proofs.Measure.Figures
import LoadGen.Proofs.Run.Accounts

/-!
# What the ledger of a run holds

* `recordings` — the results that the collector records, each with its instant.
* `holds_of_trace` — while the collector lives, the ledger holds exactly these results.
* `ledger_options_of_trace` — its caps are those of the ledger that the run began with.
-/

namespace LoadGen
namespace Run

variable {p : Plan} {cancelled : Bool} {b : Circuit.Breaker} {l : Ledger} {ts : History}
  {s s' : State} {label : Label}

/-- The results that the collector records, first to last, each with its instant. -/
def recordings (ts : History) : List (Nat × OperationResult) :=
  ts.filterMap fun x => (recorded? x).map fun c => (x.source.now, c.result)

theorem map_snd_recordings (ts : History) :
    (recordings ts).map Prod.snd = (records ts).map Completion.result := by
  rw [recordings, records, List.map_filterMap, List.map_filterMap]
  congr 1
  funext x
  cases recorded? x <;> rfl

/-- While the collector lives, the ledger holds the recorded results. -/
theorem holds_of_trace (ht : Trace (lateStep p) (.initial p cancelled b l) ts s)
    (halive : s.collector ≠ .crashed) : s.ledger.Holds (recordings ts) := by
  induction ht with
  | nil => exact Ledger.holds_start l.options p.started
  | @snoc ts s s' label _ hstep ih =>
      rw [recordings, filterMap_snoc, ← recordings]
      cases move_of_step hstep with
      | collector hmove =>
          have hbefore := ih (by simp [hmove.listening])
          cases hmove with
          | accept _ hresults haccepted =>
              have hrecorded := hbefore.record haccepted
              simpa [recorded?, hresults] using hrecorded
          | refuse => exact absurd rfl halive
          | close _ hresults => simpa [recorded?, hresults] using hbefore
      | supervisor hmove =>
          have hbefore := ih (by rw [hmove.frame] at halive; exact halive)
          have hnone : recorded? ⟨s, .act .supervisor, s'⟩ = none := rfl
          rw [hnone, Option.map_none, Option.toList_none, List.append_nil]
          cases hmove with
          | joinCollector | buryCollector => exact hbefore.finish _
          | joinGenerator | buryGenerator | buryWorker | joinWorkers => exact hbefore
      | worker _ hmove =>
          obtain ⟨-, -, hcollector, -, -, hledger, -⟩ := hmove.frame
          rw [hcollector] at halive
          rw [hledger]
          simpa [recorded?] using ih halive
      | generator hmove =>
          rw [hmove.frame] at halive ⊢
          simpa [recorded?] using ih halive
      | wait | cancel => simpa [recorded?] using ih halive

theorem ledger_options_of_trace (ht : Trace (lateStep p) (.initial p cancelled b l) ts s) :
    s.ledger.options = l.options := by
  refine invariant_of_moves (P := fun s => s.ledger.options = l.options) ht rfl ?_
  intro s label s' h hmove
  cases hmove with
  | collector hmove =>
      cases hmove with
      | accept | refuse => exact (Ledger.frame_record _ _ _).1.trans h
      | close => exact h
  | supervisor hmove => cases hmove <;> exact h
  | worker _ hmove =>
      obtain ⟨-, -, -, -, -, hledger, -⟩ := hmove.frame
      rw [hledger]
      exact h
  | generator hmove =>
      rw [hmove.frame]
      exact h
  | wait | cancel => exact h

end Run
end LoadGen
