import LoadGen.Proofs.Measure.Figures

/-!
# Any calls on a ledger

A ledger is offered results, finished, reset and looked at, in any order and at any instants.  What
it holds comes from the results that it was offered since the last reset: it has counted all of them,
and its figures are those of the results for which it had room.

* `Ledger.Call`, `Ledger.performAll` — the calls, and a ledger after some of them.
* `Ledger.offered` — the results offered since the last reset, each with its instant.
* `Figures.fitting` — the results among them for which there is room.
* `Ledger.Stands` — what a ledger holds; `stands_performAll` says so of a ledger after any calls.
* `Ledger.Stands.holds` — a ledger with room for everything has accepted everything.
-/

namespace LoadGen

/-! ## Room for the durations -/

namespace Figures

variable {sum : Nat} {rs : List (Nat × OperationResult)}

/-- The results for which there is room, one after the other, once durations of so many nanoseconds
have been added up.  A result without room is passed over. -/
def fitting (sum : Nat) : List (Nat × OperationResult) → List (Nat × OperationResult)
  | [] => []
  | r :: rs =>
    if sum + r.2.duration ≤ Nanos.longest then r :: fitting (sum + r.2.duration) rs
    else fitting sum rs

theorem sum_durations_cons (r : Nat × OperationResult) (rs : List (Nat × OperationResult)) :
    (durations (r :: rs)).sum = r.2.duration + (durations rs).sum :=
  List.sum_cons

/-- Whether there is room for one more result depends on the durations of those that had room. -/
theorem fitting_snoc (sum : Nat) (rs : List (Nat × OperationResult)) (r : Nat × OperationResult) :
    fitting sum (rs ++ [r]) = fitting sum rs ++
      if sum + (durations (fitting sum rs)).sum + r.2.duration ≤ Nanos.longest then [r]
      else [] := by
  induction rs generalizing sum with
  | nil => simp [fitting, durations]
  | cons first rs ih =>
      rw [List.cons_append, fitting, fitting]
      split
      · rw [ih, sum_durations_cons, ← Nat.add_assoc]
        rfl
      · exact ih sum

/-- If there is room for all durations together, no result is passed over. -/
theorem fitting_eq_self (h : sum + (durations rs).sum ≤ Nanos.longest) : fitting sum rs = rs := by
  induction rs generalizing sum with
  | nil => rfl
  | cons r rs ih =>
      rw [sum_durations_cons] at h
      rw [fitting, if_pos (by omega), ih (by omega)]

end Figures

/-! ## Calls -/

namespace Ledger

inductive Act
  | record (result : OperationResult)
  | finish
  | reset
  /-- A snapshot is taken. -/
  | look

/-- A call on a ledger, with the instant that the clock shows.  Nothing asks for the instants to come
in any order. -/
structure Call where
  instant : Nat
  act : Act

def perform (l : Ledger) (call : Call) : Ledger :=
  match call.act with
  | .record result => (l.record call.instant result).1
  | .finish => l.finish call.instant
  | .reset => l.reset call.instant
  | .look => l

def performAll (l : Ledger) (calls : List Call) : Ledger :=
  calls.foldl perform l

/-- The results offered since the last reset, after one more call. -/
def offer (rs : List (Nat × OperationResult)) (call : Call) : List (Nat × OperationResult) :=
  match call.act with
  | .record result => rs ++ [(call.instant, result)]
  | .reset => []
  | .finish => rs
  | .look => rs

/-- The results that some calls have offered since the last reset, each with its instant. -/
def offered (calls : List Call) : List (Nat × OperationResult) :=
  calls.foldl offer []

/-- The ledger has been offered these results since it was last reset: it has counted all of them,
and its figures are those of the results for which it had room. -/
structure Stands (l : Ledger) (rs : List (Nat × OperationResult)) : Prop where
  counts : l.counts = .tally (rs.map Prod.snd)
  figures : l.figures =
    (Figures.empty l.options l.started).addAll l.options.errorCap (Figures.fitting 0 rs)

variable {l : Ledger} {rs : List (Nat × OperationResult)}

theorem stands_start (options : LedgerOptions) (now : Nat) : (start options now).Stands [] where
  counts := rfl
  figures := rfl

/-- The durations that a ledger has added up are those for which it had room. -/
theorem Stands.sum_eq (h : l.Stands rs) :
    l.figures.sum = (Figures.durations (Figures.fitting 0 rs)).sum := by
  rw [h.figures, Figures.sum_addAll]
  exact Nat.zero_add _

theorem Stands.record (h : l.Stands rs) (now : Nat) (r : OperationResult) :
    (l.record now r).1.Stands (rs ++ [(now, r)]) := by
  obtain ⟨hoptions, hstarted, -⟩ := frame_record l now r
  refine ⟨?_, ?_⟩
  · rw [counts_record, List.map_append, List.map_singleton, Counts.tally_snoc, ← h.counts]
  · rw [figures_record, hoptions, hstarted, Figures.fitting_snoc, Nat.zero_add, ← h.sum_eq]
    unfold accepts
    by_cases hroom : l.figures.sum + r.duration ≤ Nanos.longest
    · rw [if_pos (by simpa using hroom), if_pos hroom, Figures.addAll_snoc, ← h.figures]
    · rw [if_neg (by simpa using hroom), if_neg hroom, List.append_nil, ← h.figures]

theorem Stands.perform (h : l.Stands rs) (call : Call) :
    (l.perform call).Stands (offer rs call) := by
  unfold Ledger.perform offer
  cases call.act with
  | record result => exact h.record call.instant result
  | finish => exact ⟨h.counts, h.figures⟩
  | reset => exact stands_start l.options call.instant
  | look => exact h

/-- A ledger after any calls. -/
theorem stands_performAll (options : LedgerOptions) (began : Nat) (calls : List Call) :
    ((start options began).performAll calls).Stands (offered calls) := by
  -- The induction goes over ledgers that hold anything, since each call changes what is held.
  have hall : ∀ (l : Ledger) (rs : List (Nat × OperationResult)), l.Stands rs →
      (l.performAll calls).Stands (calls.foldl offer rs) := by
    induction calls with
    | nil => exact fun l rs h => h
    | cons call calls ih => exact fun l rs h => ih _ _ (h.perform call)
  exact hall _ _ (stands_start options began)

/-- No call changes the caps of a ledger. -/
@[simp] theorem options_performAll (l : Ledger) (calls : List Call) :
    (l.performAll calls).options = l.options := by
  induction calls generalizing l with
  | nil => rfl
  | cons call calls ih =>
      refine (ih (l.perform call)).trans ?_
      unfold perform
      cases call.act with
      | record result => exact (frame_record l call.instant result).1
      | finish | reset | look => rfl

/-- A ledger that has room for all durations together has accepted all results. -/
theorem Stands.holds (h : l.Stands rs) (hroom : (Figures.durations rs).sum ≤ Nanos.longest) :
    l.Holds rs := by
  have hall : Figures.fitting 0 rs = rs := Figures.fitting_eq_self (by rwa [Nat.zero_add])
  exact ⟨h.counts, hall ▸ h.figures⟩

/-! ## Results only -/

/-- The calls that record some results, each at its instant. -/
def receipts (instants : List Nat) (results : List OperationResult) : List Call :=
  List.zipWith (fun instant result => ⟨instant, .record result⟩) instants results

theorem offered_receipts (instants : List Nat) (results : List OperationResult) :
    offered (receipts instants results) = instants.zip results := by
  have hall : ∀ rs, (receipts instants results).foldl offer rs = rs ++ instants.zip results := by
    induction instants generalizing results with
    | nil => simp [receipts]
    | cons instant instants ih =>
        cases results with
        | nil => simp [receipts]
        | cons result results =>
            intro rs
            show (receipts instants results).foldl offer (rs ++ [(instant, result)]) = _
            rw [ih, List.append_assoc]
            rfl
  exact hall []

/-- Recording does not end or restart anything. -/
theorem frame_receipts (l : Ledger) (instants : List Nat) (results : List OperationResult) :
    (l.performAll (receipts instants results)).started = l.started ∧
      (l.performAll (receipts instants results)).finished = l.finished := by
  induction instants generalizing l results with
  | nil => exact ⟨rfl, rfl⟩
  | cons instant instants ih =>
      cases results with
      | nil => exact ⟨rfl, rfl⟩
      | cons result results =>
          obtain ⟨-, hstarted, hfinished⟩ := frame_record l instant result
          obtain ⟨hstarted', hfinished'⟩ := ih (l.record instant result).1 results
          exact ⟨hstarted'.trans hstarted, hfinished'.trans hfinished⟩

end Ledger
end LoadGen
