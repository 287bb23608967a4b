import LoadGen.Proofs.Measure.Latencies

/-!
# Refused results

A ledger refuses a result whose duration would carry the sum of all durations beyond the longest
span.  By then the result is counted already, and no figure ever shows it.  So two histories have to
be told apart: the counts are those of everything that was offered, and the figures are those of what
was not refused.

* `Ledger.refuses`, `Ledger.admitted` — which calls are refused, and a history without them.
* `Ledger.SameFigures` — two ledgers that differ in their counts at most.
* `Ledger.SameFigures.replay`, `Ledger.SameFigures.admitted_replay` — what was not refused makes the
  same figures when it is offered by itself, and nothing of it is refused then.
* `Ledger.offered_admitted` — the results that are not refused are those for which there is room.
* `Ledger.refusals_of_calls` — the counts and the figures after any calls.
-/

namespace LoadGen

/-! ## Figures of results for which there is room -/

/-- The results for which there is room do not carry the sum beyond the longest span. -/
theorem Figures.sum_fitting_le {sum : Nat} (hsum : sum ≤ Nanos.longest)
    (rs : List (Nat × OperationResult)) :
    sum + (durations (fitting sum rs)).sum ≤ Nanos.longest := by
  induction rs generalizing sum with
  | nil => exact hsum
  | cons r rs ih =>
      rw [fitting]
      split
      · rename_i hroom
        rw [sum_durations_cons, ← Nat.add_assoc]
        exact ih hroom
      · exact ih hsum

/-- The shortest duration is the least of them. -/
theorem Figures.foldl_shorter_eq_min? (ds : List Nat) : ds.foldl shorter none = ds.min? := by
  have hsome : ∀ (ds : List Nat) (m : Nat), ds.foldl shorter (some m) = some (ds.foldl min m) := by
    intro ds
    induction ds with
    | nil => exact fun m => rfl
    | cons d ds ih => exact fun m => ih (min m d)
  cases ds with
  | nil => rfl
  | cons d ds => exact (hsome ds d).trans List.min?_cons'.symm

namespace Ledger

variable {l l' : Ledger} {call : Call}

/-! ## Calls that are refused -/

/-- Whether a ledger refuses a call; only a result can be refused. -/
def refuses (l : Ledger) (call : Call) : Bool :=
  match call.act with
  | .record result => !(l.record call.instant result).2
  | .finish | .reset | .look => false

/-- The calls of a history that are not refused when a ledger is asked for one after the other. -/
def admitted (l : Ledger) : List Call → List Call
  | [] => []
  | call :: calls =>
    if l.refuses call then admitted (l.perform call) calls
    else call :: admitted (l.perform call) calls

theorem refuses_record_iff (l : Ledger) (now : Nat) (r : OperationResult) :
    l.refuses ⟨now, .record r⟩ = true ↔ Nanos.longest < l.figures.sum + r.duration := by
  have haccepted := record_snd_iff l now r
  show (!(l.record now r).2) = true ↔ _
  rw [Bool.not_eq_true', ← Nat.not_le, ← haccepted, Bool.not_eq_true]

theorem admitted_snoc (l : Ledger) (calls : List Call) (call : Call) :
    admitted l (calls ++ [call]) =
      admitted l calls ++ if (l.performAll calls).refuses call then [] else [call] := by
  induction calls generalizing l with
  | nil => rfl
  | cons first calls ih =>
      rw [List.cons_append, admitted, admitted, ih]
      split <;> rfl

/-! ## Ledgers with the same figures -/

/-- Two ledgers that differ in their counts at most. -/
structure SameFigures (l l' : Ledger) : Prop where
  options : l.options = l'.options
  started : l.started = l'.started
  finished : l.finished = l'.finished
  figures : l.figures = l'.figures

theorem SameFigures.refl (l : Ledger) : SameFigures l l :=
  ⟨rfl, rfl, rfl, rfl⟩

theorem SameFigures.trans {l'' : Ledger} (h : SameFigures l l') (h' : SameFigures l' l'') :
    SameFigures l l'' :=
  ⟨h.options.trans h'.options, h.started.trans h'.started, h.finished.trans h'.finished,
    h.figures.trans h'.figures⟩

theorem SameFigures.eq_with (h : SameFigures l l') : l = { l' with counts := l.counts } := by
  obtain ⟨hoptions, hstarted, hfinished, hfigures⟩ := h
  cases l
  cases l'
  cases hoptions
  cases hstarted
  cases hfinished
  cases hfigures
  rfl

/-- A refused call leaves its trace in the counts only. -/
theorem sameFigures_of_refuses (h : l.refuses call = true) : SameFigures (l.perform call) l := by
  obtain ⟨now, act⟩ := call
  cases act with
  | finish | reset | look => cases h
  | record r =>
      obtain ⟨hoptions, hstarted, hfinished⟩ := frame_record l now r
      refine ⟨hoptions, hstarted, hfinished, ?_⟩
      have hfull : ¬ l.accepts r = true := by
        have hroom := (refuses_record_iff l now r).1 h
        simpa [accepts] using hroom
      exact (figures_record l now r).trans (if_neg hfull)

/-- What a call does to the figures does not depend on the counts. -/
theorem SameFigures.perform (h : SameFigures l l') (call : Call) :
    SameFigures (l.perform call) (l'.perform call) := by
  obtain ⟨now, act⟩ := call
  cases act with
  | look => exact h
  | finish => exact ⟨h.options, h.started, by simp [Ledger.perform, finish, h.finished, h.started],
      h.figures⟩
  | reset =>
      show SameFigures (start l.options now) (start l'.options now)
      rw [h.options]
      exact .refl _
  | record r =>
      obtain ⟨hoptions, hstarted, hfinished⟩ := frame_record l now r
      obtain ⟨hoptions', hstarted', hfinished'⟩ := frame_record l' now r
      refine ⟨hoptions.trans (h.options.trans hoptions'.symm),
        hstarted.trans (h.started.trans hstarted'.symm),
        hfinished.trans (h.finished.trans hfinished'.symm), ?_⟩
      show (l.record now r).1.figures = (l'.record now r).1.figures
      rw [figures_record, figures_record, accepts, accepts, h.figures, h.options]

theorem SameFigures.refuses_eq (h : SameFigures l l') (call : Call) :
    l.refuses call = l'.refuses call := by
  obtain ⟨now, act⟩ := call
  cases act with
  | finish | reset | look => rfl
  | record r => rw [Bool.eq_iff_iff, refuses_record_iff, refuses_record_iff, h.figures]

/-- The calls that are not refused make the same figures by themselves. -/
theorem SameFigures.replay (h : SameFigures l l') (calls : List Call) :
    SameFigures (l.performAll calls) (l'.performAll (admitted l calls)) := by
  induction calls generalizing l l' with
  | nil => exact h
  | cons call calls ih =>
      rw [admitted]
      split
      · rename_i hrefused
        exact ih ((sameFigures_of_refuses hrefused).trans h)
      · exact ih (h.perform call)

/-- None of the calls that were not refused is refused when they are made by themselves. -/
theorem SameFigures.admitted_replay (h : SameFigures l l') (calls : List Call) :
    admitted l' (admitted l calls) = admitted l calls := by
  induction calls generalizing l l' with
  | nil => rfl
  | cons call calls ih =>
      rw [admitted]
      split
      · rename_i hrefused
        exact ih ((sameFigures_of_refuses hrefused).trans h)
      · rename_i hallowed
        rw [admitted, if_neg (h.refuses_eq call ▸ hallowed), ih (h.perform call)]

/-! ## Results that are recorded -/

theorem offered_snoc (calls : List Call) (call : Call) :
    offered (calls ++ [call]) = offer (offered calls) call :=
  List.foldl_append

/-- The results that are not refused are those for which there is room. -/
theorem offered_admitted (options : LedgerOptions) (began : Nat) (calls : List Call) :
    offered (admitted (start options began) calls) = Figures.fitting 0 (offered calls) := by
  induction calls using List.reverseRecOn with
  | nil => rfl
  | append_singleton calls call ih =>
      have hsum := (stands_performAll options began calls).sum_eq
      obtain ⟨now, act⟩ := call
      rw [admitted_snoc, offered_snoc]
      cases act with
      | finish | look => simpa [refuses, offered_snoc, offer] using ih
      | reset =>
          rw [refuses, if_neg Bool.false_ne_true, offered_snoc]
          rfl
      | record r =>
          show _ = Figures.fitting 0 (offered calls ++ [(now, r)])
          rw [Figures.fitting_snoc, ← ih, Nat.zero_add, ih, ← hsum]
          by_cases hroom : ((start options began).performAll calls).figures.sum + r.duration ≤
              Nanos.longest
          · have hallowed := mt (refuses_record_iff _ now r).1 (Nat.not_lt.2 hroom)
            rw [if_neg hallowed, if_pos hroom, offered_snoc, ih]
            rfl
          · have hrefused := (refuses_record_iff _ now r).2 (Nat.lt_of_not_le hroom)
            rw [if_pos hrefused, if_neg hroom, List.append_nil, List.append_nil, ih]

/-- A ledger that has room for all durations refuses nothing. -/
theorem offered_admitted_of_room (options : LedgerOptions) (began : Nat) {calls : List Call}
    (hroom : (Figures.durations (offered calls)).sum ≤ Nanos.longest) :
    offered (admitted (start options began) calls) = offered calls := by
  rw [offered_admitted]
  exact Figures.fitting_eq_self (by rwa [Nat.zero_add])

/-- The calls that are not refused, made by themselves, leave a ledger that has accepted all their
results. -/
theorem holds_replay (options : LedgerOptions) (began : Nat) (calls : List Call) :
    ((start options began).performAll (admitted (start options began) calls)).Holds
      (offered (admitted (start options began) calls)) := by
  refine (stands_performAll options began _).holds ?_
  have hsum := Figures.sum_fitting_le (Nat.zero_le _) (offered calls)
  rwa [Nat.zero_add, ← offered_admitted options began calls] at hsum

theorem sameFigures_replay (options : LedgerOptions) (began : Nat) (calls : List Call) :
    SameFigures ((start options began).performAll calls)
      ((start options began).performAll (admitted (start options began) calls)) :=
  (SameFigures.refl _).replay calls

/-- The kept durations are the last ones that were recorded, in the order in which they came. -/
theorem samples_performAll (options : LedgerOptions) (began : Nat) (calls : List Call) :
    ((start options began).performAll calls).figures.samples.toList =
      lastDurations options.sampleCap (offered (admitted (start options began) calls)) := by
  rw [(sameFigures_replay options began calls).figures,
    samples_of_holds (holds_replay options began calls), options_performAll]
  rfl

/-- What a ledger holds after any calls, some of which it may have refused.  It refuses exactly the
results that would carry the sum of the durations beyond the longest span.  It has counted all results
that were offered since the last reset, and apart from the counts it is the ledger that was never
asked for what it has refused; so are the ledgers that come of further results. -/
theorem refusals_of_calls (options : LedgerOptions) (began : Nat) (calls : List Call) :
    let l := (start options began).performAll calls
    let results := (offered calls).map Prod.snd
    let kept := admitted (start options began) calls
    let replay := (start options began).performAll kept
    let durations := Figures.durations (offered kept)
    (∀ now r, (l.record now r).2 = false ↔ Nanos.longest < l.figures.sum + r.duration) ∧
      l.counts =
        { total := results.length
          success := results.countP (·.success)
          failed := results.countP (!·.success)
          reads := results.countP (·.isRead)
          writes := results.countP (!·.isRead) } ∧
      l = { replay with counts := l.counts } ∧
      admitted (start options began) kept = kept ∧
      l.figures = (Figures.empty options l.started).addAll options.errorCap (offered kept) ∧
      l.figures.sum = durations.sum ∧
      l.figures.fastest = durations.min? ∧
      l.figures.slowest = durations.foldl max 0 ∧
      l.figures.samples.toList = lastDurations options.sampleCap (offered kept) ∧
      ∀ now r, (l.record now r).2 = (replay.record now r).2 ∧
        (l.record now r).1.figures = (replay.record now r).1.figures := by
  intro l results kept replay durations
  have hsame : SameFigures l replay := sameFigures_replay options began calls
  have hholds : replay.Holds (offered kept) := holds_replay options began calls
  have hoptions : replay.options = options := options_performAll _ _
  have hkept : admitted (start options began) kept = kept :=
    (SameFigures.refl _).admitted_replay calls
  refine ⟨fun now r => ?_, ?_, hsame.eq_with, hkept, ?_, ?_, ?_, ?_, ?_,
    fun now r => ⟨?_, (hsame.perform ⟨now, .record r⟩).figures⟩⟩
  · rw [← Nat.not_le, ← record_snd_iff l now r, Bool.not_eq_true]
  · exact (stands_performAll options began calls).counts.trans (Counts.tally_eq results)
  · rw [hsame.figures, hholds.figures, hsame.started, hoptions]
  · rw [hsame.figures, hholds.figures, Figures.sum_addAll]
    exact Nat.zero_add _
  · rw [hsame.figures, hholds.figures, Figures.fastest_addAll]
    exact Figures.foldl_shorter_eq_min? durations
  · rw [hsame.figures, hholds.figures, Figures.slowest_addAll]
    rfl
  · exact samples_performAll options began calls
  · rw [Bool.eq_iff_iff, record_snd_iff, record_snd_iff, hsame.figures]

/-- The second result does not fit and is counted only; the third one fits and shows. -/
example :
    let l := (start {} 0).performAll
      [⟨1, .record (.succeeded (Nanos.longest - 5) true)⟩, ⟨2, .record (.failed 6 false "late")⟩,
        ⟨3, .record (.failed 5 false "boom")⟩]
    l.counts = { total := 3, success := 1, failed := 2, reads := 1, writes := 2 } ∧
      l.figures.sum = Nanos.longest ∧ l.figures.errors.entries = [("boom", 1)] := by
  decide

end Ledger
end LoadGen
