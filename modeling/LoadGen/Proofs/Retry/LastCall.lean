import LoadGen.Proofs.Retry.History

/-!
# The last call of an execution

An execution that was not cancelled ends with what its last call has returned: with the value, or with
an error that carries the failure.  The error may be that of a call which the breaker has refused
afterwards.  Without any call there is nothing to carry.

* `Execution.Concludes` — the outcome of an execution, told from its last call.
* `Execution.concludes_of_trace` — every execution that was not cancelled ends so.
-/

namespace LoadGen
namespace Retry
namespace Execution

variable {α : Type} {S : Setting α} {e : Execution α} {ts : History α}

/-- The outcome of an execution that has made the given calls, each with its number and the instant
at which it started. -/
inductive Concludes (S : Setting α) (calls : List (Nat × Nat)) :
    Except ExecuteError (α × Nat) → Prop
  /-- The breaker has refused the first call. -/
  | refused (hnone : calls = []) : Concludes S calls (.error (.circuitOpen .opened 0 none))
  | value {n now : Nat} {a : α} (hlast : calls.getLast? = some (n, now))
      (hanswer : (S.call n now).answer = .value a) : Concludes S calls (.ok (a, calls.length))
  /-- The last call has failed, and no other one was made. -/
  | fault {n now : Nat} {chain : Fault.Chain} {error : ExecuteError}
      (hlast : calls.getLast? = some (n, now)) (hanswer : (S.call n now).answer = .fault chain)
      (hfailure : error.failure? = some (S.failure chain))
      (hattempts : error.attempts = calls.length) : Concludes S calls (.error error)

/-- The call that has returned last is the last one that started. -/
theorem getLast?_starts {k : Nat} (ht : Trace (stepAt S) {} ts e)
    (hstarts : (starts ts).map Prod.fst = List.range k)
    (hnumbers : (results ts).map Prod.fst = List.range e.attempts)
    {r : Except Fault.Chain α} (hlast : ((results ts).map Prod.snd)[k - 1]? = some r) :
    ∃ now, (starts ts).getLast? = some (k - 1, now) ∧
      (S.call (k - 1) now).answer.result? = some r := by
  obtain ⟨now, hstart, hanswer⟩ :=
    (scripted_of_trace ht).2 (k - 1) r ((mem_results_iff hnumbers).2 hlast)
  have hlength : (starts ts).length = k := by
    rw [← List.length_map Prod.fst, hstarts, List.length_range]
  refine ⟨now, ?_, hanswer⟩
  rw [List.getLast?_eq_getElem?, hlength]
  obtain ⟨i, hi⟩ := List.mem_iff_getElem?.1 hstart
  obtain rfl := number_eq_of_getElem? hstarts hi
  exact hi

/-- A call that returns an error was scripted to fail, and one that returns a value to return it. -/
theorem answer_of_result? {answer : Answer α} {r : Except Fault.Chain α}
    (h : answer.result? = some r) :
    (∃ a, r = .ok a ∧ answer = .value a) ∨ ∃ chain, r = .error chain ∧ answer = .fault chain := by
  cases answer with
  | value a =>
      cases h
      exact .inl ⟨a, rfl, rfl⟩
  | fault chain =>
      cases h
      exact .inr ⟨chain, rfl, rfl⟩
  | crash => cases h

/-- An execution that was not cancelled ends with what its last call has returned. -/
theorem concludes_of_trace (ht : Trace (stepAt S) {} ts e)
    {outcome : Except ExecuteError (α × Nat)} (hphase : e.phase = .done outcome)
    (hrun : outcome ≠ .error .cancelled) : Concludes S (starts ts) outcome := by
  obtain ⟨k, hfollows, hstarts, hnumbers⟩ := follows_of_trace ht
  have hlength : (starts ts).length = k := by
    rw [← List.length_map Prod.fst, hstarts, List.length_range]
  have hfault {chain : Fault.Chain} {error : ExecuteError}
      (hlast : ((results ts).map Prod.snd)[k - 1]? = some (.error chain))
      (hfailure : error.failure? = some (S.failure chain)) (hattempts : error.attempts = k) :
      Concludes S (starts ts) (.error error) := by
    obtain ⟨now, hstart, hresult⟩ := getLast?_starts ht hstarts hnumbers hlast
    rcases answer_of_result? hresult with ⟨a, hvalue, -⟩ | ⟨chain', hchain, hanswer⟩
    · cases hvalue
    · cases hchain
      exact .fault hstart hanswer hfailure (hattempts.trans hlength.symm)
  rcases outcome with (⟨state, n, last⟩ | _ | ⟨failure, n⟩) | ⟨a, n⟩
  · obtain ⟨rfl, rfl, hnone, hsome⟩ := hfollows.refused hphase
    rcases Nat.eq_zero_or_pos n with rfl | hpos
    · rw [hnone.2 rfl]
      exact .refused (List.length_eq_zero_iff.1 hlength)
    · obtain ⟨chain, hlast, hfailure⟩ := hsome hpos
      exact hfault hlast hfailure rfl
  · exact absurd rfl hrun
  · obtain ⟨rfl, -, hlast, hfailure, -⟩ := (hfollows.failed_iff failure n).1 hphase
    exact hfault hlast (congrArg some hfailure) rfl
  · obtain ⟨rfl, -, hlast⟩ := (hfollows.ok_iff a n).1 hphase
    obtain ⟨now, hstart, hresult⟩ := getLast?_starts ht hstarts hnumbers hlast
    rcases answer_of_result? hresult with ⟨a', hvalue, hanswer⟩ | ⟨chain, hchain, -⟩
    · cases hvalue
      exact hlength ▸ .value hstart hanswer
    · cases hchain

end Execution
end Retry
end LoadGen
