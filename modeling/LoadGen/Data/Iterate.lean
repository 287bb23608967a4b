/-!
# Running a step function to its end

`iterate n step s` applies `step` until it gives nothing more, at most `n` times.

* `iterate_induction` — what a step preserves, a run preserves.
* `iterate_ends` — a run ends when it has as many steps as a measure that every step lowers.
-/

namespace LoadGen

/-- The state after at most `n` steps, or earlier if no step is left. -/
def iterate {σ : Type} (step : σ → Option σ) : Nat → σ → σ
  | 0, s => s
  | n + 1, s =>
    match step s with
    | some s' => iterate step n s'
    | none => s

theorem iterate_induction {σ : Type} {step : σ → Option σ} {P : σ → Prop}
    (hstep : ∀ s s', step s = some s' → P s → P s') (n : Nat) (s : σ) (hs : P s) :
    P (iterate step n s) := by
  induction n generalizing s with
  | zero => exact hs
  | succ n ih =>
    unfold iterate
    split
    · rename_i s' h
      exact ih s' (hstep s s' h hs)
    · exact hs

theorem iterate_ends {σ : Type} {step : σ → Option σ} {m : σ → Nat}
    (hstep : ∀ s s', step s = some s' → m s' < m s) {n : Nat} {s : σ}
    (hn : m s ≤ n) : step (iterate step n s) = none := by
  induction n generalizing s with
  | zero =>
    cases h : step s with
    | none => exact h
    | some s' => exact absurd (hstep s s' h) (by omega)
  | succ n ih =>
    unfold iterate
    split
    · rename_i s' h
      have hless := hstep s s' h
      exact ih (by omega)
    · assumption

end LoadGen
