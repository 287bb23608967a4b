/-!
# Histories of a step function

A step function says what a label does to a state, where it can happen.  A history keeps every step
that was taken, with the states before and after it, so what happened along the way can be read off
it afterwards.

* `Transition`, `Trace` — one step that was taken, and the histories from a state, oldest first.
* `Trace.invariant` — what every step preserves holds at the end of every history.
* `Trace.split`, `Trace.append` — histories are cut and joined at a state.
* `Trace.reaches` — every step of a history starts at the end of a shorter one.
* `Trace.drive` — the history that a list of labels leads through.
* `Trace.map`, `Trace.comap` — histories of a system that another one imitates.
-/

namespace LoadGen

/-- A step that was taken. -/
structure Transition (σ ι : Type) where
  source : σ
  label : ι
  target : σ

/-- `Trace step s₀ ts s` says that the steps `ts`, oldest first, lead from `s₀` to `s`. -/
inductive Trace {σ ι : Type} (step : σ → ι → Option σ) (s₀ : σ) : List (Transition σ ι) → σ → Prop
  | nil : Trace step s₀ [] s₀
  | snoc {ts : List (Transition σ ι)} {s s' : σ} {label : ι} (hs : Trace step s₀ ts s)
      (hstep : step s label = some s') : Trace step s₀ (ts ++ [⟨s, label, s'⟩]) s'

/-- What a list of steps shows, and what one more step adds to it. -/
theorem filterMap_snoc {α β : Type} (f : α → Option β) (xs : List α) (x : α) :
    (xs ++ [x]).filterMap f = xs.filterMap f ++ (f x).toList := by
  rw [List.filterMap_append, List.filterMap_cons, List.filterMap_nil]
  cases f x <;> rfl

namespace Trace

variable {σ ι : Type} {step : σ → ι → Option σ} {s₀ s₁ s : σ} {ts us : List (Transition σ ι)}

/-- A property that holds at the beginning and is preserved by every step holds at the end. -/
theorem invariant {P : σ → Prop} (ht : Trace step s₀ ts s) (hinit : P s₀)
    (hstep : ∀ s label s', P s → step s label = some s' → P s') : P s := by
  induction ht with
  | nil => exact hinit
  | snoc _ h ih => exact hstep _ _ _ ih h

theorem append (ht : Trace step s₀ ts s₁) (hu : Trace step s₁ us s) :
    Trace step s₀ (ts ++ us) s := by
  induction hu with
  | nil => simpa using ht
  | snoc _ h ih =>
      rw [← List.append_assoc]
      exact ih.snoc h

/-- A history can be cut after any number of steps. -/
theorem split (h : Trace step s₀ (ts ++ us) s) :
    ∃ m, Trace step s₀ ts m ∧ Trace step m us s := by
  generalize hall : ts ++ us = all at h
  induction h generalizing us with
  | nil =>
      obtain ⟨rfl, rfl⟩ := List.append_eq_nil_iff.1 hall
      exact ⟨s₀, .nil, .nil⟩
  | @snoc vs s s' label hv hstep ih =>
      rcases List.eq_nil_or_concat us with rfl | ⟨us', u, rfl⟩
      · rw [List.append_nil] at hall
        subst hall
        exact ⟨s', hv.snoc hstep, .nil⟩
      · rw [List.concat_eq_append, ← List.append_assoc] at hall
        obtain ⟨hvs, hu⟩ := List.append_inj' hall rfl
        obtain ⟨m, hbefore, hafter⟩ := ih hvs
        obtain rfl : u = ⟨s, label, s'⟩ := by simpa using hu
        exact ⟨m, hbefore, by simpa using hafter.snoc hstep⟩

/-- A step of a history starts where a shorter history ends. -/
theorem reaches (h : Trace step s₀ ts s) {t : Transition σ ι} (hmem : t ∈ ts) :
    (∃ us, Trace step s₀ us t.source) ∧ step t.source t.label = some t.target := by
  induction h with
  | nil => simp at hmem
  | @snoc vs s s' label hv hstep ih =>
      rcases List.mem_append.1 hmem with hold | hnew
      · exact ih hold
      · obtain rfl : t = ⟨s, label, s'⟩ := by simpa using hnew
        exact ⟨⟨vs, hv⟩, hstep⟩

theorem nil_inv (h : Trace step s₀ [] s) : s₀ = s := by
  generalize hall : [] = all at h
  cases h with
  | nil => rfl
  | snoc => simp at hall

/-- A history begins with its first step. -/
theorem cons_inv {x : Transition σ ι} (h : Trace step s₀ (x :: ts) s) :
    s₀ = x.source ∧ step x.source x.label = some x.target ∧ Trace step x.target ts s := by
  generalize hall : x :: ts = all at h
  induction h generalizing ts with
  | nil => cases hall
  | @snoc vs s s' label hv hstep ih =>
      cases vs with
      | nil =>
          cases hall
          obtain rfl := hv.nil_inv
          exact ⟨rfl, hstep, .nil⟩
      | cons v vs =>
          cases hall
          obtain ⟨hsource, hfirst, hrest⟩ := ih rfl
          exact ⟨hsource, hfirst, hrest.snoc hstep⟩

/-- A history can be cut at any of its steps. -/
theorem split_at {x : Transition σ ι} (h : Trace step s₀ (ts ++ x :: us) s) :
    Trace step s₀ ts x.source ∧ step x.source x.label = some x.target ∧
      Trace step x.target us s := by
  obtain ⟨m, hbefore, hafter⟩ := h.split
  obtain ⟨rfl, hstep, hrest⟩ := hafter.cons_inv
  exact ⟨hbefore, hstep, hrest⟩

/-- The steps that a list of labels leads through, with the state at the end. -/
def drive (step : σ → ι → Option σ) (s : σ) : List ι → Option (List (Transition σ ι) × σ)
  | [] => some ([], s)
  | label :: labels =>
    match step s label with
    | none => none
    | some s' => (drive step s' labels).map fun rest => (⟨s, label, s'⟩ :: rest.1, rest.2)

theorem cons {x : Transition σ ι} (hstep : step x.source x.label = some x.target)
    (h : Trace step x.target ts s) : Trace step x.source (x :: ts) s := by
  have hfirst : Trace step x.source ([] ++ [x]) x.target := .snoc .nil hstep
  exact hfirst.append h

theorem of_drive {labels : List ι} (h : drive step s₀ labels = some (ts, s)) :
    Trace step s₀ ts s := by
  induction labels generalizing s₀ ts with
  | nil =>
      cases h
      exact .nil
  | cons label labels ih =>
      rw [drive] at h
      split at h
      · cases h
      · rename_i s' hstep
        obtain ⟨⟨us, u⟩, hrest, heq⟩ := Option.map_eq_some_iff.1 h
        cases heq
        exact cons (x := ⟨s₀, label, s'⟩) hstep (ih hrest)

/-- If one system can do at the image of a state whatever the other does at the state, then it has the
image of every history. -/
theorem map {σ' ι' : Type} {step' : σ' → ι' → Option σ'} (f : σ → σ') (g : ι → ι')
    (hstep : ∀ s label s', step s label = some s' → step' (f s) (g label) = some (f s'))
    (ht : Trace step s₀ ts s) :
    Trace step' (f s₀) (ts.map fun x => ⟨f x.source, g x.label, f x.target⟩) (f s) := by
  induction ht with
  | nil => exact .nil
  | snoc _ h ih =>
      rw [List.map_append]
      exact ih.snoc (hstep _ _ _ h)

/-- If it does nothing else there, then it has no other histories. -/
theorem comap {σ' ι' : Type} {step' : σ' → ι' → Option σ'} (f : σ → σ') (g : ι → ι')
    (hstep : ∀ s label' t, step' (f s) label' = some t →
      ∃ label s', label' = g label ∧ t = f s' ∧ step s label = some s')
    {ts' : List (Transition σ' ι')} {t : σ'} (ht : Trace step' (f s₀) ts' t) :
    ∃ ts s, Trace step s₀ ts s ∧ t = f s ∧
      ts' = ts.map fun x => ⟨f x.source, g x.label, f x.target⟩ := by
  generalize hstart : f s₀ = start at ht
  induction ht with
  | nil => exact ⟨[], s₀, .nil, hstart.symm, rfl⟩
  | snoc _ h ih =>
      obtain ⟨ts, s, hts, rfl, rfl⟩ := ih
      obtain ⟨label, s', rfl, rfl, hnext⟩ := hstep _ _ _ h
      refine ⟨_, s', hts.snoc hnext, rfl, ?_⟩
      rw [List.map_append]
      rfl

end Trace
end LoadGen
