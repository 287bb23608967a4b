/-!
# The earliest instant

* `soonest` — the least of a list of instants; `soonest_le` and `soonest_mem` pin it down.
-/

namespace LoadGen

/-- The earliest of the given instants. -/
def soonest : List Nat → Option Nat
  | [] => none
  | t :: rest =>
    match soonest rest with
    | some u => some (min t u)
    | none => some t

theorem soonest_isSome_of_mem {ts : List Nat} {t : Nat} (h : t ∈ ts) : (soonest ts).isSome := by
  cases ts with
  | nil => simp at h
  | cons a rest =>
    unfold soonest
    split <;> rfl

theorem soonest_le {ts : List Nat} {t u : Nat} (h : soonest ts = some t) (hu : u ∈ ts) : t ≤ u := by
  induction ts generalizing t with
  | nil => simp at hu
  | cons a rest ih =>
    unfold soonest at h
    split at h
    · rename_i v hv
      cases h
      rcases List.mem_cons.1 hu with rfl | hmem
      · exact Nat.min_le_left _ _
      · exact Nat.le_trans (Nat.min_le_right _ _) (ih hv hmem)
    · rename_i hnone
      cases h
      rcases List.mem_cons.1 hu with rfl | hmem
      · exact Nat.le_refl _
      · cases rest with
        | nil => simp at hmem
        | cons b bs =>
          unfold soonest at hnone
          split at hnone <;> simp at hnone

theorem soonest_mem {ts : List Nat} {t : Nat} (h : soonest ts = some t) : t ∈ ts := by
  induction ts generalizing t with
  | nil => simp [soonest] at h
  | cons a rest ih =>
    unfold soonest at h
    split at h
    · rename_i v hv
      cases h
      rcases Nat.le_total a v with hle | hle
      · rw [Nat.min_eq_left hle]
        exact List.mem_cons_self
      · rw [Nat.min_eq_right hle]
        exact List.mem_cons_of_mem _ (ih hv)
    · cases h
      exact List.mem_cons_self

end LoadGen
