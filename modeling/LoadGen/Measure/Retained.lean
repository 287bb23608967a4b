import LoadGen.Data.Sort

/-!
# Bounded retention

A `Retained` buffer keeps the last `capacity` values that were pushed.  Values that it no longer
keeps are dropped many at a time, so that a push takes constant time on the whole.

* `newest` — what the buffer keeps; `newest_push` and `newest_pushAll` say what pushes do to it.
* `sorted` — the kept values in ascending order, equal ones in the order of their arrival.
-/

namespace LoadGen

/-- The most recent values, `capacity` of which are kept. -/
structure Retained (α : Type) where
  capacity : Nat
  /-- The values from the newest on; those beyond the capacity are still to be dropped. -/
  recent : List α
  held : Nat
  held_eq : held = recent.length
  deriving Repr

namespace Retained

variable {α : Type}

def empty (capacity : Nat) : Retained α :=
  ⟨capacity, [], 0, rfl⟩

/-- Adds a value; a buffer that holds twice what it keeps drops the rest. -/
def push (b : Retained α) (a : α) : Retained α :=
  if b.held < 2 * b.capacity then
    ⟨b.capacity, a :: b.recent, b.held + 1, by rw [b.held_eq, List.length_cons]⟩
  else
    let recent := (a :: b.recent).take b.capacity
    ⟨b.capacity, recent, recent.length, rfl⟩

def pushAll (b : Retained α) (values : List α) : Retained α :=
  values.foldl push b

def clear (b : Retained α) : Retained α :=
  .empty b.capacity

/-- The kept values from newest to oldest. -/
def newest (b : Retained α) : List α :=
  b.recent.take b.capacity

/-- The kept values from oldest to newest. -/
def toList (b : Retained α) : List α :=
  b.newest.reverse

def size (b : Retained α) : Nat :=
  min b.capacity b.held

/-- The kept values in ascending order, by a strict comparison. -/
def sorted (b : Retained α) (lt : α → α → Bool) : List α :=
  sortBy lt b.toList

@[simp] theorem newest_empty (capacity : Nat) : (empty capacity : Retained α).newest = [] :=
  List.take_nil

@[simp] theorem length_newest (b : Retained α) : b.newest.length = b.size := by
  rw [newest, size, List.length_take, b.held_eq]

@[simp] theorem length_toList (b : Retained α) : b.toList.length = b.size := by
  rw [toList, List.length_reverse, length_newest]

@[simp] theorem capacity_push (b : Retained α) (a : α) : (b.push a).capacity = b.capacity := by
  unfold push
  split <;> rfl

theorem take_append_take (n : Nat) (xs l : List α) :
    (xs ++ l.take n).take n = (xs ++ l).take n := by
  rw [List.take_append, List.take_append, List.take_take, Nat.min_eq_left (Nat.sub_le _ _)]

/-- A push puts its value in front of what was kept. -/
theorem newest_push (b : Retained α) (a : α) :
    (b.push a).newest = (a :: b.newest).take b.capacity := by
  have h : (a :: b.newest).take b.capacity = (a :: b.recent).take b.capacity :=
    take_append_take b.capacity [a] b.recent
  rw [h]
  unfold push newest
  split
  · rfl
  · exact take_append_take b.capacity [] (a :: b.recent)

@[simp] theorem capacity_pushAll (b : Retained α) (values : List α) :
    (b.pushAll values).capacity = b.capacity := by
  induction values generalizing b with
  | nil => rfl
  | cons a rest ih => exact (ih (b.push a)).trans (capacity_push b a)

theorem pushAll_snoc (b : Retained α) (values : List α) (a : α) :
    b.pushAll (values ++ [a]) = (b.pushAll values).push a :=
  List.foldl_append

/-- The buffer keeps the last values pushed, newest first. -/
theorem newest_pushAll (b : Retained α) (values : List α) :
    (b.pushAll values).newest = (values.reverse ++ b.newest).take b.capacity := by
  induction values generalizing b with
  | nil => simp [pushAll, newest, List.take_take]
  | cons a rest ih =>
    show ((b.push a).pushAll rest).newest = _
    rw [ih (b.push a), newest_push, capacity_push, take_append_take]
    simp

end Retained
end LoadGen
