import LoadGen.Data.Sort

/-!
# Finite maps

A finite map is a list of distinct keys with their values, in the order in which the keys were first
given.  Views in another order are taken when a map is written out.

* `get?_update` — an update changes the value of its own key and of no other.
* `keys_update` — an update adds its key at the end if it is new and moves no key.
* `get?_eq_some_iff` — the entries of a map are its keys with their values.
-/

namespace LoadGen

/-- A finite map from `κ` to `α`. -/
structure Assoc (κ : Type) (α : Type) where
  entries : List (κ × α)
  /-- No key stands twice. -/
  distinct : (entries.map Prod.fst).Nodup
  deriving Repr, DecidableEq

namespace Assoc

variable {κ : Type} {α : Type} [DecidableEq κ]

/-! ## Lists of entries -/

/-- The value of the first entry with key `k`. -/
def find? (k : κ) : List (κ × α) → Option α
  | [] => none
  | (k', a) :: rest => if k' = k then some a else find? k rest

/-- Replaces the value of `k`, or adds an entry at the end. -/
def revise (k : κ) (f : Option α → α) : List (κ × α) → List (κ × α)
  | [] => [(k, f none)]
  | (k', a) :: rest => if k' = k then (k', f (some a)) :: rest else (k', a) :: revise k f rest

theorem find?_revise (k k' : κ) (f : Option α → α) (entries : List (κ × α)) :
    find? k' (revise k f entries) =
      if k' = k then some (f (find? k entries)) else find? k' entries := by
  induction entries with
  | nil =>
    by_cases h : k' = k
    · simp [revise, find?, h]
    · simp [revise, find?, h, Ne.symm h]
  | cons e rest ih =>
    obtain ⟨k₀, a⟩ := e
    by_cases h₀ : k₀ = k
    · by_cases h : k' = k
      · simp [revise, find?, h₀, h]
      · simp [revise, find?, h₀, h, Ne.symm h]
    · by_cases h : k' = k
      · subst h
        simp [revise, find?, h₀, ih]
      · simp [revise, find?, h₀, h, ih]

theorem map_fst_revise (k : κ) (f : Option α → α) (entries : List (κ × α)) :
    (revise k f entries).map Prod.fst =
      if k ∈ entries.map Prod.fst then entries.map Prod.fst else entries.map Prod.fst ++ [k] := by
  induction entries with
  | nil => simp [revise]
  | cons e rest ih =>
    obtain ⟨k₀, a⟩ := e
    by_cases h₀ : k₀ = k
    · simp [revise, h₀]
    · have hne : ¬ k = k₀ := fun h => h₀ h.symm
      rw [revise, if_neg h₀, List.map_cons, ih]
      by_cases hmem : k ∈ rest.map Prod.fst
      · simp [hmem]
      · simp [hmem, hne]

theorem nodup_map_fst_revise (k : κ) (f : Option α → α) {entries : List (κ × α)}
    (h : (entries.map Prod.fst).Nodup) : ((revise k f entries).map Prod.fst).Nodup := by
  rw [map_fst_revise]
  split
  · exact h
  · rename_i hk
    exact List.nodup_append.2 ⟨h, by simp, by
      intro x hx y hy hxy
      simp only [List.mem_singleton] at hy
      exact hk (hy ▸ hxy ▸ hx)⟩

theorem find?_eq_some_iff {k : κ} {a : α} {entries : List (κ × α)}
    (h : (entries.map Prod.fst).Nodup) : find? k entries = some a ↔ (k, a) ∈ entries := by
  induction entries with
  | nil => simp [find?]
  | cons e rest ih =>
    obtain ⟨k₀, a₀⟩ := e
    obtain ⟨hnew, hrest⟩ := List.nodup_cons.1 h
    by_cases h₀ : k₀ = k
    · subst h₀
      have habsent : (k₀, a) ∉ rest := fun hmem => hnew (List.mem_map.2 ⟨_, hmem, rfl⟩)
      simp [find?, habsent, eq_comm]
    · simp [find?, h₀, Ne.symm h₀, ih hrest]

/-! ## Maps -/

def empty : Assoc κ α := ⟨[], .nil⟩

instance : Inhabited (Assoc κ α) := ⟨empty⟩

def get? (m : Assoc κ α) (k : κ) : Option α :=
  find? k m.entries

/-- Gives `k` the value that `f` makes of its present one. -/
def update (m : Assoc κ α) (k : κ) (f : Option α → α) : Assoc κ α :=
  ⟨revise k f m.entries, nodup_map_fst_revise k f m.distinct⟩

def insert (m : Assoc κ α) (k : κ) (a : α) : Assoc κ α :=
  m.update k fun _ => a

/-- The map that holds the given pairs, a later pair replacing an earlier one with the same key. -/
def ofList (pairs : List (κ × α)) : Assoc κ α :=
  pairs.foldl (fun m p => m.insert p.1 p.2) empty

/-- The keys in the order in which they were first given. -/
def keys (m : Assoc κ α) : List κ :=
  m.entries.map Prod.fst

def isEmpty (m : Assoc κ α) : Bool :=
  m.entries.isEmpty

def size (m : Assoc κ α) : Nat :=
  m.entries.length

def contains (m : Assoc κ α) (k : κ) : Bool :=
  (m.get? k).isSome

/-- The entries in the order of their keys, for an order given as a strict comparison. -/
def sorted (m : Assoc κ α) (lt : κ → κ → Bool) : List (κ × α) :=
  sortBy (fun x y => lt x.1 y.1) m.entries

@[simp] theorem get?_empty (k : κ) : (empty : Assoc κ α).get? k = none := rfl

theorem get?_update (m : Assoc κ α) (k k' : κ) (f : Option α → α) :
    (m.update k f).get? k' = if k' = k then some (f (m.get? k)) else m.get? k' :=
  find?_revise k k' f m.entries

theorem get?_insert (m : Assoc κ α) (k k' : κ) (a : α) :
    (m.insert k a).get? k' = if k' = k then some a else m.get? k' :=
  get?_update m k k' fun _ => a

theorem keys_update (m : Assoc κ α) (k : κ) (f : Option α → α) :
    (m.update k f).keys = if k ∈ m.keys then m.keys else m.keys ++ [k] :=
  map_fst_revise k f m.entries

theorem get?_eq_some_iff (m : Assoc κ α) (k : κ) (a : α) : m.get? k = some a ↔ (k, a) ∈ m.entries :=
  find?_eq_some_iff m.distinct

/-- A map in which something is found has entries. -/
theorem not_isEmpty_of_get? {m : Assoc κ α} {k : κ} {a : α} (h : m.get? k = some a) :
    ¬ m.isEmpty = true := by
  have hentry := (get?_eq_some_iff m k a).1 h
  intro hempty
  rw [List.isEmpty_iff.1 hempty] at hentry
  cases hentry

end Assoc
end LoadGen
