import LoadGen.Data.Assoc

/-!
# Tallies

A tally counts how often each text was seen.

* `bump` — counts a text once more.
* `ranked` — the order in which reports list a tally.
-/

namespace LoadGen

/-- How often each text was seen. -/
abbrev Tally := Assoc String Nat

namespace Tally

def bump (t : Tally) (label : String) : Tally :=
  t.update label fun n => n.getD 0 + 1

/-- The labels with their counts, in the order of their characters. -/
def byLabel (t : Tally) : List (String × Nat) :=
  t.sorted fun x y => decide (x < y)

/-- The labels with their counts, the most frequent first and equally frequent ones in the order
of their characters. -/
def ranked (t : Tally) : List (String × Nat) :=
  sortBy (fun x y => decide (y.2 < x.2)) t.byLabel

end Tally
end LoadGen
