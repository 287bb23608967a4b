/-!
# Percentiles

The percentile of a sorted list is one of its members, found by rank and without interpolation.

* `nearestRank?` — the member at `floor (n * p / 100)` for a whole percentage, in exact arithmetic.
* `nearestRankOf?` — the same with a fractional percentage, computed in doubles.
-/

namespace LoadGen
namespace Percentile

/-- The percentages that summaries report. -/
def reported : List Nat := [50, 90, 95, 99]

/-- The place of a percentile among `count` sorted values. -/
def rank (count percentage : Nat) : Nat :=
  min (count * percentage / 100) (count - 1)

/-- The percentile of a sorted list for a whole percentage. -/
def nearestRank? {α : Type} (values : List α) (percentage : Nat) : Option α :=
  values[rank values.length percentage]?

/-- The place of a percentile for any percentage: negative numbers and NaN give the first place, and
large ones the last. -/
def rankOf (count : Nat) (percentage : Float) : Nat :=
  min (Float.ofNat count * percentage / 100.0).floor.toUInt64.toNat (count - 1)

/-- The percentile of a sorted list for any percentage. -/
def nearestRankOf? {α : Type} (values : List α) (percentage : Float) : Option α :=
  values[rankOf values.length percentage]?

theorem rank_lt {count : Nat} (percentage : Nat) (hcount : 0 < count) :
    rank count percentage < count := by
  unfold rank
  omega

/-- Below one hundred percent the rank stays inside the list by itself. -/
theorem rank_eq_of_lt {count percentage : Nat} (hcount : 0 < count) (hpct : percentage < 100) :
    rank count percentage = count * percentage / 100 := by
  have hmul : count * percentage ≤ count * 99 := Nat.mul_le_mul_left _ (by omega)
  unfold rank
  omega

theorem rank_mono (count : Nat) {p q : Nat} (h : p ≤ q) : rank count p ≤ rank count q := by
  have hdiv : count * p / 100 ≤ count * q / 100 := Nat.div_le_div_right (Nat.mul_le_mul_left _ h)
  unfold rank
  omega

end Percentile
end LoadGen
