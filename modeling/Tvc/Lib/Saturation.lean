import Mathlib.Algebra.Order.Field.Basic
import Mathlib.Algebra.Order.Group.MinMax
import Mathlib.Data.List.Induction
import Mathlib.Tactic.Ring

/-!
# Saturation and smoothing

A value is saturated by cutting it off at a limit in both directions, and smoothed by moving it a fixed part of the
way to the next input. Saturated values stay within the limit, and smoothed ones within the largest input.
-/

namespace Saturation

variable {K : Type*} [Field K] [LinearOrder K]

/-- The value cut off at the limit in both directions. -/
def saturate (limit x : K) : K := max (-limit) (min limit x)

/-- One cut after the other. -/
theorem saturate_eq_cuts (limit x : K) :
    saturate limit x =
      if (if limit < x then limit else x) < -limit then -limit else if limit < x then limit else x := by
  have hmin : min limit x = if limit < x then limit else x := by
    split_ifs with h
    · exact min_eq_left h.le
    · exact min_eq_right (not_lt.mp h)
  rw [← hmin, saturate]
  split_ifs with h
  · exact max_eq_left h.le
  · exact max_eq_right (not_lt.mp h)

variable [IsStrictOrderedRing K]

/-- A saturated value is within the limit. -/
theorem abs_saturate_le {limit : K} (h : 0 ≤ limit) (x : K) : |saturate limit x| ≤ limit :=
  abs_le.mpr ⟨le_max_left _ _, max_le (neg_le_self h) (min_le_left _ _)⟩

/-- A value within the limit is not changed. -/
theorem saturate_of_abs_le {limit x : K} (h : |x| ≤ limit) : saturate limit x = x := by
  obtain ⟨hlow, hhigh⟩ := abs_le.mp h
  rw [saturate, min_eq_right hhigh, max_eq_right hlow]

/-- At most one of the cuts. -/
theorem saturate_eq_ite {limit : K} (h : 0 ≤ limit) (x : K) :
    saturate limit x = if limit < x then limit else if x < -limit then -limit else x := by
  unfold saturate
  split_ifs with hhigh hlow
  · rw [min_eq_left hhigh.le, max_eq_right (neg_le_self h)]
  · rw [min_eq_right (hlow.le.trans (neg_le_self h)), max_eq_left hlow.le]
  · rw [min_eq_right (not_lt.mp hhigh), max_eq_right (not_lt.mp hlow)]

/-- The value moved a part of the way to the input. -/
def smooth (part x input : K) : K := x + part * (input - x)

/-- Smoothing stays between the value and the input. -/
theorem abs_smooth_le {part x input bound : K} (hpart : 0 ≤ part) (hone : part ≤ 1) (hx : |x| ≤ bound)
    (hinput : |input| ≤ bound) : |smooth part x input| ≤ bound := by
  have hmix : smooth part x input = (1 - part) * x + part * input := by
    unfold smooth
    ring
  have hrest : 0 ≤ 1 - part := sub_nonneg.mpr hone
  calc |smooth part x input| = |(1 - part) * x + part * input| := by rw [hmix]
    _ ≤ |(1 - part) * x| + |part * input| := abs_add_le _ _
    _ = (1 - part) * |x| + part * |input| := by rw [abs_mul, abs_mul, abs_of_nonneg hrest, abs_of_nonneg hpart]
    _ ≤ (1 - part) * bound + part * bound :=
      add_le_add (mul_le_mul_of_nonneg_left hx hrest) (mul_le_mul_of_nonneg_left hinput hpart)
    _ = bound := by ring

/-- The largest magnitude in a list, zero if it is empty. -/
def peak (inputs : List K) : K := inputs.foldl (fun m input => max m |input|) 0

omit [IsStrictOrderedRing K] in
/-- The peak of one more input. -/
theorem peak_concat (inputs : List K) (input : K) : peak (inputs ++ [input]) = max (peak inputs) |input| := by
  rw [peak, List.foldl_append]
  rfl

/-- Smoothing over a list, from zero. -/
def smoothed (part : K) (inputs : List K) : K := inputs.foldl (smooth part) 0

/-- A smoothed list stays within its peak. -/
theorem abs_smoothed_le {part : K} (hpart : 0 ≤ part) (hone : part ≤ 1) (inputs : List K) :
    |smoothed part inputs| ≤ peak inputs := by
  induction inputs using List.reverseRecOn with
  | nil => exact abs_zero.le
  | append_singleton inputs input ih =>
    rw [peak_concat, smoothed, List.foldl_append]
    exact abs_smooth_le hpart hone (ih.trans (le_max_left _ _)) (le_max_right _ _)

end Saturation
