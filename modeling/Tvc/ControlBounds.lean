import Mathlib.Tactic.NormNum
import Tvc.Control
import Tvc.Lib.Saturation

/-!
# The bounds of the PID arithmetic

Over exact rationals a step of the controller saturates its output and its integrator at one limit and smooths the
rate. The integrator waits while the output is saturated in the direction of the error.
-/

namespace Tvc.Control

open Saturation (saturate smooth smoothed peak)

variable {F : Type} [Arith F]

/-- The controller after a sequence of observations. -/
def after (observations : List (Observation F)) : ControlState F :=
  observations.foldl (fun state o => (step state o).2) initial

/-- The controller after one more observation. -/
theorem after_concat (observations : List (Observation F)) (o : Observation F) :
    after (observations ++ [o]) = (step (after observations) o).2 := by
  rw [after, List.foldl_append]
  rfl

/-! ## One step over the rationals -/

/-- The integrator moved by an error and cut off at the limit. -/
def integrated (state : ControlState ℚ) (o : Observation ℚ) : ℚ :=
  saturate 0.12 (state.iState + 7.68 * (1 / 500) * o.theta)

/-- The output before it is cut off. -/
def unsaturated (state : ControlState ℚ) (o : Observation ℚ) : ℚ :=
  3.277 * o.theta + integrated state o + 0.309 * smooth (1 / 3) state.dPrev o.omega

/-- The output is beyond the limit in the direction of the error. -/
def Winding (state : ControlState ℚ) (o : Observation ℚ) : Prop :=
  0.12 < unsaturated state o ∧ 0 < o.theta ∨ unsaturated state o < -0.12 ∧ o.theta < 0

instance (state : ControlState ℚ) (o : Observation ℚ) : Decidable (Winding state o) :=
  inferInstanceAs (Decidable (_ ∨ _))

/-- The constants over the rationals. -/
theorem constants_rat :
    (thetaSp : ℚ) = 0 ∧ (kiDt : ℚ) = 7.68 * (1 / 500) ∧ (betaD : ℚ) = 1 / 3 ∧ (negDeltaMax : ℚ) = -0.12 ∧
      (negIMax : ℚ) = -0.12 := by
  refine ⟨?_, ?_, ?_, rfl, rfl⟩
  · change (0.0 : ℚ) = 0
    norm_num
  · change (7.68 : ℚ) * (1.0 / 500.0) = 7.68 * (1 / 500)
    norm_num
  · change (1.0 : ℚ) / 3.0 = 1 / 3
    norm_num

/-- A step over the rationals saturates and smooths. -/
theorem step_rat (state : ControlState ℚ) (o : Observation ℚ) :
    step state o =
      (saturate 0.12 (unsaturated state o),
        { iState := if Winding state o then state.iState else integrated state o
          dPrev := smooth (1 / 3) state.dPrev o.omega
          lastDelta := saturate 0.12 (unsaturated state o) }) := by
  obtain ⟨hsp, hki, hbeta, hneg, hnegI⟩ := constants_rat
  have herror : o.theta - thetaSp = o.theta := by rw [hsp, sub_zero]
  have hlt (x y : ℚ) : Arith.lt x y = decide (x < y) := rfl
  have hzero : (0.0 : ℚ) = 0 := by norm_num
  have hintegrated : (if (if (iMax : ℚ) < state.iState + kiDt * o.theta then iMax else state.iState + kiDt * o.theta) < negIMax
      then negIMax
      else if (iMax : ℚ) < state.iState + kiDt * o.theta then iMax else state.iState + kiDt * o.theta) =
      integrated state o := by
    rw [hki, hnegI]
    exact (Saturation.saturate_eq_cuts _ _).symm
  have hoff : kp * o.theta + integrated state o + kd * (state.dPrev + betaD * (o.omega - state.dPrev)) =
      unsaturated state o := by
    rw [hbeta]
    rfl
  have hcut : (if (deltaMax : ℚ) < unsaturated state o then deltaMax
      else if unsaturated state o < negDeltaMax then negDeltaMax else unsaturated state o) =
      saturate 0.12 (unsaturated state o) := by
    rw [hneg]
    exact (Saturation.saturate_eq_ite (by norm_num : (0 : ℚ) ≤ 0.12) _).symm
  have hhold : (decide ((deltaMax : ℚ) < unsaturated state o) && decide (0.0 < o.theta) ||
      decide (unsaturated state o < negDeltaMax) && decide (o.theta < 0.0)) = true ↔ Winding state o := by
    rw [hneg, hzero, Bool.or_eq_true, Bool.and_eq_true, Bool.and_eq_true]
    simp only [decide_eq_true_eq]
    rfl
  unfold step
  dsimp only
  simp only [herror, hlt, decide_eq_true_eq, hintegrated, hoff, hcut]
  rw [if_congr hhold rfl rfl, hbeta]
  rfl

/-! ## Over a whole history -/

/-- The rate that the controller keeps is the smoothed one. -/
theorem after_dPrev (observations : List (Observation ℚ)) :
    (after observations).dPrev = smoothed (1 / 3) (observations.map Observation.omega) := by
  induction observations using List.reverseRecOn with
  | nil =>
    change (0.0 : ℚ) = 0
    norm_num
  | append_singleton observations o ih =>
    rw [after_concat, step_rat, ih, List.map_append, smoothed, smoothed, List.foldl_append]
    rfl

/-- The integrator stays within the limit. -/
theorem after_iState (observations : List (Observation ℚ)) : |(after observations).iState| ≤ 0.12 := by
  induction observations using List.reverseRecOn with
  | nil =>
    change |(0.0 : ℚ)| ≤ 0.12
    norm_num
  | append_singleton observations o ih =>
    rw [after_concat, step_rat]
    dsimp only
    split
    · exact ih
    · exact Saturation.abs_saturate_le (by norm_num) _

end Tvc.Control
