import Mathlib.Tactic.NormNum
import Tvc.Episode.Sensing
import Tvc.Simulator

/-!
# The limits of the actuator

The actuator cuts a command off at its limits. Whatever the doubles are, the commands of the policy pass it
unaltered if the limits compare as their decimals do: a command is a limit, a value between them, what was
commanded last, or neutral.
-/

namespace Tvc

variable {F : Type} [Arith F]

/-- The limits of the actuator compare as their decimals do. -/
structure OrderedLimits (F : Type) [Arith F] : Prop where
  top : Arith.lt (Actuator.deltaMax : F) Actuator.deltaMax = false
  bottom : Arith.lt (-Actuator.deltaMax : F) (-Actuator.deltaMax) = false
  across : Arith.lt (Actuator.deltaMax : F) (-Actuator.deltaMax) = false
  high : Arith.lt (Actuator.deltaMax : F) 0.0 = false
  low : Arith.lt (0.0 : F) (-Actuator.deltaMax) = false

/-- The limits over exact rationals. -/
theorem orderedLimits_rat : OrderedLimits ℚ := by
  have hlimit : (Actuator.deltaMax : ℚ) = 0.12 := rfl
  have hlt (x y : ℚ) : Arith.lt x y = decide (x < y) := rfl
  constructor
  all_goals
    rw [hlt, hlimit, decide_eq_false_iff_not]
    norm_num

section Doubles

attribute [local instance] ieee

/-- The limits over the doubles of IEEE 754. -/
theorem orderedLimits_ieee : OrderedLimits F64 := by
  constructor <;> decide +kernel

end Doubles

/-- The actuator leaves a value as it is. -/
def Actuator.Passes (x : F) : Prop := Arith.lt deltaMax x = false ∧ Arith.lt x (-deltaMax) = false

/-- A value that passes is applied unaltered. -/
theorem Actuator.step_of_passes {x : F} (h : Passes x) (act : ActuatorState F) : step act (some x) = ⟨x⟩ := by
  unfold step
  dsimp only
  rw [h.1, if_neg Bool.false_ne_true, h.2, if_neg Bool.false_ne_true]

namespace Actuator

variable (h : OrderedLimits F)

include h

/-- Neutral passes. -/
theorem passes_neutral : Passes (0.0 : F) := ⟨h.high, h.low⟩

/-- A value that was cut off at the limits passes. -/
theorem passes_cut (u : F) :
    Passes (if Arith.lt deltaMax u then deltaMax else if Arith.lt u (-deltaMax) then -deltaMax else u) := by
  split_ifs with hhigh hlow
  · exact ⟨h.top, h.across⟩
  · exact ⟨h.across, h.bottom⟩
  · exact ⟨Bool.eq_false_of_not_eq_true hhigh, Bool.eq_false_of_not_eq_true hlow⟩

/-- The output of the controller passes. -/
theorem passes_step (pid : ControlState F) (o : Observation F) :
    Passes (Control.step pid o).1 ∧ (Control.step pid o).2.lastDelta = (Control.step pid o).1 :=
  ⟨passes_cut h _, rfl⟩

end Actuator

namespace Episode

open Actuator (Passes passes_neutral passes_step)

variable {s : EpisodeState F} {i : EpisodeInput F}

/-- What a driven cycle commands passes, and so does what it leaves for coasting. -/
theorem drive_passes (h : OrderedLimits F) (hlast : Passes s.pid.lastDelta) :
    Passes (drive s i).2 ∧ Passes (drive s i).1.pid.lastDelta := by
  unfold drive
  split
  · exact ⟨passes_neutral h, hlast⟩
  · dsimp only
    have hcommanded := command_commanded s.pid (autoMode s.autoArm i.fresh s.mode) i
    generalize command s.pid (autoMode s.autoArm i.fresh s.mode) i = x at hcommanded
    cases hcommanded with
    | controlled =>
      obtain ⟨hpasses, hsame⟩ := passes_step h s.pid _
      exact ⟨hpasses, hsame ▸ hpasses⟩
    | coasting => exact ⟨hlast, hlast⟩
    | neutral => exact ⟨passes_neutral h, hlast⟩

/-- What a cycle commands passes, and so does what it leaves for coasting. -/
theorem step_passes (h : OrderedLimits F) (hlast : Passes s.pid.lastDelta) (i : EpisodeInput F) :
    Passes (step s i).requestedDelta ∧ Passes (step s i).state.pid.lastDelta := by
  have houtcome := step_outcome s i
  generalize step s i = r at houtcome
  cases houtcome with
  | ended => exact ⟨passes_neutral h, hlast⟩
  | stopped => exact ⟨passes_neutral h, hlast⟩
  | ran _ _ hhandled => exact drive_passes h (by rw [hhandled.pid_eq]; exact hlast)

/-- Nothing is left for coasting at the start but neutral. -/
theorem initial_passes (h : OrderedLimits F) (autoArm : Bool) :
    Passes (initial autoArm : EpisodeState F).pid.lastDelta := passes_neutral h

/-- Every command of a run passes, whatever its inputs are. -/
theorem commands_pass (h : OrderedLimits F) (autoArm : Bool) (history : List (EpisodeInput F)) :
    (∀ x ∈ commands autoArm history, Passes x) ∧ Passes (stateAfter autoArm history).pid.lastDelta := by
  induction history using List.reverseRecOn with
  | nil => exact ⟨nofun, initial_passes h autoArm⟩
  | append_singleton history i ih =>
    obtain ⟨hcommand, hlast⟩ := step_passes h ih.2 i
    rw [commands_concat, stateAfter_concat]
    refine ⟨fun x hx => ?_, hlast⟩
    rcases List.mem_append.mp hx with hx | hx
    · exact ih.1 x hx
    · obtain rfl := List.mem_singleton.mp hx
      exact hcommand

end Episode

end Tvc
