import Tvc.Episode.Invariant

/-!
# The calls of the controller

The policy calls `control::step` in one place. The same policy with a log of the samples it calls
the controller on makes at most one call a cycle, and it makes it exactly in the cycles that take a
fresh sample and end in flight.
-/

namespace Tvc.Episode

variable {F : Type} [Arith F]

/-- `command`, with the samples the controller is called on. -/
def commandLogged (pid : ControlState F) (mode : Mode) (inputs : EpisodeInput F) :
    (F × ControlState F) × List (Observation F) :=
  if mode == .flying then
    if inputs.fresh then
      match inputs.held with
      | some held => (Control.step pid held, [held])
      | none => ((0.0, pid), [])
    else if inputs.staleness ≤ 8 then ((pid.lastDelta, pid), [])
    else ((0.0, pid), [])
  else ((0.0, pid), [])

/-- `drive`, with the samples the controller is called on. -/
def driveLogged (next : EpisodeState F) (inputs : EpisodeInput F) :
    (EpisodeState F × F) × List (Observation F) :=
  if next.terminal.isSome then ((next, 0.0), [])
  else
    let mode := autoMode next.autoArm inputs.fresh next.mode
    let commanded := commandLogged next.pid mode inputs
    (({ next with mode, pid := commanded.1.2 }, commanded.1.1), commanded.2)

/-- `live`, with the samples the controller is called on. -/
def liveLogged (next : EpisodeState F) (inputs : EpisodeInput F) : EpisodeOutput F × List (Observation F) :=
  let arrived := arrive { next with terminal := none } inputs.tick inputs.command
  let due := runDue arrived.1 inputs.tick arrived.2.2
  let driven := driveLogged due.1 inputs
  (⟨driven.1.1, driven.1.2, batch arrived.2.1 due.2⟩, driven.2)

/-- `step`, with the samples the controller is called on. -/
def stepLogged (state : EpisodeState F) (inputs : EpisodeInput F) : EpisodeOutput F × List (Observation F) :=
  if state.mode == .terminated then (⟨state, 0.0, []⟩, [])
  else
    let next := { state with settleCount := countSettled state.settleCount inputs.held }
    let reason := terminalReason next.settleCount inputs
    if reason != .none then (terminate next inputs reason, []) else liveLogged next inputs

/-- The log does not touch the command. -/
theorem commandLogged_fst (pid : ControlState F) (mode : Mode) (i : EpisodeInput F) :
    (commandLogged pid mode i).1 = command pid mode i := by
  unfold commandLogged command
  cases mode == .flying with
  | false => rfl
  | true =>
    cases i.fresh with
    | true => cases i.held <;> rfl
    | false =>
      simp only [if_true, Bool.false_eq_true, if_false]
      split <;> rfl

/-- The log does not touch the driving. -/
theorem driveLogged_fst (s : EpisodeState F) (i : EpisodeInput F) : (driveLogged s i).1 = drive s i := by
  unfold driveLogged drive
  split
  · rfl
  · dsimp only
    rw [commandLogged_fst]

/-- The log does not touch the cycle. -/
theorem stepLogged_fst (s : EpisodeState F) (i : EpisodeInput F) : (stepLogged s i).1 = step s i := by
  unfold stepLogged step
  split
  · rfl
  · dsimp only
    split
    · rfl
    · simp only [liveLogged, live, driveLogged_fst]

/-- The controller is called once, on the held sample, for a fresh sample in flight. -/
theorem commandLogged_calls (pid : ControlState F) (mode : Mode) {i : EpisodeInput F}
    (hheld : i.fresh = true → i.held.isSome = true) :
    (commandLogged pid mode i).2 = if i.fresh && mode == .flying then i.held.toList else [] := by
  unfold commandLogged
  cases hmode : mode == .flying <;> cases hfresh : i.fresh
  · rfl
  · rfl
  · simp only [if_true, Bool.false_eq_true, if_false, Bool.false_and]
    split <;> rfl
  · obtain ⟨o, ho⟩ := Option.isSome_iff_exists.mp (hheld hfresh)
    simp [ho]

/-- Driving calls the controller for a fresh sample that ends in flight. -/
theorem driveLogged_calls {s : EpisodeState F} {i : EpisodeInput F}
    (hheld : i.fresh = true → i.held.isSome = true) (hended : s.terminal.isSome = true → s.mode = .terminated) :
    (driveLogged s i).2 = if i.fresh && (drive s i).1.mode == .flying then i.held.toList else [] := by
  unfold driveLogged drive
  split
  · rename_i hterminal
    simp [hended hterminal]
  · exact commandLogged_calls s.pid _ hheld

/-- A cycle calls the controller once if it takes a fresh sample and ends in flight, and else not. -/
theorem stepLogged_calls {last : Option ℕ} {s : EpisodeState F} (h : Sound last s) {i : EpisodeInput F}
    (hheld : i.fresh = true → i.held.isSome = true) :
    (stepLogged s i).2 = if i.fresh && (step s i).state.mode == .flying then i.held.toList else [] := by
  unfold stepLogged step
  split
  · rename_i hmode
    simp [beq_iff_eq.mp hmode]
  · rename_i hlive
    dsimp only
    split
    · simp [terminate]
    · -- The commands of the cycle keep mode and end of the run together.
      have hhandled := handle_handled { counted s i with terminal := none } i.tick i.command
      have hmode : s.mode ≠ .terminated := by simpa using hlive
      exact driveLogged_calls hheld (hhandled.sound rfl hmode fun c hc => (h.pending c hc).1).1.mpr

end Tvc.Episode
