import Mathlib.Data.List.Induction
import Tvc.Episode.Steps

/-!
# What holds of the episode machine in every reachable state

The end of the run, the pending command and the mode constrain each other, and every branch of a
cycle restores what it disturbs. None of it depends on what the inputs hold.
-/

namespace Tvc.Episode

variable {F : Type} [Arith F]

/-- The state a history leads to. -/
def stateAfter (autoArm : Bool) (history : List (EpisodeInput F)) : EpisodeState F :=
  (Machine.run advance (initial autoArm) history).1

/-- One more cycle. -/
theorem stateAfter_concat (autoArm : Bool) (history : List (EpisodeInput F)) (i : EpisodeInput F) :
    stateAfter autoArm (history ++ [i]) = (step (stateAfter autoArm history) i).state := by
  rw [stateAfter, Machine.run_append]
  rfl

/-! ## The invariant -/

/-- What a state keeps, after the cycle of the tick in question if there was one. -/
structure Sound (last : Option ℕ) (s : EpisodeState F) : Prop where
  terminal : s.mode = .terminated ↔ s.terminal.isSome = true
  cleared : s.mode = .terminated → s.pending = none
  pending : ∀ c ∈ s.pending, s.lastAccepted = some c ∧ ∀ t ∈ last, t < c.effectiveTick
  settled : s.settleCount ≤ 1000

variable {s : EpisodeState F} {i : EpisodeInput F} {r : EpisodeOutput F} {last : Option ℕ}

omit [Arith F] in
/-- Running a command keeps mode and end of the run together, when none is left pending. -/
theorem Applied.sound {c : Command} {tick : ℕ} {x : EpisodeState F × Ack} (h : Applied s c tick x)
    (hpending : s.pending = none) (hterminal : s.terminal = none) (hlive : s.mode ≠ .terminated) :
    x.1.pending = none ∧ (x.1.mode = .terminated ↔ x.1.terminal.isSome = true) := by
  cases h with
  | moved _ hopen _ => exact ⟨hpending, by simp [hopen, hterminal]⟩
  | aborted => exact ⟨hpending, by simp⟩
  | refused => exact ⟨hpending, by simp [hlive, hterminal]⟩

omit [Arith F] in
/-- The commands of a cycle keep mode, end of the run and pending command together. -/
theorem Handled.sound {tick : ℕ} {command : Option Command} {x : EpisodeState F × Option Ack × Option Ack}
    (h : Handled s tick command x) (hterminal : s.terminal = none) (hlive : s.mode ≠ .terminated)
    (hpending : ∀ c ∈ s.pending, s.lastAccepted = some c) :
    (x.1.mode = .terminated ↔ x.1.terminal.isSome = true) ∧ (x.1.mode = .terminated → x.1.pending = none) ∧
      ∀ c ∈ x.1.pending, x.1.lastAccepted = some c ∧ tick < c.effectiveTick := by
  cases h with
  | kept _ hwait =>
    exact ⟨by simp [hlive, hterminal], fun h => absurd h hlive, fun c hc => ⟨hpending c hc, hwait c hc⟩⟩
  | due _ _ _ happlied =>
    obtain ⟨hnone, hend⟩ := happlied.sound rfl hterminal hlive
    exact ⟨hend, fun _ => hnone, by simp [hnone]⟩
  | queued _ hlater =>
    refine ⟨by simp [hlive, hterminal], fun h => absurd h hlive, fun c hc => ?_⟩
    obtain rfl := Option.some.inj hc
    exact ⟨rfl, hlater⟩
  | ran _ _ happlied =>
    obtain ⟨hnone, hend⟩ := happlied.sound rfl hterminal hlive
    exact ⟨hend, fun _ => hnone, by simp [hnone]⟩

/-- Driving keeps mode and end of the run together. -/
theorem drive_sound (h : s.mode = .terminated ↔ s.terminal.isSome = true) (i : EpisodeInput F) :
    (drive s i).1.mode = .terminated ↔ (drive s i).1.terminal.isSome = true := by
  rw [drive_terminal, ← h]
  unfold drive
  split
  · rfl
  · rename_i hopen
    have hlive : s.mode ≠ .terminated := fun hmode => hopen (h.mp hmode)
    simp [hlive, (autoMode_le s.autoArm i.fresh s.mode).2 hlive]

/-- A cycle keeps the invariant. -/
theorem Sound.step_sound (h : Sound last s) (i : EpisodeInput F) : Sound (some i.tick) (step s i).state := by
  have hsettled := step_settleCount_le h.settled i
  have houtcome := step_outcome s i
  generalize step s i = r at houtcome hsettled
  cases houtcome with
  | ended hmode => exact ⟨h.terminal, h.cleared, by simp [h.cleared hmode], hsettled⟩
  | stopped => exact ⟨by simp [terminate], fun _ => rfl, by simp [terminate], hsettled⟩
  | ran hlive _ hhandled =>
    obtain ⟨hend, hcleared, hpending⟩ := hhandled.sound rfl hlive fun c hc => (h.pending c hc).1
    have hmode := drive_sound hend i
    refine ⟨hmode, fun hterminated => ?_, fun c hc => ?_, hsettled⟩
    · rw [drive_pending]
      exact hcleared (hend.mpr (by simpa using hmode.mp hterminated))
    · rw [drive_pending] at hc
      rw [drive_lastAccepted]
      refine ⟨(hpending c hc).1, fun t ht => ?_⟩
      obtain rfl := Option.some.inj ht
      exact (hpending c hc).2

/-- The invariant holds of every reachable state. -/
theorem sound_run (autoArm : Bool) (history : List (EpisodeInput F)) :
    Sound (history.getLast?.map EpisodeInput.tick) (stateAfter autoArm history) := by
  induction history using List.reverseRecOn with
  | nil => exact ⟨by simp [stateAfter, initial], fun _ => rfl, nofun, Nat.zero_le _⟩
  | append_singleton history i ih =>
    rw [stateAfter_concat, List.getLast?_concat]
    exact ih.step_sound i

/-! ## The mode only advances -/

omit [Arith F] in
/-- Running a command never moves the mode back. -/
theorem Applied.mode_le {c : Command} {tick : ℕ} {x : EpisodeState F × Ack} (h : Applied s c tick x) :
    s.mode.toNat ≤ x.1.mode.toNat := by
  cases h with
  | moved _ _ hlater => exact hlater.le
  | aborted _ hlive => cases hmode : s.mode <;> simp [Mode.toNat]
  | refused => exact le_rfl

omit [Arith F] in
/-- The commands of a cycle never move the mode back. -/
theorem Handled.mode_le {tick : ℕ} {command : Option Command} {x : EpisodeState F × Option Ack × Option Ack}
    (h : Handled s tick command x) : s.mode.toNat ≤ x.1.mode.toNat := by
  cases h with
  | kept => exact le_rfl
  | due _ _ _ happlied => exact happlied.mode_le
  | queued => exact le_rfl
  | ran _ _ happlied => exact happlied.mode_le

/-- A cycle never moves the mode back. -/
theorem Outcome.mode_le (h : Outcome s i r) : s.mode.toNat ≤ r.state.mode.toNat := by
  cases h with
  | ended => exact le_rfl
  | stopped => cases hmode : s.mode <;> simp [terminate, Mode.toNat]
  | ran _ _ hhandled => exact hhandled.mode_le.trans (drive_mode_le _ i)

/-- A run never moves the mode back. -/
theorem mode_le_run (s : EpisodeState F) (inputs : List (EpisodeInput F)) :
    s.mode.toNat ≤ (Machine.run advance s inputs).1.mode.toNat := by
  induction inputs generalizing s with
  | nil => exact le_rfl
  | cons i rest ih => exact (step_outcome s i).mode_le.trans (ih (step s i).state)

/-- Nothing happens once the run has ended. -/
theorem run_of_terminated (h : s.mode = .terminated) (inputs : List (EpisodeInput F)) :
    Machine.run advance s inputs = (s, List.replicate inputs.length ⟨s, 0.0, []⟩) := by
  induction inputs with
  | nil => rfl
  | cons i rest ih =>
    have hstep : advance s i = (s, ⟨s, 0.0, []⟩) := by rw [advance, step_of_terminated h]
    rw [Machine.run_cons, hstep, ih]
    rfl

/-! ## The controller and the end of the run -/

omit [Arith F] in
/-- The commands of a cycle leave the controller. -/
theorem Handled.pid_eq {tick : ℕ} {command : Option Command} {x : EpisodeState F × Option Ack × Option Ack}
    (h : Handled s tick command x) : x.1.pid = s.pid := by
  cases h with
  | kept => rfl
  | due _ _ _ happlied => exact happlied.frame.2.2.1
  | queued => rfl
  | ran _ _ happlied => exact happlied.frame.2.2.1

/-- The controller moves only in a cycle with a fresh sample that ends in flight. -/
theorem Outcome.pid_moved (h : Outcome s i r) (hmoved : r.state.pid ≠ s.pid) :
    i.fresh = true ∧ r.state.mode = .flying := by
  cases h with
  | ended => exact absurd rfl hmoved
  | stopped => exact absurd rfl hmoved
  | ran _ _ hhandled => exact drive_pid _ i (fun heq => hmoved (heq.trans hhandled.pid_eq))

omit [Arith F] in
/-- Running a command ends the run at its tick, by an abort, or not at all. -/
theorem Applied.terminal {c : Command} {tick : ℕ} {x : EpisodeState F × Ack} (h : Applied s c tick x)
    (hterminal : s.terminal = none) :
    x.1.terminal = none ∨ x.1.terminal = some ⟨.groundAbort, tick⟩ ∧ isOpcode c .abort = true := by
  cases h with
  | moved => exact .inl hterminal
  | aborted _ _ habort => exact .inr ⟨rfl, habort⟩
  | refused => exact .inl hterminal

omit [Arith F] in
/-- The commands of a cycle end the run by an abort that is due, or not at all. -/
theorem Handled.terminal {tick : ℕ} {command : Option Command} {x : EpisodeState F × Option Ack × Option Ack}
    (h : Handled s tick command x) (hterminal : s.terminal = none) :
    x.1.terminal = none ∨ x.1.terminal = some ⟨.groundAbort, tick⟩ ∧
      ∃ c, (command = some c ∨ s.pending = some c) ∧ isOpcode c .abort = true ∧ c.effectiveTick ≤ tick := by
  cases h with
  | kept => exact .inl hterminal
  | due _ hpending hdue happlied =>
    exact (happlied.terminal hterminal).imp_right fun h => ⟨h.1, _, .inr hpending, h.2, hdue⟩
  | queued => exact .inl hterminal
  | ran _ hnow happlied =>
    exact (happlied.terminal hterminal).imp_right fun h => ⟨h.1, _, .inl rfl, h.2, hnow⟩

/-- The end of the run is recorded at the tick of the cycle that ends it. -/
theorem Outcome.terminal_tick (h : Outcome s i r) (hlive : s.mode ≠ .terminated) :
    ∀ t ∈ r.state.terminal, t.tick = i.tick := by
  cases h with
  | ended hmode => exact absurd hmode hlive
  | stopped => simp [terminate]
  | ran _ _ hhandled =>
    rw [drive_terminal]
    rcases hhandled.terminal rfl with h | ⟨h, -⟩ <;> simp [h]

/-- The recorded end of the run is that of the cycle that ended it. -/
theorem terminal_run (autoArm : Bool) (history : List (EpisodeInput F)) :
    ∀ t ∈ (stateAfter autoArm history).terminal, ∃ before i after, history = before ++ i :: after ∧
      (stateAfter autoArm before).mode ≠ .terminated ∧
      (stateAfter autoArm (before ++ [i])).mode = .terminated ∧ t.tick = i.tick := by
  induction history using List.reverseRecOn with
  | nil => nofun
  | append_singleton history i ih =>
    intro t ht
    by_cases hmode : (stateAfter autoArm history).mode = .terminated
    · rw [stateAfter_concat, step_of_terminated hmode] at ht
      obtain ⟨before, j, after, rfl, hend⟩ := ih t ht
      exact ⟨before, j, after ++ [i], by simp, hend⟩
    · have hended : (stateAfter autoArm (history ++ [i])).mode = .terminated :=
        (sound_run autoArm _).terminal.mpr (Option.isSome_of_mem ht)
      rw [stateAfter_concat] at ht
      exact ⟨history, i, [], rfl, hmode, hended, (step_outcome _ i).terminal_tick hmode t ht⟩

/-- A run that has ended has a reason. -/
theorem reason_run (autoArm : Bool) (history : List (EpisodeInput F)) :
    ∀ t ∈ (stateAfter autoArm history).terminal, t.reason ≠ .none := by
  induction history using List.reverseRecOn with
  | nil => nofun
  | append_singleton history i ih =>
    rw [stateAfter_concat]
    have houtcome := step_outcome (stateAfter autoArm history) i
    generalize step (stateAfter autoArm history) i = r at houtcome
    cases houtcome with
    | ended => exact ih
    | stopped _ hreason =>
      intro t ht
      obtain rfl := Option.some.inj ht
      exact hreason
    | ran _ _ hhandled =>
      rw [drive_terminal]
      rcases hhandled.terminal rfl with h | ⟨h, -⟩ <;> simp [h]

/-- The state of the episode machine after every history, and how it goes on from there. -/
theorem episode_invariant (autoArm : Bool) (history : List (EpisodeInput F)) :
    let s := stateAfter autoArm history
    (s.mode = .terminated ↔ s.terminal.isSome = true) ∧ (s.mode = .terminated → s.pending = none) ∧
      (∀ c ∈ s.pending, s.lastAccepted = some c ∧ ∀ i ∈ history.getLast?, i.tick < c.effectiveTick) ∧
      s.settleCount ≤ 1000 ∧
      (∀ t ∈ s.terminal, ∃ before i after, history = before ++ i :: after ∧
        (stateAfter autoArm before).mode ≠ .terminated ∧
        (stateAfter autoArm (before ++ [i])).mode = .terminated ∧ t.tick = i.tick) ∧
      (∀ rest, s.mode.toNat ≤ (Machine.run advance s rest).1.mode.toNat) ∧
      (s.mode = .terminated → ∀ rest, Machine.run advance s rest =
        (s, List.replicate rest.length ⟨s, 0.0, []⟩)) ∧
      ∀ i, (step s i).state.pid ≠ s.pid → i.fresh = true ∧ (step s i).state.mode = .flying := by
  intro s
  have hsound := sound_run autoArm history
  refine ⟨hsound.terminal, hsound.cleared, fun c hc => ?_, hsound.settled, terminal_run autoArm history,
    mode_le_run s, fun hmode => run_of_terminated hmode, fun i => (step_outcome s i).pid_moved⟩
  obtain ⟨hlast, htick⟩ := hsound.pending c hc
  exact ⟨hlast, fun i hi => htick i.tick (Option.mem_map_of_mem _ hi)⟩

end Tvc.Episode
