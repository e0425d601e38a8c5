import Tvc.Lib.RunLength
import Tvc.Episode.Invariant

/-!
# What ends a run, and what stabilised means

The reasons that end a run are looked at in a fixed order, and only when none of them applies can
an abort end it. At the horizon the run has stabilised when each of the last thousand cycles had a
settled sample, held or fresh.
-/

namespace Tvc.Episode

open RunLength

variable {F : Type} [Arith F]

/-! ## Settled cycles -/

/-- The cycle has a held sample within both limits. -/
def isSettled (i : EpisodeInput F) : Bool :=
  i.held.any fun held => Arith.le (Arith.abs held.theta) 0.02 && Arith.le (Arith.abs held.omega) 0.02

/-- The settled count is the saturating counter of settled cycles. -/
theorem countSettled_eq {count : ℕ} (h : count ≤ 1000) (i : EpisodeInput F) :
    countSettled count i.held = RunLength.count 1000 count (isSettled i) := by
  unfold countSettled RunLength.count isSettled
  cases i.held with
  | none => rfl
  | some held =>
    dsimp only [Option.any_some]
    split
    · split <;> omega
    · rfl

omit [Arith F] in
/-- The commands of a cycle leave the settled count. -/
theorem Handled.settleCount {s : EpisodeState F} {tick : ℕ} {command : Option Command}
    {x : EpisodeState F × Option Ack × Option Ack} (h : Handled s tick command x) :
    x.1.settleCount = s.settleCount := by
  have happlied (s' : EpisodeState F) {c : Command} {y : EpisodeState F × Ack} (h : Applied s' c tick y) :
      y.1.settleCount = s'.settleCount := by
    cases h <;> rfl
  cases h with
  | kept => rfl
  | due _ _ _ h => exact (happlied _ h).trans rfl
  | queued => rfl
  | ran _ _ h => exact (happlied _ h).trans rfl

/-- A live cycle counts its sample. -/
theorem Outcome.settleCount {s : EpisodeState F} {i : EpisodeInput F} {r : EpisodeOutput F} (h : Outcome s i r)
    (hlive : s.mode ≠ .terminated) : r.state.settleCount = countSettled s.settleCount i.held := by
  cases h with
  | ended hmode => exact absurd hmode hlive
  | stopped => rfl
  | ran _ _ hhandled =>
    rw [drive_settleCount]
    exact hhandled.settleCount

/-- The settled count of a live machine is the number of settled cycles up to now, up to a thousand. -/
theorem settleCount_run (autoArm : Bool) (history : List (EpisodeInput F))
    (hlive : (stateAfter autoArm history).mode ≠ .terminated) :
    (stateAfter autoArm history).settleCount = min 1000 (runLength isSettled history) := by
  induction history using List.reverseRecOn with
  | nil => rfl
  | append_singleton history i ih =>
    rw [stateAfter_concat] at hlive ⊢
    have hbefore : (stateAfter autoArm history).mode ≠ .terminated := by
      intro hmode
      rw [step_of_terminated hmode] at hlive
      exact hlive hmode
    have hsettled := (sound_run autoArm history).settled
    rw [(step_outcome _ i).settleCount hbefore, countSettled_eq hsettled, ih hbefore, count_runLength]

/-! ## The reasons, in order -/

/-- The reasons that can end a run in a cycle, each with its condition, in the order in which they
are looked at. -/
def causes (i : EpisodeInput F) (stabilized : Bool) : List (Bool × Reason) :=
  [(i.simReason.any fun sim => sim != 1 && sim != 2 && sim != 3, .internal),
    (i.stopReason.isSome, i.stopReason.getD .none),
    (i.simReason == some 2 || i.simReason == some 3, .diverged),
    (freshDiverged i, .diverged),
    (21 ≤ i.staleness, .sensorLost),
    (i.horizonReached || i.simReason == some 1, if stabilized then .stabilized else .notSettled)]

/-- The first reason whose condition holds. -/
def firstCause (i : EpisodeInput F) (stabilized : Bool) : Option Reason :=
  ((causes i stabilized).find? Prod.fst).map Prod.snd

/-- The source's chain of tests finds the first cause. -/
theorem terminalReason_eq (count : ℕ) (i : EpisodeInput F) :
    terminalReason count i = (firstCause i (count == 1000)).getD .none := by
  unfold terminalReason firstCause causes
  cases hsim : i.simReason.any fun sim => sim != 1 && sim != 2 && sim != 3 with
  | true => simp
  | false =>
    cases hstop : i.stopReason with
    | some reason => simp
    | none =>
      simp only [Option.isSome_none, Bool.false_eq_true, if_false, List.find?_cons]
      split
      · simp [*]
      · split
        · simp [*]
        · split
          · simp [*]
          · split
            · simp [*]
            · simp [*]

/-- A stop reason of the header's contract. -/
def StopAllowed (i : EpisodeInput F) : Prop :=
  ∀ reason ∈ i.stopReason, reason = .peerLost ∨ reason = .signal ∨ reason = .internal

omit [Arith F] in
/-- A stop reason of the contract is a reason. -/
theorem StopAllowed.ne_none {i : EpisodeInput F} (h : StopAllowed i) : i.stopReason ≠ some .none := by
  intro hstop
  rcases h _ hstop with h | h | h <;> contradiction

/-- A cause is a reason. -/
theorem firstCause_ne_none {i : EpisodeInput F} (hstop : StopAllowed i) {stabilized : Bool} :
    firstCause i stabilized ≠ some .none := by
  intro hcause
  obtain ⟨⟨holds, reason⟩, hfind, hreason⟩ := Option.map_eq_some_iff.mp hcause
  obtain rfl : reason = .none := hreason
  have hholds : holds = true := by simpa using List.find?_some hfind
  have hmem := List.mem_of_find?_eq_some hfind
  subst hholds
  have hstop := hstop.ne_none
  cases hgiven : i.stopReason with
  | none => cases stabilized <;> simp [causes, hgiven] at hmem
  | some given =>
    have hne : given ≠ .none := fun heq => hstop (heq ▸ hgiven)
    cases stabilized <;> simp [causes, hgiven, Ne.symm hne] at hmem

/-- How a live cycle can end the run: by the first cause, or without one by an abort. -/
theorem Outcome.cause {s : EpisodeState F} {i : EpisodeInput F} {r : EpisodeOutput F} (h : Outcome s i r)
    (hlive : s.mode ≠ .terminated) (hstop : StopAllowed i) {stabilized : Bool}
    (hcount : (countSettled s.settleCount i.held == 1000) = stabilized) :
    (∀ reason, firstCause i stabilized = some reason → r.state.terminal = some ⟨reason, i.tick⟩) ∧
      (firstCause i stabilized = none →
        r.state.terminal = none ∨ r.state.terminal = some ⟨.groundAbort, i.tick⟩ ∧
          ∃ c, (i.command = some c ∨ s.pending = some c) ∧ isOpcode c .abort = true ∧
            c.effectiveTick ≤ i.tick) := by
  have hreason : endReason s i = (firstCause i stabilized).getD .none := by
    rw [endReason, terminalReason_eq, hcount]
  cases h with
  | ended hmode => exact absurd hmode hlive
  | stopped _ hends =>
    refine ⟨fun reason hcause => ?_, fun hcause => ?_⟩
    · rw [terminate, hreason, hcause]
      rfl
    · rw [hreason, hcause] at hends
      exact absurd rfl hends
  | ran _ hgoes hhandled =>
    refine ⟨fun reason hcause => ?_, fun _ => ?_⟩
    · rw [hreason, hcause] at hgoes
      exact absurd (hcause.trans (congrArg some hgoes)) (firstCause_ne_none hstop)
    · rw [drive_terminal]
      exact hhandled.terminal rfl

/-! ## At the horizon -/

/-- The horizon is reached and no reason that comes before it holds. -/
def AtHorizon (i : EpisodeInput F) : Prop :=
  (i.horizonReached = true ∨ i.simReason = some 1) ∧ (i.simReason = none ∨ i.simReason = some 1) ∧
    i.stopReason = none ∧ freshDiverged i = false ∧ i.staleness < 21

omit [Arith F] in
/-- A simulator reason that neither is unknown nor loses control is the horizon. -/
theorem simReason_iff (i : EpisodeInput F) :
    (i.simReason = none ∨ i.simReason = some 1) ↔
      (i.simReason.any fun sim => sim != 1 && sim != 2 && sim != 3) = false ∧
        (i.simReason == some 2 || i.simReason == some 3) = false := by
  cases i.simReason with
  | none => simp
  | some sim => simp; omega

/-- The horizon decides the cause exactly when no other reason does. -/
theorem firstCause_horizon {i : EpisodeInput F} (hstop : StopAllowed i) (stabilized : Bool) :
    (firstCause i stabilized = some .stabilized ↔ AtHorizon i ∧ stabilized = true) ∧
      (firstCause i stabilized = some .notSettled ↔ AtHorizon i ∧ stabilized = false) := by
  have hhorizon : (i.horizonReached = true ∨ i.simReason = some 1) ↔
      (i.horizonReached || i.simReason == some 1) = true := by
    simp
  unfold firstCause causes AtHorizon
  rw [simReason_iff, hhorizon, ← Nat.not_le]
  generalize (i.simReason.any fun sim => sim != 1 && sim != 2 && sim != 3) = unknown
  generalize (i.simReason == some 2 || i.simReason == some 3) = lost
  generalize (i.horizonReached || i.simReason == some 1) = horizon
  generalize freshDiverged i = diverged
  cases hgiven : i.stopReason with
  | some given =>
    have hgiven : given = .peerLost ∨ given = .signal ∨ given = .internal := hstop given hgiven
    cases unknown
    · rcases hgiven with rfl | rfl | rfl <;> simp
    · simp
  | none =>
    by_cases hlate : 21 ≤ i.staleness <;> cases unknown <;> cases lost <;> cases diverged <;> cases horizon <;>
      cases stabilized <;> simp [hlate]

/-- The end of the run after every history: the settled count is the number of settled cycles up to
now, the first cause ends the run, an abort only without one, and the run has stabilised when the
horizon is what ends it after a thousand settled cycles. -/
theorem run_end (autoArm : Bool) (history : List (EpisodeInput F)) (i : EpisodeInput F)
    (hstop : StopAllowed i) :
    let s := stateAfter autoArm history
    let r := step s i
    let steps := history ++ [i]
    let enough : Prop := 1000 ≤ steps.length ∧ ∀ j ∈ steps.rtake 1000, isSettled j = true
    (s.mode ≠ .terminated → r.state.settleCount = min 1000 (runLength isSettled steps)) ∧
      (s.mode ≠ .terminated ∧ r.state.terminal.map TerminalResult.reason = some .stabilized ↔
        s.mode ≠ .terminated ∧ AtHorizon i ∧ enough) ∧
      (s.mode ≠ .terminated ∧ r.state.terminal.map TerminalResult.reason = some .notSettled ↔
        s.mode ≠ .terminated ∧ AtHorizon i ∧ ¬enough) ∧
      (s.mode ≠ .terminated →
        (∀ reason, firstCause i (decide enough) = some reason → r.state.terminal = some ⟨reason, i.tick⟩) ∧
          (firstCause i (decide enough) = none →
            r.state.terminal = none ∨ r.state.terminal = some ⟨.groundAbort, i.tick⟩ ∧
              ∃ c, (i.command = some c ∨ s.pending = some c) ∧ isOpcode c .abort = true ∧
                c.effectiveTick ≤ i.tick)) := by
  intro s r steps enough
  have hsettled (hlive : s.mode ≠ .terminated) :
      countSettled s.settleCount i.held = min 1000 (runLength isSettled steps) := by
    have hbound : s.settleCount ≤ 1000 := (sound_run autoArm history).settled
    have hbefore : s.settleCount = min 1000 (runLength isSettled history) :=
      settleCount_run autoArm history hlive
    rw [countSettled_eq hbound, hbefore, count_runLength]
  have hcount (hlive : s.mode ≠ .terminated) :
      (countSettled s.settleCount i.held == 1000) = decide enough := by
    rw [hsettled hlive, Bool.eq_iff_iff, beq_iff_eq, decide_eq_true_iff, min_eq_left_iff, le_runLength_iff]
  have hcause (hlive : s.mode ≠ .terminated) := (step_outcome s i).cause hlive hstop (hcount hlive)
  have hended (hlive : s.mode ≠ .terminated) {reason : Reason} (habort : reason ≠ .groundAbort) :
      r.state.terminal.map TerminalResult.reason = some reason ↔
        firstCause i (decide enough) = some reason := by
    obtain ⟨hfirst, hnone⟩ := hcause hlive
    constructor
    · intro hreason
      cases hcause : firstCause i (decide enough) with
      | some cause =>
        rw [hfirst cause hcause] at hreason
        exact hreason
      | none => rcases hnone hcause with h | ⟨h, -⟩ <;> simp_all [r]
    · intro hcause
      rw [hfirst reason hcause]
      rfl
  obtain ⟨hstabilized, hnotSettled⟩ := firstCause_horizon hstop (decide enough)
  rw [decide_eq_true_iff] at hstabilized
  rw [decide_eq_false_iff_not] at hnotSettled
  refine ⟨fun hlive => ?_, and_congr_right fun hlive => ?_, and_congr_right fun hlive => ?_, hcause⟩
  · exact ((step_outcome s i).settleCount hlive).trans (hsettled hlive)
  · exact (hended hlive (by decide)).trans hstabilized
  · exact (hended hlive (by decide)).trans hnotSettled

/-- The end of a run whose first cycle reaches the horizon. -/
theorem run_end_at_once :
    let i : EpisodeInput ℚ := ⟨0, none, false, 1, none, true, none, none⟩
    (stateAfter true ([] : List (EpisodeInput ℚ))).mode ≠ .terminated ∧
      (step (stateAfter true []) i).state.terminal.map TerminalResult.reason = some .notSettled := by
  intro i
  exact (run_end true [] i nofun).2.2.1.mpr ⟨by decide, ⟨.inl rfl, .inl rfl, rfl, rfl, by decide⟩, by simp⟩

end Tvc.Episode
