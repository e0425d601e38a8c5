import Tvc.Episode.Sensing
import Tvc.Telemetry

/-!
# The chronicle of an episode

Both drivers present one record for each cycle, with the tick of the cycle and the state and reason it
leaves, and run no cycle after the one that ends the machine. So the records alone tell how the machine
went: exactly the last of an ended run is terminated, and it names the reason and the tick of the end.
-/

namespace Tvc.Episode

open Telem (ControlRecord)

variable {F : Type}

/-- The reason a state gives. -/
def reasonOf (s : EpisodeState F) : Reason := (s.terminal.map TerminalResult.reason).getD .none

/-- The record of a cycle tells its tick and the state it leaves. -/
structure Tells (base k : ℕ) (s : EpisodeState F) (r : ControlRecord) : Prop where
  tick : r.tick.toNat = base + k
  state : r.state = BitVec.ofNat 8 s.mode.toNat
  reason : r.reason = BitVec.ofNat 8 (reasonOf s).toNat

/-- The wire value of the mode tells whether the machine has ended. -/
theorem Tells.ended_iff {base k : ℕ} {s : EpisodeState F} {r : ControlRecord} (h : Tells base k s r) :
    r.state = 3 ↔ s.mode = .terminated := by
  rw [h.state]
  cases s.mode <;> decide

variable [Arith F] {autoArm : Bool} {base : ℕ} {history : List (EpisodeInput F)} {i : EpisodeInput F}
  {records : List ControlRecord} {r : ControlRecord}

/-- The records of a run, one for each cycle, and no cycle after the end. -/
structure Chronicle (autoArm : Bool) (base : ℕ) (history : List (EpisodeInput F)) (records : List ControlRecord) :
    Prop where
  length : records.length = history.length
  tells : ∀ k r, records[k]? = some r → Tells base k (stateAfter autoArm (history.take (k + 1))) r
  live : ∀ k < history.length, (stateAfter autoArm (history.take k)).mode ≠ .terminated

/-- A run that has not begun. -/
theorem Chronicle.nil : Chronicle autoArm base ([] : List (EpisodeInput F)) [] := ⟨rfl, nofun, nofun⟩

/-- A live machine runs one more cycle. -/
theorem Chronicle.concat (h : Chronicle autoArm base history records)
    (hlive : (stateAfter autoArm history).mode ≠ .terminated)
    (htells : Tells base history.length (step (stateAfter autoArm history) i).state r) :
    Chronicle autoArm base (history ++ [i]) (records ++ [r]) where
  length := by rw [List.length_append, List.length_append, h.length]; rfl
  tells k r' hr' := by
    rcases Nat.lt_trichotomy k records.length with hk | hk | hk
    · rw [List.getElem?_append_left hk] at hr'
      rw [List.take_append_of_le_length (by rw [← h.length]; omega)]
      exact h.tells k r' hr'
    · obtain rfl : r = r' := by simpa [hk] using hr'
      have hall : (history ++ [i]).length ≤ k + 1 := by rw [List.length_append, hk, h.length]; exact le_rfl
      rw [List.take_of_length_le hall, stateAfter_concat, hk, h.length]
      exact htells
    · rw [List.getElem?_eq_none (by rw [List.length_append]; exact hk)] at hr'
      nomatch hr'
  live k hk := by
    rw [List.length_append, List.length_singleton] at hk
    rw [List.take_append_of_le_length (Nat.le_of_lt_succ hk)]
    rcases Nat.lt_or_eq_of_le (Nat.le_of_lt_succ hk) with hlt | rfl
    · exact h.live k hlt
    · rwa [List.take_length]

/-- Exactly the last record of an ended run is terminated. -/
theorem Chronicle.ended_iff (h : Chronicle autoArm base history records)
    (hended : (stateAfter autoArm history).mode = .terminated) {k : ℕ} (hr : records[k]? = some r) :
    r.state = 3 ↔ k + 1 = records.length := by
  have hk : k < records.length := (List.getElem?_eq_some_iff.mp hr).1
  rw [(h.tells k r hr).ended_iff, h.length] at *
  constructor
  · intro hmode
    by_contra hne
    exact h.live (k + 1) (by omega) hmode
  · intro hlast
    rwa [hlast, List.take_length]

/-- The last record of an ended run names the reason and the tick of the end. -/
theorem Chronicle.last [Classify F] (h : Chronicle autoArm base history records) (hsensed : Sensed base history)
    {t : TerminalResult} (ht : (stateAfter autoArm history).terminal = some t) :
    base + history.length = t.tick + 1 ∧
      ∃ r, records.getLast? = some r ∧ r.state = 3 ∧ r.reason = BitVec.ofNat 8 t.reason.toNat ∧
        r.tick.toNat = t.tick := by
  induction history using List.reverseRecOn with
  | nil => nomatch ht
  | append_singleton before i _ =>
    have hlength : (before ++ [i]).length = before.length + 1 := List.length_append
    have hlive := h.live before.length (by omega)
    rw [List.take_left] at hlive
    have htick : t.tick = base + before.length := by
      rw [stateAfter_concat] at ht
      rw [(step_outcome _ i).terminal_tick hlive t ht, hsensed.last.tick]
    have hended : (stateAfter autoArm (before ++ [i])).mode = .terminated :=
      (sound_run autoArm _).terminal.mpr (by rw [ht]; rfl)
    have hplace : before.length < records.length := by rw [h.length]; omega
    have htells := h.tells before.length records[before.length] (List.getElem?_eq_getElem hplace)
    rw [List.take_of_length_le hlength.le] at htells
    refine ⟨by omega, records[before.length], ?_, htells.ended_iff.mpr hended, ?_, htells.tick.trans htick.symm⟩
    · rw [List.getLast?_eq_getElem?, h.length, hlength, Nat.add_sub_cancel, List.getElem?_eq_getElem hplace]
    · rw [htells.reason, reasonOf, ht]
      rfl

/-! ## How a run can end -/

/-- The reasons of a run that is complete. -/
def Concluded (reason : Reason) : Prop :=
  reason = .stabilized ∨ reason = .diverged ∨ reason = .groundAbort ∨ reason = .sensorLost ∨ reason = .notSettled

/-- What ends a cycle that no stop reason interrupts: a reason of a complete run, or an unknown simulator
reason. -/
theorem terminalReason_of_unstopped (hstop : i.stopReason = none) (count : ℕ) :
    terminalReason count i = .none ∨ Concluded (terminalReason count i) ∨
      terminalReason count i = .internal ∧ ∃ sim ∈ i.simReason, sim ≠ 1 ∧ sim ≠ 2 ∧ sim ≠ 3 := by
  unfold terminalReason
  rw [hstop]
  dsimp only
  split
  · rename_i hunknown
    obtain ⟨sim, hsim, hother⟩ := Option.any_eq_true _ _ |>.mp hunknown
    simp only [Bool.and_eq_true, bne_iff_ne, ne_eq, and_assoc] at hother
    exact .inr (.inr ⟨rfl, sim, hsim, hother⟩)
  · repeat' split
    all_goals simp [Concluded]

/-- A run that no stop reason interrupts ends with a reason of a complete run, or with an unknown simulator
reason. -/
theorem Chronicle.concluded (h : Chronicle autoArm base history records) (hstop : ∀ i ∈ history, i.stopReason = none) :
    ∀ t ∈ (stateAfter autoArm history).terminal, Concluded t.reason ∨
      t.reason = .internal ∧ ∃ i ∈ history, ∃ sim ∈ i.simReason, sim ≠ 1 ∧ sim ≠ 2 ∧ sim ≠ 3 := by
  induction history using List.reverseRecOn with
  | nil => nofun
  | append_singleton before i _ =>
    have hlive := h.live before.length (by simp)
    have hlast := hstop i (by simp)
    rw [List.take_left] at hlive
    rw [stateAfter_concat]
    have houtcome := step_outcome (stateAfter autoArm before) i
    generalize step (stateAfter autoArm before) i = r at houtcome
    cases houtcome with
    | ended hmode => exact absurd hmode hlive
    | stopped _ hreason =>
      intro t ht
      obtain rfl := Option.some.inj ht
      refine ((terminalReason_of_unstopped hlast _).resolve_left hreason).imp_right fun hunknown => ?_
      exact ⟨hunknown.1, i, by simp, hunknown.2⟩
    | ran _ _ hhandled =>
      intro t ht
      rw [drive_terminal] at ht
      rcases hhandled.terminal rfl with hnone | ⟨habort, -⟩
      · nomatch hnone.symm.trans ht
      · obtain rfl := Option.some.inj (habort.symm.trans ht)
        exact .inl (.inr (.inr (.inl rfl)))

/-- A cycle without a command, where none is pending: the machine goes on, or a reason ends it. -/
theorem step_uncommanded {s : EpisodeState F} (hlive : s.mode ≠ .terminated) (hpending : s.pending = none)
    (hcommand : i.command = none) :
    (step s i).state.mode ≠ .terminated ∧ (step s i).state.pending = none ∧ endReason s i = .none ∨
      (step s i).state.mode = .terminated ∧ endReason s i ≠ .none ∧
        (step s i).state.terminal = some ⟨endReason s i, i.tick⟩ := by
  by_cases hreason : endReason s i = .none
  · refine .inl ⟨?_, ?_, hreason⟩
    all_goals
      rw [step_of_live hlive hreason]
      simp only [handle, hcommand, arrive, runDue, counted, hpending, drive, Option.isSome_none, Bool.false_eq_true,
        if_false]
    unfold autoMode
    cases hmode : s.mode with
    | terminated => exact absurd hmode hlive
    | _ => cases s.autoArm <;> cases i.fresh <;> decide
  · refine .inr ⟨?_, hreason, ?_⟩
    all_goals
      rw [step_of_stopped hlive hreason]
      rfl

/-- A cycle at the horizon ends the machine. -/
theorem terminated_of_horizon {s : EpisodeState F} (hstop : StopAllowed i) (hhorizon : i.horizonReached = true) :
    (step s i).state.mode = .terminated := by
  have houtcome := step_outcome s i
  generalize step s i = r at houtcome
  cases houtcome with
  | ended hmode => exact hmode
  | stopped => rfl
  | ran _ hreason =>
    have hcause : firstCause i (countSettled s.settleCount i.held == 1000) ≠ some .none := firstCause_ne_none hstop
    rw [endReason, terminalReason_eq] at hreason
    cases hfirst : firstCause i (countSettled s.settleCount i.held == 1000) with
    | some reason =>
      rw [hfirst] at hreason hcause
      exact absurd (congrArg some hreason) hcause
    | none =>
      rw [firstCause, Option.map_eq_none_iff, List.find?_eq_none] at hfirst
      have hlast := hfirst (i.horizonReached || i.simReason == some 1, _) (List.mem_of_getLast? rfl)
      rw [hhorizon] at hlast
      exact absurd rfl hlast

end Tvc.Episode
