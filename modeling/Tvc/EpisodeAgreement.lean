import Tvc.EpisodeRef
import Tvc.Lib.Machine
import Mathlib.Tactic.Linarith

/-!
# The two episode machines agree

Each stage of the C++ machine is matched with the values the Python machine rebuilds. The one
place where the shapes differ is a command that ends the run: the record keeps the terminal
result across the pending stage, the Python locals would overwrite it. No pending command is
left by then, because an accepted command finds the slot empty or empties it.
-/

namespace Tvc

namespace EpisodeRef

/-- The masked gap is the value of the wrapped difference. -/
theorem masked_gap (a b : U32) :
    ((a.toNat : ℤ) - b.toNat) % 0x100000000 = ((a - b).toNat : ℤ) := by
  have ha := a.isLt
  have hb := b.isLt
  rw [BitVec.toNat_sub]
  omega

/-- The two command prefixes make the same checks. -/
theorem prefixStatus_eq (c : Command) (last : Option Command) :
    prefixStatus c last = Episode.prefixStatus c last := by
  unfold prefixStatus Episode.prefixStatus
  have hopcode (o : Opcode) : opcodeIs c o = Episode.isOpcode c o := rfl
  simp only [hopcode, Bool.not_or]
  split
  · rfl
  · cases last with
    | none => rfl
    | some last =>
      have hseq : (c.cmdSeq.toNat == last.cmdSeq.toNat) = (c.cmdSeq == last.cmdSeq) := by
        rw [Bool.eq_iff_iff, beq_iff_eq, beq_iff_eq, BitVec.toNat_inj]
      have hgap : (!(decide (1 ≤ ((c.cmdSeq.toNat : ℤ) - last.cmdSeq.toNat) % 0x100000000) &&
            decide (((c.cmdSeq.toNat : ℤ) - last.cmdSeq.toNat) % 0x100000000 < 0x80000000))) =
          (c.cmdSeq - last.cmdSeq == 0 || decide (0x80000000#32 ≤ c.cmdSeq - last.cmdSeq)) := by
        rw [masked_gap, Bool.eq_iff_iff]
        have hzero : c.cmdSeq - last.cmdSeq = 0 ↔ (c.cmdSeq - last.cmdSeq).toNat = 0 := by
          rw [← BitVec.toNat_inj]
          simp
        simp only [Bool.not_eq_true', Bool.and_eq_false_iff, decide_eq_false_iff_not, Bool.or_eq_true,
          beq_iff_eq, decide_eq_true_eq, hzero, BitVec.le_def]
        have hconst : (0x80000000#32).toNat = 0x80000000 := rfl
        omega
      simp only [hseq, hgap]

variable {F : Type}

/-- The reference `_apply` is the record update of `apply`, with the terminal result kept when
the command does not end the run. -/
theorem apply_eq (next : EpisodeState F) (c : Command) (tick : ℕ) :
    Episode.apply next c tick =
      ({ next with
          mode := (apply next.mode c tick).1
          terminal := (apply next.mode c tick).2.1.or next.terminal },
        (apply next.mode c tick).2.2) := by
  unfold Episode.apply apply
  have hopcode (o : Opcode) : opcodeIs c o = Episode.isOpcode c o := rfl
  simp only [hopcode]
  repeat' split
  all_goals rfl

/-- The two batches list the same acknowledgements. -/
theorem ackTuple_eq (arrivalAck pendingAck : Option Ack) :
    ackTuple arrivalAck pendingAck = Episode.batch arrivalAck pendingAck := by
  cases arrivalAck <;> cases pendingAck <;> rfl

/-- The record the Python locals stand for. -/
def Locals.toState (v : Locals) (pid : ControlState F) (count : ℕ) (autoArm : Bool) :
    EpisodeState F :=
  ⟨v.mode, pid, count, v.pending, v.last, v.terminal, autoArm⟩

/-- The arriving command acts alike on the record and on the locals. -/
theorem arrival_eq (v : Locals) (pid : ControlState F) (count : ℕ) (autoArm : Bool) (tick : ℕ)
    (command : Option Command) (hterminal : v.terminal = none) (harrival : v.arrivalAck = none)
    (hpending : v.pendingAck = none) :
    Episode.arrive (v.toState pid count autoArm) tick command =
      ((arrival v tick command).toState pid count autoArm, (arrival v tick command).arrivalAck,
        (arrival v tick command).pendingAck) := by
  obtain ⟨mode, terminal, pending, last, arrivalAck, pendingAck⟩ := v
  subst hterminal harrival hpending
  have hopcode (c : Command) (o : Opcode) : opcodeIs c o = Episode.isOpcode c o := rfl
  cases command with
  | none => rfl
  | some command =>
    simp only [Episode.arrive, Episode.accept, arrival, screen, prefixStatus_eq, Locals.toState, hopcode,
      apply_eq, Option.or_none]
    cases Episode.prefixStatus command last with
    | some status => cases pending <;> rfl
    | none =>
      cases pending with
      | none => by_cases hqueued : tick < command.effectiveTick <;> simp [hqueued]
      | some pending =>
        by_cases hpreempt : (Episode.isOpcode command .abort && !Episode.isOpcode pending .abort) = true
        · by_cases hqueued : tick < command.effectiveTick <;> simp [hpreempt, hqueued]
        · simp [hpreempt]

/-- A command that ends the run leaves nothing pending. -/
theorem arrival_terminal (v : Locals) (tick : ℕ) (command : Option Command)
    (hterminal : v.terminal = none) (hended : (arrival v tick command).terminal ≠ none) :
    (arrival v tick command).pending = none := by
  obtain ⟨mode, terminal, pending, last, arrivalAck, pendingAck⟩ := v
  subst hterminal
  revert hended
  cases command with
  | none => simp [arrival]
  | some command =>
    simp only [arrival, screen]
    cases prefixStatus command last with
    | some status => cases pending <;> simp
    | none =>
      cases pending with
      | none => by_cases hqueued : tick < command.effectiveTick <;> simp [hqueued]
      | some pending =>
        by_cases hpreempt : (opcodeIs command .abort && !opcodeIs pending .abort) = true
        · by_cases hqueued : tick < command.effectiveTick <;> simp [hpreempt, hqueued]
        · simp [hpreempt]

/-- The due pending command acts alike, once nothing is pending after the end of the run. -/
theorem due_eq (v : Locals) (pid : ControlState F) (count : ℕ) (autoArm : Bool) (tick : ℕ)
    (hended : v.terminal ≠ none → v.pending = none) :
    Episode.runDue (v.toState pid count autoArm) tick v.pendingAck =
      ((due v tick).toState pid count autoArm, (due v tick).pendingAck) := by
  obtain ⟨mode, terminal, pending, last, arrivalAck, pendingAck⟩ := v
  simp only [Episode.runDue, due, Locals.toState]
  cases pending with
  | none => rfl
  | some pending =>
    have hterminal : terminal = none := by
      by_contra h
      simpa using hended h
    subst hterminal
    by_cases hdue : pending.effectiveTick ≤ tick
    · simp [hdue, apply_eq]
    · simp [hdue]

/-- The pending stage does not touch the arrival acknowledgement. -/
theorem due_arrivalAck (v : Locals) (tick : ℕ) : (due v tick).arrivalAck = v.arrivalAck := by
  unfold due
  split
  · split <;> rfl
  · rfl

variable [Arith F]

/-- Up to the saturation point the two settled counts are the same. -/
theorem settledCount_eq {count : ℕ} (h : count ≤ 1000) (held : Option (Observation F)) :
    settledCount count held = Episode.countSettled count held := by
  unfold settledCount Episode.countSettled
  cases held with
  | none => rfl
  | some held =>
    have hmin : min (count + 1) 1000 = if count < 1000 then count + 1 else count := by
      split <;> omega
    simp only [hmin]

/-- The two machines choose the same reason. -/
theorem chooseReason_eq (count : ℕ) (inputs : EpisodeInput F) :
    chooseReason count inputs = Episode.terminalReason count inputs := by
  have hunknown : unknownSim inputs.simReason =
      inputs.simReason.any fun sim => sim != 1 && sim != 2 && sim != 3 := by
    unfold unknownSim
    cases inputs.simReason <;> simp [SimReason.toNat, bne]
  have hdiverged : freshDiverged inputs = Episode.freshDiverged inputs := by
    unfold freshDiverged Episode.freshDiverged
    cases inputs.held <;> simp
  unfold chooseReason Episode.terminalReason
  rw [hunknown, hdiverged]
  rfl

/-- The cycle that ends the run refuses the same commands. -/
theorem terminate_eq (mode : Mode) (pid : ControlState F) (count : ℕ) (pending last : Option Command)
    (terminal : Option TerminalResult) (autoArm : Bool) (inputs : EpisodeInput F) (reason : Reason) :
    Episode.terminate ⟨mode, pid, count, pending, last, terminal, autoArm⟩ inputs reason =
      ⟨⟨.terminated, pid, count, none, last, some ⟨reason, inputs.tick⟩, autoArm⟩, 0.0,
        ackTuple (refuseArrival inputs.command last reason) (refusePending pending reason)⟩ := by
  have harrival : refuseArrival inputs.command last reason = inputs.command.map fun command =>
      Ack.mk command.cmdSeq ((Episode.prefixStatus command last).getD .rejectedState) 0
        .terminated reason := by
    cases inputs.command with
    | none => rfl
    | some command =>
      simp only [refuseArrival, prefixStatus_eq, Option.map_some]
      cases Episode.prefixStatus command last <;> rfl
  have hpending : refusePending pending reason = pending.map fun pending =>
      Ack.mk pending.cmdSeq .rejectedState 0 .terminated reason := by
    cases pending <;> rfl
  rw [harrival, hpending, ackTuple_eq]
  rfl

/-- The actuator command and the controller state are computed alike. -/
theorem command_eq (pid : ControlState F) (mode : Mode) (inputs : EpisodeInput F) :
    command pid mode inputs = Episode.command pid mode inputs := by
  unfold command Episode.command
  cases inputs.held <;> rfl

/-- One cycle of the two machines, from any state whose settled count is in range. -/
theorem step_agrees {state : EpisodeState F} (h : state.settleCount ≤ 1000) (inputs : EpisodeInput F) :
    step state inputs = Episode.step state inputs := by
  obtain ⟨mode, pid, settleCount, pending, last, terminal, autoArm⟩ := state
  unfold step Episode.step
  simp only [settledCount_eq h, chooseReason_eq, terminate_eq]
  split
  · rfl
  · split
    · rfl
    · rw [Episode.live]
      let count := Episode.countSettled settleCount inputs.held
      let v : Locals := ⟨mode, none, pending, last, none, none⟩
      let w := arrival v inputs.tick inputs.command
      have harrive := arrival_eq v pid count autoArm inputs.tick inputs.command rfl rfl rfl
      have hdue := due_eq w pid count autoArm inputs.tick
        (arrival_terminal v inputs.tick inputs.command rfl)
      have hack := due_arrivalAck w inputs.tick
      dsimp only [v, w, Locals.toState] at harrive hdue hack
      rw [harrive]
      dsimp only
      rw [hdue, ← hack]
      generalize due (arrival ⟨mode, none, pending, last, none, none⟩ inputs.tick inputs.command)
        inputs.tick = x
      obtain ⟨mode, terminal, pending, last, arrivalAck, pendingAck⟩ := x
      cases terminal <;> simp [Episode.drive, command_eq, ackTuple_eq, count, autoMode, Episode.autoMode]

end EpisodeRef

/-- The two episode machines are one function on every state whose settled count is in range,
and therefore on every run from the initial state. -/
theorem episode_machines_agree {F : Type} [Arith F] {state : EpisodeState F}
    (h : state.settleCount ≤ 1000) (inputs : EpisodeInput F) (autoArm : Bool)
    (history : List (EpisodeInput F)) :
    EpisodeRef.step state inputs = Episode.step state inputs ∧
      Machine.run EpisodeRef.advance (EpisodeRef.initial autoArm) history =
        Machine.run Episode.advance (Episode.initial autoArm) history := by
  refine ⟨EpisodeRef.step_agrees h inputs, ?_⟩
  have hinitial : (EpisodeRef.initial autoArm : EpisodeState F) = Episode.initial autoArm := rfl
  rw [hinitial]
  refine Machine.run_congr (P := fun s => s.settleCount ≤ 1000)
    (fun s input hs => Episode.step_settleCount_le hs input) (fun s input hs => ?_) ?_ history
  · simp only [EpisodeRef.advance, Episode.advance, EpisodeRef.step_agrees hs]
  · exact Nat.zero_le _

/-- The agreement at the sample that completes the settled window, with the horizon reached. -/
theorem episode_machines_agree_at_horizon :
    let state : EpisodeState ℚ := ⟨.flying, Control.initial, 999, none, none, none, true⟩
    let inputs : EpisodeInput ℚ := ⟨4999, some ⟨4999, 0, 0, true⟩, true, 0, none, true, none, none⟩
    EpisodeRef.step state inputs = Episode.step state inputs ∧
      Machine.run EpisodeRef.advance (EpisodeRef.initial true) [inputs] =
        Machine.run Episode.advance (Episode.initial true) [inputs] :=
  episode_machines_agree (by decide) _ true _

end Tvc
