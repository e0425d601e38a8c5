import Tvc.Episode
import Tvc.Lib.Machine

/-!
# What one cycle of the episode machine can do

A cycle finds the machine ended, ends it for a reason of its own, or runs it: commands first, then
the actuator. What the commands of a running cycle can do is said once here, together with what
each part of a cycle leaves alone, and the properties of runs are derived from that.
-/

namespace Tvc.Episode

variable {F : Type}

/-! ## Running a command -/

/-- The mode, or the end of the run, that a command brings about. -/
inductive Applied (s : EpisodeState F) (c : Command) (tick : ℕ) : EpisodeState F × Ack → Prop
  | moved {mode : Mode} {status : AckStatus} (hstatus : status = .applied ∨ status = .appliedLate)
      (hopen : mode ≠ .terminated) (hlater : s.mode.toNat < mode.toNat) :
      Applied s c tick ({ s with mode }, ⟨c.cmdSeq, status, tick, mode, .none⟩)
  | aborted {status : AckStatus} (hstatus : status = .applied ∨ status = .appliedLate)
      (hlater : s.mode ≠ .terminated) (habort : isOpcode c .abort = true) :
      Applied s c tick
        ({ s with mode := .terminated, terminal := some ⟨.groundAbort, tick⟩ },
          ⟨c.cmdSeq, status, tick, .terminated, .groundAbort⟩)
  | refused : Applied s c tick (s, ⟨c.cmdSeq, .rejectedState, 0, s.mode, .none⟩)

/-- Running a command does one of the things a command can do. -/
theorem apply_applied (s : EpisodeState F) (c : Command) (tick : ℕ) : Applied s c tick (apply s c tick) := by
  have hstatus : (if c.effectiveTick == tick then AckStatus.applied else .appliedLate) = .applied ∨
      (if c.effectiveTick == tick then AckStatus.applied else .appliedLate) = .appliedLate := by
    split
    · exact .inl rfl
    · exact .inr rfl
  unfold apply
  dsimp only
  split
  · rename_i harm
    simp only [Bool.and_eq_true, beq_iff_eq] at harm
    exact .moved hstatus nofun (by rw [harm.2]; decide)
  · split
    · rename_i hlaunch
      simp only [Bool.and_eq_true, beq_iff_eq] at hlaunch
      exact .moved hstatus nofun (by rw [hlaunch.2]; decide)
    · split
      · rename_i habort
        simp only [Bool.and_eq_true, Bool.or_eq_true, beq_iff_eq] at habort
        refine .aborted hstatus ?_ habort.1
        rcases habort.2 with h | h <;> rw [h] <;> decide
      · exact .refused

/-- Running a command changes the mode and the end of the run, and nothing else. -/
theorem Applied.frame {s : EpisodeState F} {c : Command} {tick : ℕ} {x : EpisodeState F × Ack}
    (h : Applied s c tick x) :
    x.1.pending = s.pending ∧ x.1.lastAccepted = s.lastAccepted ∧ x.1.pid = s.pid ∧
      x.2.cmdSeq = c.cmdSeq := by
  cases h <;> exact ⟨rfl, rfl, rfl, rfl⟩

/-- Running a command leaves the pending slot. -/
@[simp] theorem apply_pending (s : EpisodeState F) (c : Command) (tick : ℕ) :
    (apply s c tick).1.pending = s.pending :=
  (apply_applied s c tick).frame.1

/-! ## Taking a command -/

/-- The status under which an arriving command is refused, if it is. -/
def screen (s : EpisodeState F) (c : Command) : Option AckStatus :=
  match prefixStatus c s.lastAccepted, s.pending with
  | some status, _ => some status
  | none, some pending =>
    if isOpcode c .abort && !isOpcode pending .abort then none else some .rejectedPending
  | none, none => none

/-- A status that refuses a command and leaves no trace of it. -/
def Inert (status : AckStatus) : Prop :=
  status = .duplicate ∨ status = .rejectedPending ∨ status = .rejectedIdentity ∨
    status = .rejectedOpcode ∨ status = .rejectedStale

/-- The checks before the pending slot refuse with a status of their own. -/
theorem inert_of_prefixStatus {c : Command} {last : Option Command} {status : AckStatus}
    (h : prefixStatus c last = some status) : Inert status := by
  unfold prefixStatus at h
  dsimp only at h
  repeat' split at h
  all_goals first | contradiction | (obtain rfl := Option.some.inj h; simp [Inert])

/-- An arriving command is refused with an inert status. -/
theorem inert_of_screen {s : EpisodeState F} {c : Command} {status : AckStatus}
    (h : screen s c = some status) : Inert status := by
  unfold screen at h
  split at h
  · rename_i hstatus
    exact inert_of_prefixStatus (Eq.trans hstatus h)
  · split at h
    · contradiction
    · obtain rfl := Option.some.inj h
      simp [Inert]
  · contradiction

/-- A command that passes its checks has passed those before the pending slot. -/
theorem prefixStatus_of_screen {s : EpisodeState F} {c : Command} (h : screen s c = none) :
    prefixStatus c s.lastAccepted = none := by
  unfold screen at h
  split at h
  · contradiction
  · assumption
  · assumption

/-- The acknowledgement of a command that is refused on arrival. -/
def refusal (s : EpisodeState F) (c : Command) (status : AckStatus) : Ack :=
  ⟨c.cmdSeq, status, 0, s.mode, .none⟩

/-- The acknowledgement of the pending command that another one displaces. -/
def preemption (s : EpisodeState F) : Option Ack :=
  s.pending.map fun pending => ⟨pending.cmdSeq, .preempted, 0, s.mode, .none⟩

/-- A command that passes its checks empties the pending slot and is taken. -/
theorem arrive_of_screen_none {s : EpisodeState F} {c : Command} (h : screen s c = none) (tick : ℕ) :
    arrive s tick (some c) =
      ((accept { s with pending := none } tick c).1, some (accept { s with pending := none } tick c).2,
        preemption s) := by
  obtain ⟨mode, pid, settleCount, pending, last, terminal, autoArm⟩ := s
  simp only [screen, arrive] at *
  cases hstatus : prefixStatus c last with
  | some status => simp [hstatus] at h
  | none =>
    cases pending with
    | none => rfl
    | some pending =>
      simp only [hstatus, ite_eq_left_iff, reduceCtorEq, imp_false, Decidable.not_not] at h
      simp only [h, if_true]
      rfl

/-- A command that fails a check is acknowledged and nothing else. -/
theorem arrive_of_screen_some {s : EpisodeState F} {c : Command} {status : AckStatus}
    (h : screen s c = some status) (tick : ℕ) :
    arrive s tick (some c) = (s, some (refusal s c status), none) := by
  obtain ⟨mode, pid, settleCount, pending, last, terminal, autoArm⟩ := s
  simp only [screen, arrive] at *
  cases hstatus : prefixStatus c last with
  | some status' =>
    simp only [hstatus, Option.some.injEq] at h
    rw [h]
    rfl
  | none =>
    cases pending with
    | none => simp [hstatus] at h
    | some pending =>
      simp only [hstatus] at h
      split at h
      · contradiction
      · rename_i hkeep
        obtain rfl := Option.some.inj h
        simp only [hkeep]
        rfl

/-! ## The commands of a running cycle -/

/-- The arriving command and then the due one: the state they leave, and their acknowledgements. -/
def handle (s : EpisodeState F) (tick : ℕ) (command : Option Command) :
    EpisodeState F × Option Ack × Option Ack :=
  let arrived := arrive s tick command
  let due := runDue arrived.1 tick arrived.2.2
  (due.1, arrived.2.1, due.2)

/-- No command arrives, or one that is refused. -/
inductive Declined (s : EpisodeState F) : Option Command → Option Ack → Prop
  | quiet : Declined s none none
  | refused {c : Command} {status : AckStatus} (hscreen : screen s c = some status) :
      Declined s (some c) (some (refusal s c status))

/-- What the commands of a running cycle can do. -/
inductive Handled (s : EpisodeState F) (tick : ℕ) :
    Option Command → EpisodeState F × Option Ack × Option Ack → Prop
  | kept {command : Option Command} {arrival : Option Ack} (harrival : Declined s command arrival)
      (hwait : ∀ p ∈ s.pending, tick < p.effectiveTick) : Handled s tick command (s, arrival, none)
  | due {command : Option Command} {arrival : Option Ack} (harrival : Declined s command arrival)
      {p : Command} (hpending : s.pending = some p) (hdue : p.effectiveTick ≤ tick) {x : EpisodeState F × Ack}
      (happlied : Applied { s with pending := none } p tick x) :
      Handled s tick command (x.1, arrival, some x.2)
  | queued {c : Command} (hscreen : screen s c = none) (hlater : tick < c.effectiveTick) :
      Handled s tick (some c)
        ({ s with pending := some c, lastAccepted := some c },
          some ⟨c.cmdSeq, .queued, 0, s.mode, .none⟩, preemption s)
  | ran {c : Command} (hscreen : screen s c = none) (hnow : c.effectiveTick ≤ tick)
      {x : EpisodeState F × Ack}
      (happlied : Applied { s with pending := none, lastAccepted := some c } c tick x) :
      Handled s tick (some c) (x.1, some x.2, preemption s)

/-- The pending stage after an arrival that leaves the state alone. -/
theorem handled_of_declined {s : EpisodeState F} {command : Option Command} {arrival : Option Ack}
    (h : Declined s command arrival) (tick : ℕ) :
    Handled s tick command ((runDue s tick none).1, arrival, (runDue s tick none).2) := by
  unfold runDue
  cases hpending : s.pending with
  | none => exact .kept h (by simp [hpending])
  | some p =>
    dsimp only
    split
    · exact .due h hpending ‹_› (apply_applied _ p tick)
    · refine .kept h fun q hq => ?_
      obtain rfl : p = q := by simpa [hpending] using hq
      omega

/-- The commands of a running cycle do one of the things they can do. -/
theorem handle_handled (s : EpisodeState F) (tick : ℕ) (command : Option Command) :
    Handled s tick command (handle s tick command) := by
  cases command with
  | none => exact handled_of_declined .quiet tick
  | some c =>
    unfold handle
    cases hscreen : screen s c with
    | some status =>
      rw [arrive_of_screen_some hscreen]
      exact handled_of_declined (.refused hscreen) tick
    | none =>
      rw [arrive_of_screen_none hscreen]
      dsimp only [accept]
      split
      · -- A command queued for a later tick is not due.
        rename_i hlater
        simp only [runDue, not_le.mpr hlater, if_false]
        exact .queued hscreen hlater
      · -- A command run at once leaves nothing pending.
        simp only [runDue, apply_pending]
        exact .ran hscreen (by omega) (apply_applied _ c tick)

variable [Arith F]

/-! ## A whole cycle -/

/-- The state after the settled samples were counted. -/
def counted (s : EpisodeState F) (i : EpisodeInput F) : EpisodeState F :=
  { s with settleCount := countSettled s.settleCount i.held }

/-- The reason that ends the run in a cycle, or `none`. -/
def endReason (s : EpisodeState F) (i : EpisodeInput F) : Reason :=
  terminalReason (countSettled s.settleCount i.held) i

/-- What a cycle can do. -/
inductive Outcome (s : EpisodeState F) (i : EpisodeInput F) : EpisodeOutput F → Prop
  | ended (hmode : s.mode = .terminated) : Outcome s i ⟨s, 0.0, []⟩
  | stopped (hlive : s.mode ≠ .terminated) (hreason : endReason s i ≠ .none) :
      Outcome s i (terminate (counted s i) i (endReason s i))
  | ran (hlive : s.mode ≠ .terminated) (hreason : endReason s i = .none)
      {x : EpisodeState F × Option Ack × Option Ack}
      (hhandled : Handled { counted s i with terminal := none } i.tick i.command x) :
      Outcome s i ⟨(drive x.1 i).1, (drive x.1 i).2, batch x.2.1 x.2.2⟩

/-- A cycle does one of the things it can do. -/
theorem step_outcome (s : EpisodeState F) (i : EpisodeInput F) : Outcome s i (step s i) := by
  unfold step
  split
  · rename_i hmode
    exact .ended (by simpa using hmode)
  · rename_i hmode
    have hlive : s.mode ≠ .terminated := by simpa using hmode
    dsimp only
    split
    · rename_i hreason
      exact .stopped hlive (bne_iff_ne.mp hreason)
    · rename_i hreason
      exact .ran hlive (of_not_not fun hne => hreason (bne_iff_ne.mpr hne)) (handle_handled _ i.tick i.command)

/-- A machine that has ended stands still. -/
theorem step_of_terminated {s : EpisodeState F} (h : s.mode = .terminated) (i : EpisodeInput F) :
    step s i = ⟨s, 0.0, []⟩ := by
  simp [step, h]

/-- A cycle in which no reason ends the run. -/
theorem step_of_live {s : EpisodeState F} {i : EpisodeInput F} (h : s.mode ≠ .terminated)
    (hreason : endReason s i = .none) :
    step s i =
      let x := handle { counted s i with terminal := none } i.tick i.command
      ⟨(drive x.1 i).1, (drive x.1 i).2, batch x.2.1 x.2.2⟩ := by
  have hreason' : terminalReason (countSettled s.settleCount i.held) i = .none := hreason
  simp only [step, beq_iff_eq, h, if_false, hreason', bne_self_eq_false, Bool.false_eq_true]
  rfl

/-- A cycle in which a reason ends the run. -/
theorem step_of_stopped {s : EpisodeState F} {i : EpisodeInput F} (h : s.mode ≠ .terminated)
    (hreason : endReason s i ≠ .none) : step s i = terminate (counted s i) i (endReason s i) := by
  have hreason' : terminalReason (countSettled s.settleCount i.held) i ≠ .none := hreason
  simp only [step, beq_iff_eq, h, if_false, bne_iff_ne, ne_eq, hreason', not_false_eq_true, if_true]
  rfl

/-! ## Driving -/

/-- Automatic arming never moves the mode back, and does not end the run. -/
theorem autoMode_le (autoArm fresh : Bool) (mode : Mode) :
    mode.toNat ≤ (autoMode autoArm fresh mode).toNat ∧
      (mode ≠ .terminated → autoMode autoArm fresh mode ≠ .terminated) := by
  cases autoArm <;> cases fresh <;> cases mode <;> decide

/-- Driving leaves the pending slot. -/
@[simp] theorem drive_pending (s : EpisodeState F) (i : EpisodeInput F) :
    (drive s i).1.pending = s.pending := by
  unfold drive
  split <;> rfl

/-- Driving leaves the last accepted command. -/
@[simp] theorem drive_lastAccepted (s : EpisodeState F) (i : EpisodeInput F) :
    (drive s i).1.lastAccepted = s.lastAccepted := by
  unfold drive
  split <;> rfl

/-- Driving does not end the run. -/
@[simp] theorem drive_terminal (s : EpisodeState F) (i : EpisodeInput F) :
    (drive s i).1.terminal = s.terminal := by
  unfold drive
  split <;> rfl

/-- Driving never moves the mode back. -/
theorem drive_mode_le (s : EpisodeState F) (i : EpisodeInput F) :
    s.mode.toNat ≤ (drive s i).1.mode.toNat := by
  unfold drive
  split
  · exact le_rfl
  · exact (autoMode_le s.autoArm i.fresh s.mode).1

/-- What the actuator is told, and what that leaves of the controller. -/
inductive Commanded (pid : ControlState F) (mode : Mode) (i : EpisodeInput F) : F × ControlState F → Prop
  | controlled {o : Observation F} (hmode : mode = .flying) (hfresh : i.fresh = true) (hheld : i.held = some o) :
      Commanded pid mode i (Control.step pid o)
  | coasting (hmode : mode = .flying) (hstale : i.fresh = false) (hage : i.staleness ≤ 8) :
      Commanded pid mode i (pid.lastDelta, pid)
  | neutral : Commanded pid mode i (0.0, pid)

/-- The actuator is told one of the things it can be told. -/
theorem command_commanded (pid : ControlState F) (mode : Mode) (i : EpisodeInput F) :
    Commanded pid mode i (command pid mode i) := by
  unfold command
  split
  · rename_i hmode
    split
    · rename_i hfresh
      cases hheld : i.held with
      | none => exact .neutral
      | some o => exact .controlled (beq_iff_eq.mp hmode) hfresh hheld
    · rename_i hstale
      split
      · rename_i hage
        exact .coasting (beq_iff_eq.mp hmode) (Bool.not_eq_true _ ▸ hstale) hage
      · exact .neutral
  · exact .neutral

/-- The controller moves only for a fresh sample in flight. -/
theorem drive_pid (s : EpisodeState F) (i : EpisodeInput F) (h : (drive s i).1.pid ≠ s.pid) :
    i.fresh = true ∧ (drive s i).1.mode = .flying := by
  unfold drive at h ⊢
  split at h
  · exact absurd rfl h
  · rename_i hopen
    rw [if_neg hopen]
    dsimp only at h ⊢
    have hcommanded := command_commanded s.pid (autoMode s.autoArm i.fresh s.mode) i
    generalize command s.pid (autoMode s.autoArm i.fresh s.mode) i = x at h hcommanded
    cases hcommanded with
    | controlled hmode hfresh _ => exact ⟨hfresh, hmode⟩
    | coasting => exact absurd rfl h
    | neutral => exact absurd rfl h

end Tvc.Episode
