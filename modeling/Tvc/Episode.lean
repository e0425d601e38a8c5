import Tvc.Control

/-!
# The episode machine of `src/episode.cpp`

One logical cycle of the vehicle: count settled samples, decide whether the run ends, take the
arriving command, run the pending one when it is due, and drive the actuator. The source
mutates one state record; here each stage returns the record it leaves.

Ticks are compared and never added here, so a `std::uint64_t` tick enters as its value. A
command sequence number is a 32-bit word, since its comparison wraps.
-/

namespace Tvc

/-- `episode::Mode`. -/
inductive Mode
  | init | armed | flying | terminated
  deriving DecidableEq, Repr

/-- The wire value of a mode. -/
def Mode.toNat : Mode → ℕ
  | .init => 0
  | .armed => 1
  | .flying => 2
  | .terminated => 3

/-- `episode::Reason`. -/
inductive Reason
  | none | stabilized | diverged | groundAbort | sensorLost | peerLost | signal | notSettled
  | internal
  deriving DecidableEq, Repr

/-- The wire value of a reason. -/
def Reason.toNat : Reason → ℕ
  | .none => 0
  | .stabilized => 1
  | .diverged => 2
  | .groundAbort => 3
  | .sensorLost => 4
  | .peerLost => 5
  | .signal => 6
  | .notSettled => 7
  | .internal => 8

/-- `episode::Opcode`; a command carries the raw 16-bit value. -/
inductive Opcode
  | arm | launch | abort
  deriving DecidableEq, Repr

/-- The wire value of an opcode. -/
def Opcode.toNat : Opcode → ℕ
  | .arm => 1
  | .launch => 2
  | .abort => 3

/-- `episode::AckStatus`. -/
inductive AckStatus
  | queued | applied | appliedLate | duplicate | rejectedPending | rejectedState
  | rejectedIdentity | rejectedOpcode | rejectedStale | preempted | rejectedOverflow
  deriving DecidableEq, Repr

/-- The wire value of an acknowledgement status. -/
def AckStatus.toNat : AckStatus → ℕ
  | .queued => 0
  | .applied => 1
  | .appliedLate => 2
  | .duplicate => 3
  | .rejectedPending => 4
  | .rejectedState => 5
  | .rejectedIdentity => 6
  | .rejectedOpcode => 7
  | .rejectedStale => 8
  | .preempted => 9
  | .rejectedOverflow => 10

/-- `episode::SimReason`; the wire carries the raw 32-bit value. -/
inductive SimReason
  | none | horizon | locAngle | locNonfinite | vehicleTerminal | peerLost
  deriving DecidableEq, Repr

/-- The wire value of a simulator reason. -/
def SimReason.toNat : SimReason → ℕ
  | .none => 0
  | .horizon => 1
  | .locAngle => 2
  | .locNonfinite => 3
  | .vehicleTerminal => 4
  | .peerLost => 6

/-- `episode::Command`. -/
structure Command where
  cmdSeq : U32
  opcode : ℕ
  effectiveTick : ℕ
  deriving DecidableEq, Repr

/-- `episode::Ack`. -/
structure Ack where
  cmdSeq : U32
  status : AckStatus
  appliedTick : ℕ
  state : Mode
  reason : Reason
  deriving DecidableEq, Repr

/-- `episode::TerminalResult`. -/
structure TerminalResult where
  reason : Reason
  tick : ℕ
  deriving DecidableEq, Repr

/-- `episode::State`, and `EpisodeState` of `sim/episode.py`. -/
structure EpisodeState (F : Type) where
  mode : Mode
  pid : ControlState F
  settleCount : ℕ
  pending : Option Command
  lastAccepted : Option Command
  terminal : Option TerminalResult
  autoArm : Bool
  deriving DecidableEq, Repr

/-- `episode::Inputs`, and `EpisodeInput` of `sim/episode.py`. -/
structure EpisodeInput (F : Type) where
  tick : ℕ
  held : Option (Observation F)
  fresh : Bool
  staleness : ℕ
  command : Option Command
  horizonReached : Bool
  simReason : Option ℕ
  stopReason : Option Reason

/-- `episode::Transition`, and `EpisodeOutput`; the acknowledgements are the filled part of the
batch, in arrival-then-pending order. -/
structure EpisodeOutput (F : Type) where
  state : EpisodeState F
  requestedDelta : F
  acks : List Ack
  deriving DecidableEq, Repr

namespace Episode

/-- `is_opcode`. -/
def isOpcode (c : Command) (opcode : Opcode) : Bool := c.opcode == opcode.toNat

/-- `prefix`: the checks a command must pass before the pending slot is looked at. -/
def prefixStatus (c : Command) (last : Option Command) : Option AckStatus :=
  if !isOpcode c .arm && !isOpcode c .launch && !isOpcode c .abort then some .rejectedOpcode
  else match last with
  | none => none
  | some last =>
    if c.cmdSeq == last.cmdSeq then
      if c.opcode == last.opcode && c.effectiveTick == last.effectiveTick then some .duplicate
      else some .rejectedIdentity
    else
      let gap := c.cmdSeq - last.cmdSeq
      if gap == 0 || 0x80000000#32 ≤ gap then some .rejectedStale else none

variable {F : Type}

/-- `apply`: run a command on the mode, or refuse it. -/
def apply (next : EpisodeState F) (c : Command) (tick : ℕ) : EpisodeState F × Ack :=
  let status := if c.effectiveTick == tick then AckStatus.applied else .appliedLate
  if isOpcode c .arm && next.mode == .init then
    ({ next with mode := .armed }, ⟨c.cmdSeq, status, tick, .armed, .none⟩)
  else if isOpcode c .launch && next.mode == .armed then
    ({ next with mode := .flying }, ⟨c.cmdSeq, status, tick, .flying, .none⟩)
  else if isOpcode c .abort && (next.mode == .armed || next.mode == .flying) then
    ({ next with mode := .terminated, terminal := some ⟨.groundAbort, tick⟩ },
      ⟨c.cmdSeq, status, tick, .terminated, .groundAbort⟩)
  else (next, ⟨c.cmdSeq, .rejectedState, 0, next.mode, .none⟩)

/-- `batch`: the arrival acknowledgement before the pending one. -/
def batch (arrival pending : Option Ack) : List Ack := arrival.toList ++ pending.toList

variable [Arith F]

/-- `initial`. -/
def initial (autoArm : Bool) : EpisodeState F :=
  ⟨.init, Control.initial, 0, none, none, none, autoArm⟩

/-- The saturating count of settled held samples. -/
def countSettled (count : ℕ) : Option (Observation F) → ℕ
  | none => 0
  | some held =>
    if Arith.le (Arith.abs held.theta) 0.02 && Arith.le (Arith.abs held.omega) 0.02 then
      if count < 1000 then count + 1 else count
    else 0

/-- A fresh sample beyond the divergence limit. A fresh input has a held sample, which the
source dereferences without a check. -/
def freshDiverged (inputs : EpisodeInput F) : Bool :=
  inputs.fresh && inputs.held.any fun held => Arith.lt 0.30 (Arith.abs held.theta)

/-- The reason that ends the run in this cycle, or `none`. -/
def terminalReason (settleCount : ℕ) (inputs : EpisodeInput F) : Reason :=
  if inputs.simReason.any fun sim => sim != 1 && sim != 2 && sim != 3 then .internal
  else match inputs.stopReason with
  | some reason => reason
  | none =>
    if inputs.simReason == some 2 || inputs.simReason == some 3 then .diverged
    else if freshDiverged inputs then .diverged
    else if 21 ≤ inputs.staleness then .sensorLost
    else if inputs.horizonReached || inputs.simReason == some 1 then
      if settleCount == 1000 then .stabilized else .notSettled
    else .none

/-- The cycle in which the run ends: both commands are refused and nothing is driven. -/
def terminate (next : EpisodeState F) (inputs : EpisodeInput F) (reason : Reason) : EpisodeOutput F :=
  let arrivalAck := inputs.command.map fun command =>
    Ack.mk command.cmdSeq ((prefixStatus command next.lastAccepted).getD .rejectedState) 0
      .terminated reason
  let pendingAck := next.pending.map fun pending =>
    Ack.mk pending.cmdSeq .rejectedState 0 .terminated reason
  let next := { next with mode := .terminated, terminal := some ⟨reason, inputs.tick⟩, pending := none }
  ⟨next, 0.0, batch arrivalAck pendingAck⟩

/-- Take an admitted command: queue it for its tick, or run it at once. -/
def accept (next : EpisodeState F) (tick : ℕ) (command : Command) : EpisodeState F × Ack :=
  let next := { next with lastAccepted := some command }
  if tick < command.effectiveTick then
    ({ next with pending := some command }, ⟨command.cmdSeq, .queued, 0, next.mode, .none⟩)
  else apply next command tick

/-- The arriving command, with the acknowledgement of a pending command it displaces. -/
def arrive (next : EpisodeState F) (tick : ℕ) (command : Option Command) :
    EpisodeState F × Option Ack × Option Ack :=
  match command with
  | none => (next, none, none)
  | some command =>
    match prefixStatus command next.lastAccepted, next.pending with
    | some status, _ => (next, some ⟨command.cmdSeq, status, 0, next.mode, .none⟩, none)
    | none, none => ((accept next tick command).1, some (accept next tick command).2, none)
    | none, some pending =>
      if isOpcode command .abort && !isOpcode pending .abort then
        -- The cancellation is captured before the replacement can terminate the run.
        let pendingAck : Ack := ⟨pending.cmdSeq, .preempted, 0, next.mode, .none⟩
        let taken := accept { next with pending := none } tick command
        (taken.1, some taken.2, some pendingAck)
      else (next, some ⟨command.cmdSeq, .rejectedPending, 0, next.mode, .none⟩, none)

/-- The pending command, run once its tick has come. -/
def runDue (next : EpisodeState F) (tick : ℕ) (pendingAck : Option Ack) :
    EpisodeState F × Option Ack :=
  match next.pending with
  | none => (next, pendingAck)
  | some due =>
    if due.effectiveTick ≤ tick then
      let run := apply { next with pending := none } due tick
      (run.1, some run.2)
    else (next, pendingAck)

/-- The mode after automatic arming. -/
def autoMode (autoArm fresh : Bool) (mode : Mode) : Mode :=
  if autoArm && fresh then
    let mode := if mode == .init then .armed else mode
    if mode == .armed then .flying else mode
  else mode

/-- The actuator command of a live cycle and the controller state it leaves. -/
def command (pid : ControlState F) (mode : Mode) (inputs : EpisodeInput F) : F × ControlState F :=
  if mode == .flying then
    if inputs.fresh then
      match inputs.held with
      | some held => Control.step pid held
      | none => (0.0, pid)
    else if inputs.staleness ≤ 8 then (pid.lastDelta, pid)
    else (0.0, pid)
  else (0.0, pid)

/-- Automatic arming and the actuator command, unless a command has just ended the run. -/
def drive (next : EpisodeState F) (inputs : EpisodeInput F) : EpisodeState F × F :=
  if next.terminal.isSome then (next, 0.0)
  else
    let mode := autoMode next.autoArm inputs.fresh next.mode
    ({ next with mode, pid := (command next.pid mode inputs).2 }, (command next.pid mode inputs).1)

/-- The cycle in which no reason ends the run: commands first, then the actuator. -/
def live (next : EpisodeState F) (inputs : EpisodeInput F) : EpisodeOutput F :=
  let arrived := arrive { next with terminal := none } inputs.tick inputs.command
  let due := runDue arrived.1 inputs.tick arrived.2.2
  let driven := drive due.1 inputs
  ⟨driven.1, driven.2, batch arrived.2.1 due.2⟩

/-- `step`. -/
def step (state : EpisodeState F) (inputs : EpisodeInput F) : EpisodeOutput F :=
  if state.mode == .terminated then ⟨state, 0.0, []⟩
  else
    let next := { state with settleCount := countSettled state.settleCount inputs.held }
    let reason := terminalReason next.settleCount inputs
    if reason != .none then terminate next inputs reason else live next inputs

/-- One step of the machine as a state change with its output. -/
def advance (state : EpisodeState F) (inputs : EpisodeInput F) : EpisodeState F × EpisodeOutput F :=
  ((step state inputs).state, step state inputs)

omit [Arith F] in
/-- Running a command leaves the settled count. -/
@[simp] theorem apply_settleCount (next : EpisodeState F) (c : Command) (tick : ℕ) :
    (apply next c tick).1.settleCount = next.settleCount := by
  unfold apply
  repeat' split
  all_goals rfl

omit [Arith F] in
/-- Taking a command leaves the settled count. -/
@[simp] theorem accept_settleCount (next : EpisodeState F) (tick : ℕ) (c : Command) :
    (accept next tick c).1.settleCount = next.settleCount := by
  unfold accept
  split <;> simp

omit [Arith F] in
/-- An arriving command leaves the settled count. -/
@[simp] theorem arrive_settleCount (next : EpisodeState F) (tick : ℕ) (c : Option Command) :
    (arrive next tick c).1.settleCount = next.settleCount := by
  unfold arrive
  repeat' split
  all_goals simp

omit [Arith F] in
/-- The pending command leaves the settled count. -/
@[simp] theorem runDue_settleCount (next : EpisodeState F) (tick : ℕ) (pendingAck : Option Ack) :
    (runDue next tick pendingAck).1.settleCount = next.settleCount := by
  unfold runDue
  repeat' split
  all_goals simp

/-- Driving leaves the settled count. -/
@[simp] theorem drive_settleCount (next : EpisodeState F) (inputs : EpisodeInput F) :
    (drive next inputs).1.settleCount = next.settleCount := by
  unfold drive
  split <;> rfl

/-- The settled count saturates at a thousand. -/
theorem countSettled_le {count : ℕ} (h : count ≤ 1000) (held : Option (Observation F)) :
    countSettled count held ≤ 1000 := by
  unfold countSettled
  repeat' split
  all_goals omega

/-- A step keeps the settled count in range. -/
theorem step_settleCount_le {state : EpisodeState F} (h : state.settleCount ≤ 1000)
    (inputs : EpisodeInput F) : (step state inputs).state.settleCount ≤ 1000 := by
  have hcount := countSettled_le h inputs.held
  unfold step
  split
  · exact h
  · dsimp only
    split
    · exact hcount
    · simpa [live] using hcount

end Episode

end Tvc
