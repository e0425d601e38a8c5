import Tvc.Episode

/-!
# The reference episode machine of `sim/episode.py`

The Python machine rebuilds its state from separate mode, terminal, pending and last-accepted
values instead of mutating one record, and masks the sequence gap by hand. It shares the data
types of the C++ machine, whose widths bound what the simulator feeds it.
-/

namespace Tvc.EpisodeRef

variable {F : Type}

/-- `command.opcode == opcode` for a raw opcode. -/
def opcodeIs (command : Command) (opcode : Opcode) : Bool := command.opcode == opcode.toNat

/-- `_prefix`; the gap is an unbounded difference masked to 32 bits. -/
def prefixStatus (command : Command) (last : Option Command) : Option AckStatus :=
  if !(opcodeIs command .arm || opcodeIs command .launch || opcodeIs command .abort) then
    some .rejectedOpcode
  else
    match last with
    | some last =>
      if command.cmdSeq.toNat == last.cmdSeq.toNat then
        if command.opcode == last.opcode && command.effectiveTick == last.effectiveTick then
          some .duplicate
        else some .rejectedIdentity
      else
        let gap : ℤ := ((command.cmdSeq.toNat : ℤ) - last.cmdSeq.toNat) % 0x100000000
        if !(1 ≤ gap && gap < 0x80000000) then some .rejectedStale else none
    | none => none

/-- `_apply`. -/
def apply (mode : Mode) (command : Command) (tick : ℕ) : Mode × Option TerminalResult × Ack :=
  let status := if command.effectiveTick == tick then AckStatus.applied else .appliedLate
  if opcodeIs command .arm && mode == .init then
    (.armed, none, ⟨command.cmdSeq, status, tick, .armed, .none⟩)
  else if opcodeIs command .launch && mode == .armed then
    (.flying, none, ⟨command.cmdSeq, status, tick, .flying, .none⟩)
  else if opcodeIs command .abort && (mode == .armed || mode == .flying) then
    (.terminated, some ⟨.groundAbort, tick⟩, ⟨command.cmdSeq, status, tick, .terminated, .groundAbort⟩)
  else (mode, none, ⟨command.cmdSeq, .rejectedState, 0, mode, .none⟩)

variable [Arith F]

/-- `initial`. -/
def initial (autoArm : Bool) : EpisodeState F :=
  ⟨.init, ControlRef.initial, 0, none, none, none, autoArm⟩

/-- The new settled count. -/
def settledCount (count : ℕ) (held : Option (Observation F)) : ℕ :=
  match held with
  | none => 0
  | some held =>
    if Arith.le (Arith.abs held.theta) 0.02 && Arith.le (Arith.abs held.omega) 0.02 then
      min (count + 1) 1000
    else 0

/-- `sim_reason` is present and none of the three the simulator may report. -/
def unknownSim (simReason : Option ℕ) : Bool :=
  match simReason with
  | some sim => !(sim == SimReason.horizon.toNat || sim == SimReason.locAngle.toNat ||
      sim == SimReason.locNonfinite.toNat)
  | none => false

/-- `inputs.fresh and abs(held.theta) > 0.30`; a fresh input has a held sample. -/
def freshDiverged (inputs : EpisodeInput F) : Bool :=
  match inputs.held with
  | some held => inputs.fresh && Arith.lt 0.30 (Arith.abs held.theta)
  | none => false

/-- The reason chosen before any command is looked at. -/
def chooseReason (count : ℕ) (inputs : EpisodeInput F) : Reason :=
  if unknownSim inputs.simReason then .internal
  else match inputs.stopReason with
  | some reason => reason
  | none =>
    if inputs.simReason == some SimReason.locAngle.toNat ||
        inputs.simReason == some SimReason.locNonfinite.toNat then .diverged
    else if freshDiverged inputs then .diverged
    else if 21 ≤ inputs.staleness then .sensorLost
    else if inputs.horizonReached || inputs.simReason == some SimReason.horizon.toNat then
      if count == 1000 then .stabilized else .notSettled
    else .none

/-- The acknowledgements that were made, in order. -/
def ackTuple (arrivalAck pendingAck : Option Ack) : List Ack :=
  [arrivalAck, pendingAck].filterMap id

/-- The acknowledgement of a command that arrives in the cycle that ends the run. -/
def refuseArrival (command last : Option Command) (reason : Reason) : Option Ack :=
  match command with
  | some command =>
    let status := match prefixStatus command last with
      | none => AckStatus.rejectedState
      | some status => status
    some ⟨command.cmdSeq, status, 0, .terminated, reason⟩
  | none => none

/-- The acknowledgement of the command that the end of the run leaves undone. -/
def refusePending (pending : Option Command) (reason : Reason) : Option Ack :=
  match pending with
  | some pending => some ⟨pending.cmdSeq, .rejectedState, 0, .terminated, reason⟩
  | none => none

/-- The values the live part of `step` threads through its command handling. -/
structure Locals where
  mode : Mode
  terminal : Option TerminalResult
  pending : Option Command
  last : Option Command
  arrivalAck : Option Ack
  pendingAck : Option Ack

/-- The status of a command against the prefix and the pending slot, cancelling a pending
command that an abort displaces. -/
def screen (v : Locals) (command : Command) : Option AckStatus × Locals :=
  match prefixStatus command v.last, v.pending with
  | none, some pending =>
    if opcodeIs command .abort && !opcodeIs pending .abort then
      -- The cancellation is captured before the replacing abort can change the mode.
      let pendingAck : Ack := ⟨pending.cmdSeq, .preempted, 0, v.mode, .none⟩
      (none, { v with pendingAck := some pendingAck, pending := none })
    else (some .rejectedPending, v)
  | status, _ => (status, v)

/-- The block under `if command is not None` of a live cycle. -/
def arrival (v : Locals) (tick : ℕ) (command : Option Command) : Locals :=
  match command with
  | none => v
  | some command =>
    match screen v command with
    | (some status, v) => { v with arrivalAck := some ⟨command.cmdSeq, status, 0, v.mode, .none⟩ }
    | (none, v) =>
      if tick < command.effectiveTick then
        { v with last := some command, pending := some command,
                 arrivalAck := some ⟨command.cmdSeq, .queued, 0, v.mode, .none⟩ }
      else
        let (mode, terminal, ack) := apply v.mode command tick
        { v with last := some command, mode, terminal, arrivalAck := some ack }

/-- The block that runs a due pending command. -/
def due (v : Locals) (tick : ℕ) : Locals :=
  match v.pending with
  | some pending =>
    if pending.effectiveTick ≤ tick then
      let (mode, terminal, ack) := apply v.mode pending tick
      { v with pending := none, mode, terminal, pendingAck := some ack }
    else v
  | none => v

/-- The mode after automatic arming. -/
def autoMode (autoArm fresh : Bool) (mode : Mode) : Mode :=
  if autoArm && fresh then
    let mode := if mode == .init then .armed else mode
    if mode == .armed then .flying else mode
  else mode

/-- The actuator command and the controller state of a live cycle. -/
def command (pid : ControlState F) (mode : Mode) (inputs : EpisodeInput F) : F × ControlState F :=
  if mode == .flying then
    if inputs.fresh then
      match inputs.held with
      | some held => ControlRef.step pid held
      | none => (0.0, pid)
    else if inputs.staleness ≤ 8 then (pid.lastDelta, pid)
    else (0.0, pid)
  else (0.0, pid)

/-- `step`. -/
def step (state : EpisodeState F) (inputs : EpisodeInput F) : EpisodeOutput F :=
  if state.mode == .terminated then ⟨state, 0.0, []⟩
  else
    let count := settledCount state.settleCount inputs.held
    let reason := chooseReason count inputs
    if reason != .none then
      ⟨⟨.terminated, state.pid, count, none, state.lastAccepted, some ⟨reason, inputs.tick⟩,
        state.autoArm⟩, 0.0, ackTuple (refuseArrival inputs.command state.lastAccepted reason)
          (refusePending state.pending reason)⟩
    else
      let v : Locals := ⟨state.mode, none, state.pending, state.lastAccepted, none, none⟩
      let v := due (arrival v inputs.tick inputs.command) inputs.tick
      let acks := ackTuple v.arrivalAck v.pendingAck
      if v.terminal.isNone then
        let mode := autoMode state.autoArm inputs.fresh v.mode
        let (delta, pid) := command state.pid mode inputs
        ⟨⟨mode, pid, count, v.pending, v.last, v.terminal, state.autoArm⟩, delta, acks⟩
      else
        ⟨⟨v.mode, state.pid, count, v.pending, v.last, v.terminal, state.autoArm⟩, 0.0, acks⟩

/-- One step of the machine as a state change with its output. -/
def advance (state : EpisodeState F) (inputs : EpisodeInput F) : EpisodeState F × EpisodeOutput F :=
  ((step state inputs).state, step state inputs)

end Tvc.EpisodeRef
