import Tvc.Datagram
import Tvc.Episode

/-!
# The lockstep session of `src/lockstep.cpp`

In lockstep the vehicle runs one policy cycle for each tick the simulator sends, and answers a
repeated request with the reply it kept. `receive` refuses a datagram, recognises a repeat, or
executes the policy; the other calls note what became of the reply and of the record.

Ticks and counters are natural numbers. The source adds to a tick in two places: the successor
of the newest answered tick is compared only with a larger tick, so it does not wrap, and the
effective tick of a command does wrap, as do the cycles counted while nothing is held.
-/

namespace Tvc.Lockstep

open Telem (ControlRecord)

/-- `ReceiveCounters`. -/
structure ReceiveCounters where
  receivedRaw : ℕ := 0
  malformed : ℕ := 0
  received : ℕ := 0
  decodePending : ℕ := 0
  logicalReceived : ℕ := 0
  discardedDuplicate : ℕ := 0
  rejectedReceived : ℕ := 0
  classificationPending : ℕ := 0
  admitted : ℕ := 0
  sampleInvalid : ℕ := 0
  sampleNonfinite : ℕ := 0
  admissionPending : ℕ := 0
  discardedOld : ℕ := 0
  discardedTickConflict : ℕ := 0
  skippedTick : ℕ := 0
  badSync : ℕ := 0
  badVersion : ℕ := 0
  badType : ℕ := 0
  badLength : ℕ := 0
  badCrc : ℕ := 0
  deriving DecidableEq, Repr

/-- `SendCounters`. -/
structure SendCounters where
  generated : ℕ := 0
  originalAttempts : ℕ := 0
  retryAttempts : ℕ := 0
  notAttempted : ℕ := 0
  sendAttempts : ℕ := 0
  sendPending : ℕ := 0
  txFail : ℕ := 0
  transmitted : ℕ := 0
  firstTransmitted : ℕ := 0
  additionalCopies : ℕ := 0
  neverTransmitted : ℕ := 0
  originalTxFail : ℕ := 0
  deriving DecidableEq, Repr

/-- `CycleCounters`. -/
structure CycleCounters where
  episodeTransitions : ℕ := 0
  pidCalls : ℕ := 0
  recordAttempts : ℕ := 0
  recordsPushed : ℕ := 0
  ringDrops : ℕ := 0
  recordPending : ℕ := 0
  deriving DecidableEq, Repr

/-- `Disposition`. -/
inductive Disposition
  | discard | new | cached | fatal
  deriving DecidableEq, Repr

/-! ## Acknowledgements on the wire -/

/-- The command was run: `APPLIED` or `APPLIED_LATE`. -/
def isApplied (ack : Ack) : Bool := ack.status == .applied || ack.status == .appliedLate

/-- `AckProjection`; no selection is the source's index −1. -/
structure AckProjection where
  selected : Option Ack := none
  applied : Bool := false
  deriving DecidableEq, Repr

/-- `project_ack`: the first acknowledgement, or the first that was applied. -/
def projectAck (acks : List Ack) : AckProjection :=
  acks.foldl
    (fun result ack =>
      { selected :=
          if result.selected.isNone || (isApplied ack && !result.applied) then some ack
          else result.selected
        applied := result.applied || isApplied ack })
    {}

/-- `apply_acks`: the status byte of the reply, and the record with its acknowledgement. -/
def applyAcks (acks : List Ack) (record : ControlRecord) : U8 × ControlRecord :=
  let projection := projectAck acks
  let record := { record with flags := record.flags &&& ~~~68, ackCmdSeq := 0, ackStatus := 0 }
  match projection.selected with
  | none => (0, record)
  | some ack =>
    let status := BitVec.ofNat 8 ack.status.toNat
    let record := { record with ackCmdSeq := ack.cmdSeq, ackStatus := status, flags := record.flags ||| 64 }
    let record := if projection.applied then { record with flags := record.flags ||| 4 } else record
    (0x80 ||| status, record)

/-! ## The session -/

/-- `Session`. -/
structure Session where
  up : ReceiveCounters := {}
  down : SendCounters := {}
  events : CycleCounters := {}
  state : EpisodeState F64
  held : Option (Observation F64) := none
  simSeen : Option U32 := none
  fault : Option TerminalResult := none
  acks : List Ack := []
  answered : Bool := false
  replyTransmitted : Bool := false
  integrity : Bool := false
  newestAnswered : ℕ := 0
  lastPayload : Bytes := List.replicate Telem.kSensorV1PayloadBytes 0
  reply : Bytes := List.replicate (Telem.kFrameOverhead + Telem.kActuatorV1PayloadBytes) 0
  record : ControlRecord := {}

/-- The counter of a refused datagram. -/
def countBad (up : ReceiveCounters) : Telem.DatagramError → ReceiveCounters
  | .badSync => { up with badSync := up.badSync + 1 }
  | .badVersion => { up with badVersion := up.badVersion + 1 }
  | .badType => { up with badType := up.badType + 1 }
  | .badLength => { up with badLength := up.badLength + 1 }
  | .badCrc => { up with badCrc := up.badCrc + 1 }

/-- A refused datagram is not a logical one. -/
@[simp] theorem countBad_logicalReceived (up : ReceiveCounters) (e : Telem.DatagramError) :
    (countBad up e).logicalReceived = up.logicalReceived := by
  cases e <;> rfl

/-- The counter of the sample of an executed frame. -/
def countSample (up : ReceiveCounters) (fresh valid : Bool) : ReceiveCounters :=
  if fresh then { up with admitted := up.admitted + 1 }
  else if !valid then { up with sampleInvalid := up.sampleInvalid + 1 }
  else { up with sampleNonfinite := up.sampleNonfinite + 1 }

/-- The sample does not change the number of logical datagrams. -/
@[simp] theorem countSample_logicalReceived (up : ReceiveCounters) (fresh valid : Bool) :
    (countSample up fresh valid).logicalReceived = up.logicalReceived := by
  cases fresh <;> cases valid <;> rfl

/-- The command a frame carries. -/
def commandOf (f : Frame) : Option Command :=
  if f.fields.flags &&& 4 != 0 then
    some ⟨f.fields.cmdSeq, ((f.fields.flags >>> 8) &&& 255).toNat, (f.tick + 50) % 2 ^ 64⟩
  else none

/-- The simulator reason a frame carries. -/
def simReasonOf (f : Frame) : Option U32 := if f.terminal then some f.fields.simReason else none

/-- A usable sample. -/
def isFresh (f : Frame) : Bool := f.valid && f.finite

/-- The observation held after a frame. -/
def heldAfter (held : Option (Observation F64)) (f : Frame) : Option (Observation F64) :=
  if isFresh f then some ⟨f.tick, f.fields.theta, f.fields.omega, true⟩ else held

/-- The age of the held observation, or the cycles run when there is none. -/
def ageOf (held : Option (Observation F64)) (tick cycle : ℕ) : ℕ :=
  min (match held with
    | some held => tick - held.tick
    | none => (cycle + 1) % 2 ^ 64) 0xffffffff

/-- The rung of the degradation ladder. -/
def rungOf (age : ℕ) (fresh : Bool) : ℕ :=
  if 21 ≤ age then 3 else if fresh then 0 else if age ≤ 8 then 1 else 2

/-- The inputs of the policy for a frame. -/
def inputsOf (held : Option (Observation F64)) (cycle : ℕ) (f : Frame) : EpisodeInput F64 where
  tick := f.tick
  held := heldAfter held f
  fresh := isFresh f
  staleness := ageOf (heldAfter held f) f.tick cycle
  command := commandOf f
  horizonReached := false
  simReason := (simReasonOf f).map BitVec.toNat
  stopReason := none

variable [Arith F64]

/-- The record of a cycle before its acknowledgements. -/
def recordOf (inputs : EpisodeInput F64) (f : Frame) (result : EpisodeOutput F64) : ControlRecord :=
  let rung := rungOf inputs.staleness inputs.fresh
  let why := (result.state.terminal.map TerminalResult.reason).getD .none
  let record : ControlRecord :=
    { tick := f.fields.tick
      sensorTick := inputs.held.elim (BitVec.allOnes 64) fun held => BitVec.ofNat 64 held.tick
      theta := inputs.held.elim 0.0 Observation.theta
      omega := inputs.held.elim 0.0 Observation.omega
      cmd := result.requestedDelta
      iState := result.state.pid.iState
      dPrev := result.state.pid.dPrev
      staleness := BitVec.ofNat 32 inputs.staleness
      rxCount := 1
      state := BitVec.ofNat 8 result.state.mode.toNat
      reason := BitVec.ofNat 8 why.toNat
      flags := (if inputs.fresh then 1 else 0) ||| (if rung == 1 then 8 else 0) |||
        (if rung == 2 then 16 else 0) }
  if f.valid && !inputs.fresh then { record with discardedOther := 1, flags := record.flags ||| 128 }
  else record

/-- The status word of a reply. -/
def statusOf (record : ControlRecord) (rung : ℕ) (ackByte : U8) : U32 :=
  record.state.setWidth 32 ||| (record.reason.setWidth 32 <<< 8) ||| (BitVec.ofNat 32 rung <<< 16) |||
    (ackByte.setWidth 32 <<< 24)

/-- The fields of a reply. -/
def replyFields (inputs : EpisodeInput F64) (cycle : ℕ) (f : Frame) (result : EpisodeOutput F64) :
    Telem.ActuatorFields :=
  let acked := applyAcks result.acks (recordOf inputs f result)
  { tick := f.fields.tick
    vehTick := BitVec.ofNat 64 cycle
    tSensorSendNs := 0
    tVehSendNs := 0
    delta := result.requestedDelta
    status := statusOf acked.2 (rungOf inputs.staleness inputs.fresh) acked.1
    staleness := BitVec.ofNat 32 inputs.staleness }

/-- The reply frame; the payload buffer has the size `encode_actuator` asks for. -/
def replyFrame (cycle : ℕ) (fields : Telem.ActuatorFields) : Bytes :=
  let payload := List.replicate Telem.kActuatorV1PayloadBytes 0
  Telem.encodeFrame 5 (BitVec.ofNat 32 cycle) ((Telem.encodeActuator payload fields).getD payload)

namespace Session

/-- The constructor. -/
def initial (autoArm : Bool) : Session := { state := Episode.initial autoArm }

/-- The part of `receive` that executes the policy, for the frame of the next tick. -/
def execute (s : Session) (f : Frame) : Session :=
  let cycle := s.up.logicalReceived
  let inputs := inputsOf s.held cycle f
  let result := Episode.step s.state inputs
  { up := countSample { s.up with logicalReceived := s.up.logicalReceived + 1 } inputs.fresh f.valid
    down :=
      { s.down with
        generated := s.down.generated + 1
        notAttempted := s.down.notAttempted + 1
        neverTransmitted := s.down.neverTransmitted + 1 }
    events :=
      { s.events with
        episodeTransitions := s.events.episodeTransitions + 1
        recordPending := s.events.recordPending + 1
        -- The episode calls the controller once for a fresh sample in flight.
        pidCalls := s.events.pidCalls + (inputs.fresh && result.state.mode == .flying).toNat }
    state := result.state
    held := inputs.held
    simSeen := (simReasonOf f).or s.simSeen
    fault := s.fault
    acks := result.acks
    answered := true
    replyTransmitted := false
    integrity := s.integrity || (f.terminal && f.illegalReason)
    newestAnswered := f.tick
    lastPayload := f.payload
    reply := replyFrame cycle (replyFields inputs cycle f result)
    record := (applyAcks result.acks (recordOf inputs f result)).2 }

/-- `receive`. -/
def receive (s : Session) (d : Datagram) : Session × Disposition :=
  let s := { s with up.receivedRaw := s.up.receivedRaw + 1 }
  match d.frame with
  | .error e =>
    ({ s with up := countBad { s.up with malformed := s.up.malformed + 1 } e, integrity := true }, .discard)
  | .ok f =>
    let s := { s with up.received := s.up.received + 1 }
    if s.answered && f.tick == s.newestAnswered then
      if f.payload == s.lastPayload then
        ({ s with up.discardedDuplicate := s.up.discardedDuplicate + 1 }, .cached)
      else
        ({ s with
            up :=
              { s.up with
                rejectedReceived := s.up.rejectedReceived + 1
                discardedTickConflict := s.up.discardedTickConflict + 1 }
            integrity := true }, .discard)
    else if s.answered && f.tick < s.newestAnswered then
      ({ s with
          up :=
            { s.up with
              rejectedReceived := s.up.rejectedReceived + 1
              discardedOld := s.up.discardedOld + 1 } }, .discard)
    else if (!s.answered && f.tick != 0) || (s.answered && f.tick != s.newestAnswered + 1) then
      ({ s with
          up :=
            { s.up with
              rejectedReceived := s.up.rejectedReceived + 1
              skippedTick := s.up.skippedTick + 1 }
          fault := some ⟨if s.answered then .internal else .peerLost, f.tick⟩ }, .fatal)
    else (s.execute f, .new)

/-- `begin_send`. -/
def beginSend (s : Session) (original : Bool) : Session :=
  let down := { s.down with sendAttempts := s.down.sendAttempts + 1, sendPending := s.down.sendPending + 1 }
  { s with
    down :=
      if original then
        { down with originalAttempts := down.originalAttempts + 1, notAttempted := down.notAttempted - 1 }
      else { down with retryAttempts := down.retryAttempts + 1 } }

/-- `finish_send`. -/
def finishSend (s : Session) (original success : Bool) : Session :=
  let down := { s.down with sendPending := s.down.sendPending - 1 }
  let s :=
    if success then
      let down := { down with transmitted := down.transmitted + 1 }
      if s.replyTransmitted then
        { s with down := { down with additionalCopies := down.additionalCopies + 1 } }
      else
        { s with
          down :=
            { down with
              firstTransmitted := down.firstTransmitted + 1
              neverTransmitted := down.neverTransmitted - 1 }
          replyTransmitted := true }
    else
      { s with
        down :=
          { down with
            txFail := down.txFail + 1
            originalTxFail := down.originalTxFail + original.toNat } }
  if original && success then { s with record.flags := s.record.flags ||| 2 } else s

/-- `note_record`. -/
def noteRecord (s : Session) (pushed : Bool) : Session :=
  let events :=
    { s.events with
      recordAttempts := s.events.recordAttempts + 1
      recordPending := s.events.recordPending - 1 }
  { s with
    events :=
      if pushed then { events with recordsPushed := events.recordsPushed + 1 }
      else { events with ringDrops := events.ringDrops + 1 } }

/-- `stop`. -/
def stop (s : Session) (why : Reason) : Session :=
  if s.state.terminal.isNone && s.fault.isNone then
    { s with fault := some ⟨why, if s.answered then s.newestAnswered else 0⟩ }
  else s

/-- `reason`. -/
def reason (s : Session) : Reason := ((s.fault.or s.state.terminal).map TerminalResult.reason).getD .none

/-- `reason_tick`. -/
def reasonTick (s : Session) : ℕ := ((s.fault.or s.state.terminal).map TerminalResult.tick).getD 0

end Session

end Tvc.Lockstep
