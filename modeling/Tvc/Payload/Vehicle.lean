import Tvc.Lib.Layout
import Tvc.Telemetry

/-!
# The payload codecs of `src/telemetry.cpp`, as their callers see them

Each encoder returns whether it wrote the buffer it was handed, each decoder whether it wrote the record.
A payload is a list of blocks without a gap: an encoder stores the blocks of its fields, and what a decoder
reads has the slices of its buffer as blocks.
-/

namespace Tvc.Telem

open ByteStore

/-- `Record`, the scalars of a `telemetry_v1` payload. -/
structure Record where
  tick : U64
  deadlineNs : U64
  wokeNs : U64
  doneNs : U64
  theta : F64
  cmd : F64
  drops : U64
  deriving DecidableEq, Repr

/-- The scalars of a `command_v1` payload. -/
structure CommandFields where
  cmdSeq : U32
  opcode : U16
  flags : U16
  effectiveTick : U64
  deriving DecidableEq, Repr

/-- The scalars of an `ack_v1` payload. -/
structure AckFields where
  appliedTick : U64
  cmdSeq : U32
  status : U16
  state : U8
  reason : U8
  deriving DecidableEq, Repr

/-! ## Encoders -/

/-- `encode_record`. -/
def encodeRecordInto (p : Bytes) (r : Record) : Bool × Bytes :=
  if p.length != kTelemetryV1PayloadBytes then (false, p)
  else
    let p := putU64Le p 0 r.tick
    let p := putU64Le p 8 r.deadlineNs
    let p := putU64Le p 16 r.wokeNs
    let p := putU64Le p 24 r.doneNs
    let p := putF64Le p 32 r.theta
    let p := putF64Le p 40 r.cmd
    let p := putU64Le p 48 r.drops
    (true, p)

/-- `encode_command`. -/
def encodeCommandInto (p : Bytes) (c : CommandFields) : Bool × Bytes :=
  if p.length != kCommandV1PayloadBytes then (false, p)
  else
    let p := putU32Le p 0 c.cmdSeq
    let p := putU16Le p 4 c.opcode
    let p := putU16Le p 6 (c.flags &&& 0x0001)
    let p := putU64Le p 8 c.effectiveTick
    (true, p)

/-- `encode_ack`. -/
def encodeAckInto (p : Bytes) (a : AckFields) : Bool × Bytes :=
  if p.length != kAckV1PayloadBytes then (false, p)
  else
    let p := putU64Le p 0 a.appliedTick
    let p := putU32Le p 8 a.cmdSeq
    let p := putU16Le p 12 a.status
    let p := putU8 p 14 a.state
    let p := putU8 p 15 a.reason
    (true, p)

/-- `encode_sensor`. -/
def encodeSensorInto (p : Bytes) (s : SensorFields) : Bool × Bytes :=
  if p.length != kSensorV1PayloadBytes then (false, p)
  else
    let p := putU64Le p 0 s.tick
    let p := putU64Le p 8 s.tSendNs
    let p := putF64Le p 16 s.theta
    let p := putF64Le p 24 s.omega
    let p := putU32Le p 32 (s.flags &&& 0x0000ff07)
    let p := putU32Le p 36 s.cmdSeq
    let p := putU32Le p 40 s.simReason
    (true, p)

/-- `encode_actuator`. -/
def encodeActuatorInto (p : Bytes) (a : ActuatorFields) : Bool × Bytes :=
  if p.length != kActuatorV1PayloadBytes then (false, p)
  else
    let p := putU64Le p 0 a.tick
    let p := putU64Le p 8 a.vehTick
    let p := putU64Le p 16 a.tSensorSendNs
    let p := putU64Le p 24 a.tVehSendNs
    let p := putF64Le p 32 a.delta
    let p := putU32Le p 40 a.status
    let p := putU32Le p 44 a.staleness
    (true, p)

/-- `encode_control`: the counts are checked before anything is written. -/
def encodeControlInto (p : Bytes) (r : ControlRecord) : Bool × Bytes :=
  if p.length != kControlV1PayloadBytes ||
      !validCounts r.rxCount r.discardedOld r.discardedSuperseded r.discardedOther then (false, p)
  else
    let p := putU64Le p 0 r.tick
    let p := putU64Le p 8 r.deadlineNs
    let p := putU64Le p 16 r.wokeNs
    let p := putU64Le p 24 r.doneNs
    let p := putU64Le p 32 r.sensorSendNs
    let p := putU64Le p 40 r.rxNs
    let p := putU64Le p 48 r.txNs
    let p := putU64Le p 56 r.sensorTick
    let p := putF64Le p 64 r.theta
    let p := putF64Le p 72 r.omega
    let p := putF64Le p 80 r.cmd
    let p := putF64Le p 88 r.iState
    let p := putF64Le p 96 r.dPrev
    let p := putU64Le p 104 r.drops
    let p := putU32Le p 112 r.staleness
    let p := putU32Le p 116 r.ackCmdSeq
    let p := putU8 p 120 r.rxCount
    let p := putU8 p 121 r.discardedOld
    let p := putU8 p 122 r.discardedSuperseded
    let p := putU8 p 123 r.discardedOther
    let p := putU8 p 124 r.state
    let p := putU8 p 125 r.reason
    let p := putU8 p 126 r.flags
    let p := putU8 p 127 r.ackStatus
    (true, p)

/-! ## Decoders -/

/-- The scalars `decode_record` reads. -/
def readRecord (p : Bytes) : Record :=
  { tick := getU64Le p 0, deadlineNs := getU64Le p 8, wokeNs := getU64Le p 16, doneNs := getU64Le p 24,
    theta := getF64Le p 32, cmd := getF64Le p 40, drops := getU64Le p 48 }

/-- `decode_record`. -/
def decodeRecordInto (p : Bytes) (r : Record) : Bool × Record :=
  if p.length != kTelemetryV1PayloadBytes then (false, r) else (true, readRecord p)

/-- The scalars `decode_command` reads. -/
def readCommand (p : Bytes) : CommandFields :=
  { cmdSeq := getU32Le p 0, opcode := getU16Le p 4, flags := getU16Le p 6, effectiveTick := getU64Le p 8 }

/-- `decode_command`. -/
def decodeCommandInto (p : Bytes) (c : CommandFields) : Bool × CommandFields :=
  if p.length != kCommandV1PayloadBytes then (false, c) else (true, readCommand p)

/-- The scalars `decode_ack` reads. -/
def readAck (p : Bytes) : AckFields :=
  { appliedTick := getU64Le p 0, cmdSeq := getU32Le p 8, status := getU16Le p 12, state := getU8 p 14,
    reason := getU8 p 15 }

/-- `decode_ack`. -/
def decodeAckInto (p : Bytes) (a : AckFields) : Bool × AckFields :=
  if p.length != kAckV1PayloadBytes then (false, a) else (true, readAck p)

/-- The scalars `decode_sensor` reads. -/
def readSensor (p : Bytes) : SensorFields :=
  { tick := getU64Le p 0, tSendNs := getU64Le p 8, theta := getF64Le p 16, omega := getF64Le p 24,
    flags := getU32Le p 32, cmdSeq := getU32Le p 36, simReason := getU32Le p 40 }

/-- `decode_sensor`. -/
def decodeSensorInto (p : Bytes) (s : SensorFields) : Bool × SensorFields :=
  if p.length != kSensorV1PayloadBytes then (false, s) else (true, readSensor p)

/-- The scalars `decode_actuator` reads. -/
def readActuator (p : Bytes) : ActuatorFields :=
  { tick := getU64Le p 0, vehTick := getU64Le p 8, tSensorSendNs := getU64Le p 16, tVehSendNs := getU64Le p 24,
    delta := getF64Le p 32, status := getU32Le p 40, staleness := getU32Le p 44 }

/-- `decode_actuator`. -/
def decodeActuatorInto (p : Bytes) (a : ActuatorFields) : Bool × ActuatorFields :=
  if p.length != kActuatorV1PayloadBytes then (false, a) else (true, readActuator p)

/-- The scalars `decode_control` reads. -/
def readControl (p : Bytes) : ControlRecord :=
  { tick := getU64Le p 0, deadlineNs := getU64Le p 8, wokeNs := getU64Le p 16, doneNs := getU64Le p 24,
    sensorSendNs := getU64Le p 32, rxNs := getU64Le p 40, txNs := getU64Le p 48, sensorTick := getU64Le p 56,
    theta := getF64Le p 64, omega := getF64Le p 72, cmd := getF64Le p 80, iState := getF64Le p 88,
    dPrev := getF64Le p 96, drops := getU64Le p 104, staleness := getU32Le p 112, ackCmdSeq := getU32Le p 116,
    rxCount := getU8 p 120, discardedOld := getU8 p 121, discardedSuperseded := getU8 p 122,
    discardedOther := getU8 p 123, state := getU8 p 124, reason := getU8 p 125, flags := getU8 p 126,
    ackStatus := getU8 p 127 }

/-- `decode_control`: the counts are checked in the buffer, before anything is read from it. -/
def decodeControlInto (p : Bytes) (r : ControlRecord) : Bool × ControlRecord :=
  if p.length != kControlV1PayloadBytes then (false, r)
  else if !validCounts (getU8 p 120) (getU8 p 121) (getU8 p 122) (getU8 p 123) then (false, r)
  else (true, readControl p)

/-- The sensor encoder refuses what leaves no payload. -/
theorem encodeSensorInto_eq (p : Bytes) (s : SensorFields) :
    encodeSensorInto p s = ((encodeSensor p s).isSome, (encodeSensor p s).getD p) := by
  unfold encodeSensorInto encodeSensor
  split <;> rfl

/-- The actuator encoder refuses what leaves no payload. -/
theorem encodeActuatorInto_eq (p : Bytes) (a : ActuatorFields) :
    encodeActuatorInto p a = ((encodeActuator p a).isSome, (encodeActuator p a).getD p) := by
  unfold encodeActuatorInto encodeActuator
  split <;> rfl

/-- The control encoder refuses what leaves no payload. -/
theorem encodeControlInto_eq (p : Bytes) (r : ControlRecord) :
    encodeControlInto p r = ((encodeControl p r).isSome, (encodeControl p r).getD p) := by
  unfold encodeControlInto encodeControl
  by_cases h : (p.length != kControlV1PayloadBytes ||
      !validCounts r.rxCount r.discardedOld r.discardedSuperseded r.discardedOther) = true
  · rw [if_pos h, if_pos h, Option.isSome_none, Option.getD_none]
  · rw [if_neg h, if_neg h]
    dsimp only [Option.isSome_some, Option.getD_some]

/-- The sensor decoder refuses what leaves no fields. -/
theorem decodeSensorInto_eq (p : Bytes) (s : SensorFields) :
    decodeSensorInto p s = ((decodeSensor p).isSome, (decodeSensor p).getD s) := by
  unfold decodeSensorInto decodeSensor
  split <;> rfl

/-- The actuator decoder refuses what leaves no fields. -/
theorem decodeActuatorInto_eq (p : Bytes) (a : ActuatorFields) :
    decodeActuatorInto p a = ((decodeActuator p).isSome, (decodeActuator p).getD a) := by
  unfold decodeActuatorInto decodeActuator
  split <;> rfl

end Tvc.Telem
