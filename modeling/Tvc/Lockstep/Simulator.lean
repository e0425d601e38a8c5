import Tvc.GroundWire
import Tvc.Simulator

/-!
# The lockstep simulator of `sim/run_sim.py`

`execute` runs one tick after another: it draws the losses, builds the sensor frame, and sends
it again and again until a reply of the same tick arrives, then moves the actuator and steps the
plant. Here the loop is cut where it waits for the network, at most twenty-six times a tick. The
options that inject faults in tests are left out: a send that fails and a reply that is thrown
away are things the network may do to it anyway.
-/

namespace Tvc.Lockstep

/-- The counters `up` of `execute`. -/
structure UplinkCounts where
  generated : ℕ := 0
  originalAttempts : ℕ := 0
  retryAttempts : ℕ := 0
  notAttempted : ℕ := 0
  sendAttempts : ℕ := 0
  sendPending : ℕ := 0
  txFail : ℕ := 0
  transmitted : ℕ := 0
  firstTransmitted : ℕ := 0
  additionalCopies : ℕ := 0
  neverTransmitted : ℕ := 0
  modeledSampleLoss : ℕ := 0
  firstTick : Option ℕ := none
  lastTick : Option ℕ := none
  deriving DecidableEq, Repr

/-- The counters `down` of `execute`. -/
structure DownlinkCounts where
  receivedRaw : ℕ := 0
  malformed : ℕ := 0
  received : ℕ := 0
  decodePending : ℕ := 0
  logicalReceived : ℕ := 0
  discardedDuplicate : ℕ := 0
  rejectedReceived : ℕ := 0
  classificationPending : ℕ := 0
  modeledCommandLoss : ℕ := 0
  forwardedToDelay : ℕ := 0
  dispositionPending : ℕ := 0
  testDiscarded : ℕ := 0
  discardedOld : ℕ := 0
  deriving DecidableEq, Repr

/-- A row of the report; the words are the patterns of the doubles. -/
structure SimRow where
  tick : ℕ
  hasSample : Bool
  applied : Bool
  theta : F64
  omega : F64
  cmdApplied : F64
  deriving DecidableEq, Repr

/-- The variables of the loop that the network does not touch. -/
structure Course where
  tick : ℕ := 0
  streamUp : U64
  streamDown : U64
  draws : ℕ := 0
  truth : TruthState F64
  act : ActuatorState F64
  delay : List (Option F64)
  rows : List SimRow := []
  replies : List Wire.Fields := []
  commandSeq : U32 := 0
  pendingReason : Option SimReason := none
  finalReason : SimReason := .peerLost
  vehicleSeen : Option ℕ := none
  broken : Bool := false

/-- What a tick sends, with what it needs when the reply is there. -/
structure Request where
  tick : ℕ
  upDrop : Bool
  downDrop : Bool
  disturbance : Disturbance F64
  observation : Observation F64
  simReason : Option SimReason
  frame : Bytes

variable [Arith F64]

/-- The loop before its first tick. -/
def Course.initial (spec : Scenario F64) (seed : U64) (delayTicks : Fin 2) : Course where
  streamUp := Rng.streamState seed .linkLossUp
  streamDown := Rng.streamState seed .linkLossDown
  truth := spec.initial
  act := Actuator.initial
  delay := List.replicate delayTicks none

omit [Arith F64] in
/-- The flag word of a sensor frame. -/
def flagsOf (upDrop : Bool) (opcode : Option Opcode) (simReason : Option SimReason) : U32 :=
  let flags : U32 := if upDrop then 0 else 1
  let flags := opcode.elim flags fun opcode => flags ||| (4 ||| (BitVec.ofNat 32 opcode.toNat <<< 8))
  if simReason.isSome then flags ||| 2 else flags

/-- The sensor frame of a tick; a tick beyond 64 bits is not written. -/
def sensorFrame (tick : ℕ) (upDrop : Bool) (observation : Observation F64) (opcode : Option Opcode)
    (commandSeq : U32) (simReason : Option SimReason) : Except Wire.Failure Bytes := do
  let payload ← Wire.encodePayload 4
    [(.tick, .int tick), (.tSendNs, .int 0),
      (.theta, .float (if upDrop then 0.0 else observation.theta)),
      (.omega, .float (if upDrop then 0.0 else observation.omega)),
      (.flags, .int (flagsOf upDrop opcode simReason).toNat),
      (.cmdSeq, .int (if opcode.isSome then commandSeq.toNat else 0)),
      (.simReason, .int (simReason.elim 0 SimReason.toNat : ℕ))]
  Wire.encodeFrame 4 tick payload

/-- The part of a tick before its first send. -/
def Course.request (spec : Scenario F64) (c : Course) : Except Wire.Failure (Course × Request) :=
  let tick := c.tick
  let (rawUp, streamUp) := drawDrop c.streamUp spec.lossUp
  let (rawDown, streamDown) := drawDrop c.streamDown spec.lossDown
  let upDrop := (spec.forcedDropAt tick .up).getD rawUp
  let downDrop := (spec.forcedDropAt tick .down).getD rawDown
  let disturbance := spec.disturbanceAt tick fixedEnvironment
  let observation := observe tick c.truth
  let simReason :=
    if c.pendingReason.isNone && tick == spec.ticks - 1 then some .horizon else c.pendingReason
  let opcode := spec.commandAt tick
  let commandSeq := if opcode.isSome then c.commandSeq + 1 else c.commandSeq
  (sensorFrame tick upDrop observation opcode commandSeq simReason).map fun frame =>
    ({ c with streamUp, streamDown, draws := c.draws + 1, commandSeq },
      ⟨tick, upDrop, downDrop, disturbance, observation, simReason, frame⟩)

/-- The part of a tick after its reply. -/
def Course.complete (c : Course) (r : Request) (answer : Wire.Fields) : Course :=
  let delay := c.delay ++ [if r.downDrop then none else some (answer.float .delta)]
  let arriving := delay.headD none
  let act := Actuator.step c.act arriving
  let row : SimRow :=
    { tick := r.tick
      hasSample := !r.upDrop && r.observation.theta.isFinite && r.observation.omega.isFinite
      applied := arriving.isSome
      theta := c.truth.theta
      omega := c.truth.omega
      cmdApplied := act.applied }
  let status := (answer.int .status).toNat
  let state := status % 256
  let reason := status / 256 % 256
  let c := { c with tick := c.tick + 1, delay := delay.tail, act, rows := c.rows ++ [row],
                    replies := c.replies ++ [answer]
                    vehicleSeen := if state == 3 then some reason else c.vehicleSeen }
  match r.simReason with
  | some simReason => { c with finalReason := simReason, broken := true }
  | none =>
    if state == 3 then { c with finalReason := .vehicleTerminal, broken := true }
    else
      let truth := Plant.step c.truth act fixedEnvironment r.disturbance ControlRef.dt
      { c with truth, pendingReason := (Plant.lossOfControl truth).or c.pendingReason }

/-! ## Replies -/

/-- What the wait loop makes of a datagram. -/
inductive Receipt
  | malformed
  | stale (again : Bool)
  | invalid
  | answer (value : Wire.Fields)

omit [Arith F64] in
/-- The tests of the wait loop, in order. -/
def receiptOf (tick : ℕ) (lastReply : Option Bytes) (data : Bytes) : Receipt :=
  match Wire.decodeDatagram data [5] >>= fun frame => Wire.decodePayload 5 frame.2.2 with
  | .error _ => .malformed
  | .ok value =>
    if value.int .tick != tick then .stale (lastReply == some data)
    else if value.int .vehTick != tick || !(value.float .delta).isFinite then .invalid
    else if value.int .tSensorSendNs != 0 || value.int .tVehSendNs != 0 then .invalid
    else .answer value

/-! ## The process -/

/-- Where the process stands: before a tick, before or after a send of its request, or done. -/
inductive Phase
  | ready
  | sending (r : Request) (attempt : ℕ) (logged : Bool)
  | waiting (r : Request) (attempt : ℕ) (logged : Bool)
  | finished
  | failed

/-- The simulator process. -/
structure Sim where
  course : Course
  up : UplinkCounts := {}
  down : DownlinkCounts := {}
  lastReply : Option Bytes := none
  inputs : List Bytes := []
  phase : Phase := .ready

namespace Sim

/-- The process as it starts. -/
def initial (spec : Scenario F64) (seed : U64) (delayTicks : Fin 2) : Sim :=
  { course := .initial spec seed delayTicks }

/-- Start the next tick, unless the loop has ended. -/
def begin (spec : Scenario F64) (s : Sim) : Sim :=
  if s.course.broken || spec.ticks ≤ s.course.tick then { s with phase := .finished }
  else match s.course.request spec with
  | .error _ => { s with phase := .failed }
  | .ok (course, r) =>
    { s with
      course
      up :=
        { s.up with
          modeledSampleLoss := s.up.modeledSampleLoss + r.upDrop.toNat
          generated := s.up.generated + 1
          notAttempted := s.up.notAttempted + 1
          neverTransmitted := s.up.neverTransmitted + 1
          firstTick := s.up.firstTick.or (some r.tick)
          lastTick := some r.tick }
      phase := .sending r 0 false }

omit [Arith F64] in
/-- One attempt to send the request. -/
def send (s : Sim) (r : Request) (attempt : ℕ) (logged ok : Bool) : Sim :=
  let up := { s.up with sendAttempts := s.up.sendAttempts + 1 }
  let up :=
    if attempt == 0 then
      { up with originalAttempts := up.originalAttempts + 1, notAttempted := up.notAttempted - 1 }
    else { up with retryAttempts := up.retryAttempts + 1 }
  let up :=
    if !ok then { up with txFail := up.txFail + 1 }
    else if logged then
      { up with transmitted := up.transmitted + 1, additionalCopies := up.additionalCopies + 1 }
    else
      { up with
        transmitted := up.transmitted + 1
        firstTransmitted := up.firstTransmitted + 1
        neverTransmitted := up.neverTransmitted - 1 }
  { s with
    up
    inputs := if ok && !logged then s.inputs ++ [r.frame] else s.inputs
    phase := .waiting r attempt (logged || ok) }

omit [Arith F64] in
/-- The wait of an attempt has passed; there are twenty-six. -/
def timeout (s : Sim) (r : Request) (attempt : ℕ) (logged : Bool) : Sim :=
  { s with phase := if attempt + 1 < 26 then .sending r (attempt + 1) logged else .failed }

/-- A datagram arrives during the wait. -/
def receive (s : Sim) (r : Request) (data : Bytes) : Sim :=
  let down := { s.down with receivedRaw := s.down.receivedRaw + 1 }
  match receiptOf r.tick s.lastReply data with
  | .malformed => { s with down := { down with malformed := down.malformed + 1 } }
  | .stale again =>
    let down := { down with received := down.received + 1 }
    { s with
      down :=
        if again then { down with discardedDuplicate := down.discardedDuplicate + 1 }
        else
          { down with
            rejectedReceived := down.rejectedReceived + 1
            discardedOld := down.discardedOld + 1 } }
  | .invalid =>
    { s with
      down :=
        { down with received := down.received + 1, rejectedReceived := down.rejectedReceived + 1 }
      phase := .failed }
  | .answer value =>
    let down :=
      { down with received := down.received + 1, logicalReceived := down.logicalReceived + 1 }
    { s with
      course := s.course.complete r value
      down :=
        if r.downDrop then { down with modeledCommandLoss := down.modeledCommandLoss + 1 }
        else { down with forwardedToDelay := down.forwardedToDelay + 1 }
      lastReply := some data
      phase := .ready }

end Sim

end Tvc.Lockstep
