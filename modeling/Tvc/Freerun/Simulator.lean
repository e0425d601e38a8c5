import Tvc.Lib.RunningMax
import Tvc.Lockstep.Simulator

/-!
# The free-run simulator of `sim/freerun.py`

The simulator owns its schedule: once a period it takes what arrived, moves the plant by one step and
offers the next sensor frame, whether the vehicle has answered or not. When its own reason ends the run it
offers the same terminal frame a number of times and waits for the vehicle's. What an exception has
changed before it was raised stays changed, so every function returns the state beside its outcome.

What the outside does in one turn, the clock readings and the outcomes of the calls to the system, is an
event. The options that inject faults in tests are left out.
-/

namespace Tvc.Freerun

open Lockstep (SimRow)

/-- `PERIOD_NS`. -/
def periodNs : ℤ := 2000000

/-- `GRACE_TICKS`. -/
def graceTicks : ℕ := 16

/-- The exceptions of the simulator. -/
inductive Failure
  | valueError (message : String)
  | overflowError
  | osError
  | interrupted
  deriving DecidableEq, Repr

/-- An exception of the codec. -/
def Failure.ofWire : Wire.Failure → Failure
  | .valueError message => .valueError message
  | .overflowError => .overflowError

/-- The exit code of an exception. -/
def Failure.code : Failure → ℕ
  | .interrupted => 3
  | _ => 1

/-! ## The model -/

/-- The counters `up` of `Model`. -/
structure UpCounts where
  generated : ℕ := 0
  intentionallyLost : ℕ := 0
  transmitted : ℕ := 0
  sensorTxFail : ℕ := 0
  forcedTransmit : ℕ := 0
  forcedDrop : ℕ := 0
  deriving DecidableEq, Repr

/-- The counters `down` of `Model`. -/
structure DownCounts where
  received : ℕ := 0
  intentionallyLost : ℕ := 0
  actuatorSelected : ℕ := 0
  superseded : ℕ := 0
  malformed : ℕ := 0
  invalid : ℕ := 0
  lastReceivedTick : Option ℤ := none
  deriving DecidableEq, Repr

/-- The counters `term` of `Model`. -/
structure TermCounts where
  upAttempts : ℕ := 0
  upIntentionallyLost : ℕ := 0
  upTxFail : ℕ := 0
  upTransmitted : ℕ := 0
  downReceivedRaw : ℕ := 0
  downIntentionallyLost : ℕ := 0
  downSurvived : ℕ := 0
  deriving DecidableEq, Repr

/-- The counters `events` of `Model`. -/
structure EventCounts where
  plantSteps : ℕ := 0
  actuatorUpdates : ℕ := 0
  fifoAdvances : ℕ := 0
  sensorObservations : ℕ := 0
  deriving DecidableEq, Repr

/-- `Model`. -/
structure Model where
  truth : TruthState F64
  act : ActuatorState F64
  delay : List (Option F64)
  streamUp : U64
  streamDown : U64
  drawsUp : ℕ := 0
  drawsDown : ℕ := 0
  up : UpCounts := {}
  down : DownCounts := {}
  term : TermCounts := {}
  events : EventCounts := {}
  reason : Option SimReason := none
  vehicleSeen : Option ℕ := none

/-- What the receiver makes of a datagram. -/
def decodeReply (data : Bytes) : Except Wire.Failure Wire.Fields :=
  Wire.decodeDatagram data [5] >>= fun frame => Wire.decodePayload 5 frame.2.2

/-- The lowest byte of a status word: the mode. -/
def stateByte (value : Wire.Fields) : ℕ := (value.int .status).toNat % 256

/-- The second byte of a status word: the reason. -/
def reasonByte (value : Wire.Fields) : ℕ := (value.int .status).toNat / 256 % 256

/-- The third byte of a status word: the rung. -/
def rungByte (value : Wire.Fields) : ℕ := (value.int .status).toNat / 65536 % 256

namespace Model

variable [Arith F64]

/-- `Model.__init__`; the scenario has checked its probabilities. -/
def new (spec : Scenario F64) (seed : U64) (delayTicks : Fin 2) : Except Failure Model :=
  if spec.ticks < 2 then .error (.valueError "freerun requires ticks >= 2")
  else if !spec.commands.isEmpty then
    .error (.valueError "live command-bearing freerun scenarios are unsupported")
  else
    .ok
      { truth := spec.initial
        act := Actuator.initial
        delay := List.replicate delayTicks none
        streamUp := Rng.streamState seed .linkLossUp
        streamDown := Rng.streamState seed .linkLossDown }

/-- `_check_tick` of `sim/scenario.py`. -/
def checkTick (spec : Scenario F64) (tick : ℕ) : Except Failure Unit :=
  if tick < spec.ticks then .ok () else .error (.valueError "tick must satisfy 0 <= tick < scenario.ticks")

/-- One draw from a stream. -/
def draw (spec : Scenario F64) (m : Model) : Direction → Bool × Model
  | .up =>
    ((drawDrop m.streamUp spec.lossUp).1,
      { m with streamUp := (drawDrop m.streamUp spec.lossUp).2, drawsUp := m.drawsUp + 1 })
  | .down =>
    ((drawDrop m.streamDown spec.lossDown).1,
      { m with streamDown := (drawDrop m.streamDown spec.lossDown).2, drawsDown := m.drawsDown + 1 })

/-- `loss`: the draw, and what becomes of it. -/
def loss (spec : Scenario F64) (m : Model) (direction : Direction) (tick : ℕ) (terminal prologue : Bool) :
    Model × Except Failure (Bool × Bool) :=
  let (raw, m) := m.draw spec direction
  if prologue then (m, .ok (raw, false))
  else if terminal then (m, .ok (raw, raw))
  else (m, (checkTick spec tick).map fun _ => (raw, (spec.forcedDropAt tick direction).getD raw))

/-- The counters of a received frame. -/
def countReceived (m : Model) (value : Wire.Fields) (terminal drop : Bool) : Model :=
  if terminal then
    { m with
      term.downReceivedRaw := m.term.downReceivedRaw + 1
      term.downIntentionallyLost := m.term.downIntentionallyLost + drop.toNat
      term.downSurvived := m.term.downSurvived + (!drop).toNat }
  else
    { m with
      down.received := m.down.received + 1
      down.lastReceivedTick := some (m.down.lastReceivedTick.elim (value.int .tick) (max · (value.int .tick)))
      down.intentionallyLost := m.down.intentionallyLost + drop.toNat }

/-- One packet of `receive`: the survivor, if it is one. -/
def receivePacket (spec : Scenario F64) (m : Model) (bodyTick : ℕ) (data : Bytes) :
    Model × Except Failure (Option Wire.Fields) :=
  match decodeReply data with
  | .error _ => ({ m with down.malformed := m.down.malformed + 1 }, .ok none)
  | .ok value =>
    let terminal := stateByte value == 3
    match m.loss spec .down bodyTick terminal false with
    | (m, .error failure) => (m, .error failure)
    | (m, .ok (_, drop)) =>
      let m := m.countReceived value terminal drop
      if drop then (m, .ok none)
      else if !terminal && !(value.float .delta).isFinite then
        ({ m with down.invalid := m.down.invalid + 1 }, .error (.valueError "nonfinite actuator command"))
      else if terminal then
        if reasonByte value < 1 || 8 < reasonByte value then
          (m, .error (.valueError "invalid terminal actuator reason"))
        else ({ m with vehicleSeen := some (reasonByte value) }, .ok none)
      else (m, .ok (some value))

/-- The packets of `receive`, in order, with the survivors. -/
def receivePackets (spec : Scenario F64) (bodyTick : ℕ) (m : Model) :
    List Bytes → Model × Except Failure (List Wire.Fields)
  | [] => (m, .ok [])
  | data :: packets =>
    match m.receivePacket spec bodyTick data with
    | (m, .error failure) => (m, .error failure)
    | (m, .ok survivor) =>
      match receivePackets spec bodyTick m packets with
      | (m, .error failure) => (m, .error failure)
      | (m, .ok survivors) => (m, .ok (survivor.toList ++ survivors))

/-- `receive`: the selected command, if there is one. -/
def receive (spec : Scenario F64) (m : Model) (packets : List Bytes) (bodyTick : ℕ) :
    Model × Except Failure (Option F64) :=
  match m.receivePackets spec bodyTick packets with
  | (m, .error failure) => (m, .error failure)
  | (m, .ok survivors) =>
    if m.vehicleSeen.isSome then
      ({ m with
          down.superseded := m.down.superseded + survivors.length
          reason := m.reason.or (some .vehicleTerminal) }, .ok none)
    else
      match survivors.foldl (RunningMax.pick fun value => value.int .tick) none with
      | none => (m, .ok none)
      | some selected =>
        ({ m with
            down.actuatorSelected := m.down.actuatorSelected + 1
            down.superseded := m.down.superseded + (survivors.length - 1) }, .ok (some (selected.float .delta)))

/-- The reason that a plant step gives to end the run. -/
def reasonAfter (spec : Scenario F64) (truth : TruthState F64) (k : ℕ) : Option SimReason :=
  (Plant.lossOfControl truth).or (if k + 1 == spec.ticks - 1 then some .horizon else none)

/-- `advance`: what arrives at the actuator. -/
def advance (spec : Scenario F64) (m : Model) (k : ℕ) (selected : Option F64) :
    Model × Except Failure (Option F64) :=
  if m.reason.isSome then (m, .error (.valueError "plant advancement after termination"))
  else
    let delay := m.delay ++ [selected]
    let arriving := delay.headD none
    let act := Actuator.step m.act arriving
    let m :=
      { m with
        delay := delay.tail
        act
        events.fifoAdvances := m.events.fifoAdvances + 1
        events.actuatorUpdates := m.events.actuatorUpdates + 1 }
    match checkTick spec k with
    | .error failure => (m, .error failure)
    | .ok () =>
      let truth := Plant.step m.truth act fixedEnvironment (spec.disturbanceAt k fixedEnvironment) ControlRef.dt
      ({ m with truth, events.plantSteps := m.events.plantSteps + 1, reason := reasonAfter spec truth k },
        .ok arriving)

end Model

/-! ## The process -/

/-- What the outside does in one turn. -/
structure SimEvent where
  slept : Except Failure Unit
  drained : Except Failure (List Bytes)
  receivedNs : ℤ
  receiveStartedNs : ℤ
  receiveEndedNs : ℤ
  advanceStartedNs : ℤ
  advanceEndedNs : ℤ
  sentNs : ℤ
  lastNs : ℤ
  sendOk : Bool

/-- A round trip of `roundtrip_observation`. -/
structure RoundTrip where
  receivedNs : ℤ
  sensorSendNs : ℤ
  status : ℕ
  deriving DecidableEq, Repr

/-- `roundtrip_observation`. -/
def roundtripObservation (receivedNs : ℤ) (data : Bytes) : Option RoundTrip :=
  match decodeReply data with
  | .error _ => none
  | .ok value =>
    if stateByte value == 3 || rungByte value != 0 || value.int .tSensorSendNs == 0 then none
    else some ⟨receivedNs, value.int .tSensorSendNs, (value.int .status).toNat⟩

/-- A row of `steps`. -/
structure StepRow where
  row : SimRow
  deadlineNs : ℤ
  selectedDelta : Option F64

/-- The side that ended the run. -/
inductive Source
  | vehicle | simulator
  deriving DecidableEq, Repr

/-- Where `execute` stands: before its first frame, before a body, in the grace period after its own
terminal, or done with an exit code. -/
inductive SimPhase
  | prologue
  | body (k : ℕ)
  | grace (terminalTick offset : ℕ)
  | finished (code : ℕ)
  deriving DecidableEq, Repr

/-- The variables of `execute`. -/
structure Process where
  model : Model
  phase : SimPhase := .prologue
  rows : List SimRow := []
  steps : List StepRow := []
  roundTrips : List RoundTrip := []
  inputs : List Bytes := []
  origin : ℤ := 0
  terminationNs : ℤ := 0
  terminationBeforeNs : ℤ := 0
  terminationSource : Option Source := none
  cachedTerminal : Option Bytes := none
  terminalLogged : Bool := false
  firstTerminalSend : ℤ := 0
  lastTerminalSend : ℤ := 0
  error : Option Failure := none

namespace Process

variable [Arith F64]

/-- `execute` before its first frame. -/
def initial (spec : Scenario F64) (seed : U64) (delayTicks : Fin 2) : Except Failure Process :=
  (Model.new spec seed delayTicks).map fun model => { model }

omit [Arith F64] in
/-- The end of `execute`, with the reason that the report gives. -/
def finish (p : Process) (code : ℕ) : Process :=
  { p with model.reason := p.model.reason.or (some .peerLost), phase := .finished code }

omit [Arith F64] in
/-- The end of `execute` by an exception; nothing is reported of one that is not caught. -/
def fail (p : Process) (failure : Failure) : Process :=
  let p := { p with error := some failure }
  if failure = .overflowError then { p with phase := .finished failure.code } else p.finish failure.code

omit [Arith F64] in
/-- The row of a tick. -/
def rowOf (m : Model) (tick : ℕ) (applied : Bool) : SimRow where
  tick
  hasSample := true
  applied
  theta := m.truth.theta
  omega := m.truth.omega
  cmdApplied := m.act.applied

omit [Arith F64] in
/-- The sensor frame of `offer`. -/
def frameOf (tick : ℕ) (observation : Observation F64) (terminal : Bool) (reason : Option SimReason) (sentNs : ℤ) :
    Except Failure Bytes :=
  let frame := do
    let payload ← Wire.encodePayload 4
      [(.tick, .int tick), (.tSendNs, .int sentNs), (.theta, .float observation.theta),
        (.omega, .float observation.omega), (.flags, .int (if terminal then 3 else 1)), (.cmdSeq, .int 0),
        (.simReason, .int (if terminal then (reason.elim 0 SimReason.toNat : ℕ) else 0))]
    Wire.encodeFrame 4 tick payload
  frame.mapError Failure.ofWire

/-- The frame that `offer` would send: a terminal frame is made once. -/
def prepare (p : Process) (tick : ℕ) (terminal : Bool) (sentNs : ℤ) : Process × Except Failure Bytes :=
  match (if terminal then p.cachedTerminal else none) with
  | some frame => (p, .ok frame)
  | none =>
    match frameOf tick (observe tick p.model.truth) terminal p.model.reason sentNs with
    | .error failure => (p, .error failure)
    | .ok frame => (if terminal then { p with cachedTerminal := some frame } else p, .ok frame)

omit [Arith F64] in
/-- The counters of a frame that was sent or not. -/
def countSend (p : Process) (frame : Bytes) (terminal raw : Bool) (e : SimEvent) : Process :=
  let p := if terminal then { p with lastTerminalSend := e.lastNs } else p
  if !e.sendOk then
    if terminal then { p with model.term.upTxFail := p.model.term.upTxFail + 1 }
    else { p with model.up.sensorTxFail := p.model.up.sensorTxFail + 1 }
  else
    let p :=
      if terminal then { p with model.term.upTransmitted := p.model.term.upTransmitted + 1 }
      else
        { p with
          model.up.transmitted := p.model.up.transmitted + 1
          model.up.forcedTransmit := p.model.up.forcedTransmit + raw.toNat }
    if !terminal || !p.terminalLogged then
      { p with inputs := p.inputs ++ [frame], terminalLogged := p.terminalLogged || terminal }
    else p

omit [Arith F64] in
/-- The counters of a frame that is offered. -/
def countOffer (p : Process) (terminal prologue : Bool) (e : SimEvent) : Process :=
  let p :=
    if terminal then { p with model.term.upAttempts := p.model.term.upAttempts + 1 }
    else { p with model.up.generated := p.model.up.generated + 1 }
  if prologue then { p with origin := e.sentNs } else p

omit [Arith F64] in
/-- The counters of a frame that is lost on purpose. -/
def countLost (p : Process) (terminal raw : Bool) : Process :=
  if terminal then { p with model.term.upIntentionallyLost := p.model.term.upIntentionallyLost + 1 }
  else
    { p with
      model.up.intentionallyLost := p.model.up.intentionallyLost + 1
      model.up.forcedDrop := p.model.up.forcedDrop + (!raw).toNat }

/-- `offer`: the frame it hands to the socket, unless the frame is lost on purpose. -/
def offer (spec : Scenario F64) (p : Process) (tick : ℕ) (terminal prologue : Bool) (e : SimEvent) :
    Process × Except Failure (Option Bytes) :=
  let observed := !terminal || p.cachedTerminal.isNone
  let p := { p with model.events.sensorObservations := p.model.events.sensorObservations + observed.toNat }
  match p.model.loss spec .up tick terminal prologue with
  | (model, .error failure) => ({ p with model }, .error failure)
  | (model, .ok (raw, drop)) =>
    match ({ p with model }.countOffer terminal prologue e).prepare tick terminal e.sentNs with
    | (p, .error failure) => (p, .error failure)
    | (p, .ok frame) =>
      if drop then (p.countLost terminal raw, .ok none)
      else
        let p := if terminal && p.firstTerminalSend == 0 then { p with firstTerminalSend := e.sentNs } else p
        let p := p.countSend frame terminal raw e
        (p, if prologue && !e.sendOk then .error .osError else .ok (some frame))

omit [Arith F64] in
/-- What `drain` notes of the packets. -/
def noteDrain (p : Process) (packets : List Bytes) (e : SimEvent) : Process :=
  { p with roundTrips := p.roundTrips ++ packets.filterMap (roundtripObservation e.receivedNs) }

/-- The first frame, and the first row. -/
def prologue (spec : Scenario F64) (p : Process) (e : SimEvent) : Process × Option Bytes :=
  match p.offer spec 0 false true e with
  | (p, .error failure) => (p.fail failure, none)
  | (p, .ok frame) => ({ p with rows := p.rows ++ [rowOf p.model 0 false], phase := .body 0 }, frame)

omit [Arith F64] in
/-- What a body notes of the plant step. -/
def noteAdvance (p : Process) (k : ℕ) (model : Model) (selected arriving : Option F64) (e : SimEvent) : Process :=
  let p := { p with model }
  let p :=
    if model.reason.isSome then
      { p with
        terminationNs := e.advanceEndedNs
        terminationBeforeNs := e.advanceStartedNs
        terminationSource := some .simulator }
    else p
  let row := rowOf model (k + 1) arriving.isSome
  { p with
    rows := p.rows ++ [row]
    steps := p.steps ++ [StepRow.mk row (p.origin + (k + 1) * periodNs) selected] }

/-- A body from the plant step on. -/
def advance (spec : Scenario F64) (p : Process) (k : ℕ) (selected : Option F64) (e : SimEvent) :
    Process × Option Bytes :=
  match p.model.advance spec k selected with
  | (model, .error failure) => ({ p with model }.fail failure, none)
  | (model, .ok arriving) =>
    let terminal := model.reason.isSome
    match (p.noteAdvance k model selected arriving e).offer spec (k + 1) terminal false e with
    | (p, .error failure) => (p.fail failure, none)
    | (p, .ok frame) => ({ p with phase := if terminal then .grace k 1 else .body (k + 1) }, frame)

/-- Body `k`. -/
def body (spec : Scenario F64) (p : Process) (k : ℕ) (e : SimEvent) : Process × Option Bytes :=
  match e.slept, e.drained with
  | .error failure, _ => (p.fail failure, none)
  | .ok (), .error failure => (p.fail failure, none)
  | .ok (), .ok packets =>
    let p := p.noteDrain packets e
    match p.model.receive spec packets k with
    | (model, .error failure) => ({ p with model }.fail failure, none)
    | (model, .ok selected) =>
      let p := { p with model }
      if model.vehicleSeen.isSome then
        ({ p with
            terminationNs := e.receiveEndedNs
            terminationBeforeNs := e.receiveStartedNs
            terminationSource := some .vehicle }.finish 0, none)
      else p.advance spec k selected e

/-- A turn of the grace period. -/
def grace (spec : Scenario F64) (terminalCopies : ℕ) (p : Process) (terminalTick offset : ℕ) (e : SimEvent) :
    Process × Option Bytes :=
  match e.slept, e.drained with
  | .error failure, _ => (p.fail failure, none)
  | .ok (), .error failure => (p.fail failure, none)
  | .ok (), .ok packets =>
    let p := p.noteDrain packets e
    match p.model.receive spec packets terminalTick with
    | (model, .error failure) => ({ p with model }.fail failure, none)
    | (model, .ok _) =>
      let p := { p with model }
      if model.vehicleSeen.isSome then (p.finish 0, none)
      else if offset < terminalCopies then
        match p.offer spec (terminalTick + 1) true false e with
        | (p, .error failure) => (p.fail failure, none)
        | (p, .ok frame) => ({ p with phase := .grace terminalTick (offset + 1) }, frame)
      else ({ p with phase := .grace terminalTick (offset + 1) }, none)

/-- One turn of `execute`, with the frame it hands to the socket. -/
def turn (spec : Scenario F64) (terminalCopies : ℕ) (p : Process) (e : SimEvent) : Process × Option Bytes :=
  match p.phase with
  | .prologue => p.prologue spec e
  | .body k => if k < spec.ticks - 1 then p.body spec k e else (p.finish 0, none)
  | .grace terminalTick offset =>
    if offset < terminalCopies + graceTicks then p.grace spec terminalCopies terminalTick offset e
    else (p.finish 3, none)
  | .finished _ => (p, none)

end Process

end Tvc.Freerun
