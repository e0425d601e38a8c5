import Tvc.Lib.StopAndWait
import Tvc.Lockstep.ExactlyOnce
import Tvc.Lockstep.Simulator

/-!
# One undisturbed exchange of the lockstep pair

A tick of the simulator is a request and an answer: the sensor frame that its course prepares,
and the reply of the session that executes the frame. This instantiates stop and wait, with the
core of the session as server. What the codecs do to either datagram is settled here.
-/

namespace Tvc.Lockstep

open StopAndWait

/-! ## The codecs -/

/-- The mapping of a tick of 64 bits is that of its fields. -/
theorem sensorDict_eq {tick : ℕ} (h : tick < 2 ^ 64) (theta omega : F64) (flags commandSeq : U32)
    (opcode : Option Opcode) (simReason : Option SimReason) :
    [(Wire.FieldName.tick, Wire.Scalar.int tick), (.tSendNs, .int 0), (.theta, .float theta),
      (.omega, .float omega), (.flags, .int flags.toNat),
      (.cmdSeq, .int (if opcode.isSome then commandSeq.toNat else 0)),
      (.simReason, .int (simReason.elim 0 SimReason.toNat : ℕ))] =
    Wire.sensorDict
      ⟨BitVec.ofNat 64 tick, 0, theta, omega, flags, if opcode.isSome then commandSeq else 0,
        BitVec.ofNat 32 (simReason.elim 0 SimReason.toNat)⟩ := by
  have htick : (BitVec.ofNat 64 tick).toNat = tick := by
    rw [BitVec.toNat_ofNat, Nat.mod_eq_of_lt h]
  have hreason : (BitVec.ofNat 32 (simReason.elim 0 SimReason.toNat)).toNat =
      simReason.elim 0 SimReason.toNat := by
    rcases simReason with _ | (_ | _ | _ | _ | _ | _) <;> rfl
  simp only [Wire.sensorDict, htick, hreason]
  cases opcode <;> rfl

/-- The sensor payload of a tick of 64 bits is that of its frame. -/
theorem encodePayload_sensorDict (s : Telem.SensorFields) :
    Wire.encodePayload 4 (Wire.sensorDict s) = .ok (Frame.ofFields s).payload := by
  have hpayload := Wire.encodePayload_sensor s
  have hsome : Telem.encodeSensor (List.replicate 44 0) s = some (Frame.ofFields s).payload := by
    simp [Frame.ofFields, Telem.kSensorV1PayloadBytes]
  rw [hsome] at hpayload
  cases h : Wire.encodePayload 4 (Wire.sensorDict s) with
  | error e => rw [h] at hpayload; contradiction
  | ok p =>
    rw [h] at hpayload
    exact congrArg Except.ok (Option.some.inj hpayload)

/-- The reply frame decodes to its fields in the simulator. -/
theorem decode_replyFrame (cycle : ℕ) (a : Telem.ActuatorFields) :
    (Wire.decodeDatagram (replyFrame cycle a) [5] >>= fun frame => Wire.decodePayload 5 frame.2.2) =
      .ok (Wire.actuatorDict a) := by
  obtain ⟨payload, hpayload⟩ : ∃ p, Telem.encodeActuator
      (List.replicate Telem.kActuatorV1PayloadBytes 0) a = some p := by
    simp [Telem.encodeActuator]
  have hlen : payload.length = 48 :=
    Telem.decodeActuator_length (Telem.decodeActuator_encodeActuator hpayload)
  have hframe : replyFrame cycle a = Telem.encodeFrame 5 (BitVec.ofNat 32 cycle) payload := by
    simp only [replyFrame, hpayload, Option.getD_some]
  have hdatagram : Telem.decodeDatagram (Telem.encodeFrame 5 (BitVec.ofNat 32 cycle) payload) [5] =
      .ok ⟨5, BitVec.ofNat 32 cycle, 10, payload.length⟩ :=
    Telem.decodeDatagram_encodeFrame _ (by decide) (by simp) (by rw [hlen]; rfl) (by rw [hlen]; decide)
  have hwire := Wire.decodeDatagram_of_ok hdatagram
  have hloaded : Telem.DecodedFrame.payload ⟨5, BitVec.ofNat 32 cycle, 10, payload.length⟩
      (Telem.encodeFrame 5 (BitVec.ofNat 32 cycle) payload) = payload :=
    Telem.load_encodeFrame_payload 5 (BitVec.ofNat 32 cycle) payload
  have htypes : ([5] : List U8).map BitVec.toNat = [5] := rfl
  rw [htypes, hloaded] at hwire
  rw [hframe, hwire]
  exact Wire.decodePayload_actuator (Telem.decodeActuator_encodeActuator hpayload)

/-! ## The request -/

variable [Arith F64] {spec : Scenario F64} {c c' : Course} {r : Request}

/-- The fields of the sensor frame of a request. -/
def sensorFieldsOf (r : Request) (opcode : Option Opcode) (commandSeq : U32) : Telem.SensorFields where
  tick := BitVec.ofNat 64 r.tick
  tSendNs := 0
  theta := if r.upDrop then 0.0 else r.observation.theta
  omega := if r.upDrop then 0.0 else r.observation.omega
  flags := flagsOf r.upDrop opcode r.simReason
  cmdSeq := if opcode.isSome then commandSeq else 0
  simReason := BitVec.ofNat 32 (r.simReason.elim 0 SimReason.toNat)

/-- What `request` prepares: the draws and the command number advance, and the frame carries the
fields of the tick. -/
structure Requested (spec : Scenario F64) (c c' : Course) (r : Request) : Prop where
  small : c.tick < 2 ^ 64
  course : c' =
    { c with
      streamUp := (drawDrop c.streamUp spec.lossUp).2
      streamDown := (drawDrop c.streamDown spec.lossDown).2
      draws := c.draws + 1
      commandSeq := if (spec.commandAt c.tick).isSome then c.commandSeq + 1 else c.commandSeq }
  tick : r.tick = c.tick
  upDrop : r.upDrop = (spec.forcedDropAt c.tick .up).getD (drawDrop c.streamUp spec.lossUp).1
  downDrop : r.downDrop = (spec.forcedDropAt c.tick .down).getD (drawDrop c.streamDown spec.lossDown).1
  disturbance : r.disturbance = spec.disturbanceAt c.tick fixedEnvironment
  observation : r.observation = observe c.tick c.truth
  simReason : r.simReason =
    if c.pendingReason.isNone && c.tick == spec.ticks - 1 then some .horizon else c.pendingReason
  frame : (Datagram.mk r.frame false).frame =
    .ok (.ofFields (sensorFieldsOf r (spec.commandAt c.tick) c'.commandSeq))

omit [Arith F64] in
/-- The flag word of a request has no reserved bit. -/
theorem flagsOf_masked (upDrop : Bool) (opcode : Option Opcode) (simReason : Option SimReason) :
    flagsOf upDrop opcode simReason &&& 0x0000ff07 = flagsOf upDrop opcode simReason := by
  rcases opcode with _ | (_ | _ | _) <;> cases upDrop <;> cases simReason <;> simp [flagsOf, Opcode.toNat]

/-- The sensor frame of a tick of 64 bits is received as its fields. -/
theorem sensorFrame_of_lt (h : r.tick < 2 ^ 64) (opcode : Option Opcode) (commandSeq : U32) :
    ∃ bytes, sensorFrame r.tick r.upDrop r.observation opcode commandSeq r.simReason = .ok bytes ∧
      (Datagram.mk bytes false).frame = .ok (.ofFields (sensorFieldsOf r opcode commandSeq)) := by
  have hdict := sensorDict_eq h (if r.upDrop then 0.0 else r.observation.theta)
    (if r.upDrop then 0.0 else r.observation.omega) (flagsOf r.upDrop opcode r.simReason) commandSeq opcode
    r.simReason
  have hfields : Telem.SensorFields.mk (BitVec.ofNat 64 r.tick) 0
      (if r.upDrop then 0.0 else r.observation.theta) (if r.upDrop then 0.0 else r.observation.omega)
      (flagsOf r.upDrop opcode r.simReason) (if opcode.isSome then commandSeq else 0)
      (BitVec.ofNat 32 (r.simReason.elim 0 SimReason.toNat)) = sensorFieldsOf r opcode commandSeq := rfl
  rw [sensorFrame, hdict, hfields, encodePayload_sensorDict]
  generalize Frame.ofFields (sensorFieldsOf r opcode commandSeq) = f
  have hframe : Wire.encodeFrame 4 r.tick f.payload =
      .ok (Telem.encodeFrame 4 (BitVec.ofNat 32 r.tick) f.payload) :=
    Wire.encodeFrame_eq (by decide) r.tick (by rw [f.payload_length]; decide)
  exact ⟨_, hframe, Datagram.frame_ofFrame (BitVec.ofNat 32 r.tick) f⟩

/-- A tick beyond 64 bits has no sensor frame. -/
theorem sensorFrame_overflow {tick : ℕ} (h : 2 ^ 64 ≤ tick) (upDrop : Bool) (o : Observation F64)
    (opcode : Option Opcode) (commandSeq : U32) (simReason : Option SimReason) :
    sensorFrame tick upDrop o opcode commandSeq simReason = .error .overflowError := by
  rw [sensorFrame, Wire.encodePayload_overflow rfl h]
  rfl

/-- The request of a tick of 64 bits. -/
theorem request_of_lt (spec : Scenario F64) (h : c.tick < 2 ^ 64) :
    ∃ x, c.request spec = .ok x ∧ Requested spec c x.1 x.2 := by
  let opcode := spec.commandAt c.tick
  let commandSeq := if opcode.isSome then c.commandSeq + 1 else c.commandSeq
  let r (frame : Bytes) : Request :=
    { tick := c.tick
      upDrop := (spec.forcedDropAt c.tick .up).getD (drawDrop c.streamUp spec.lossUp).1
      downDrop := (spec.forcedDropAt c.tick .down).getD (drawDrop c.streamDown spec.lossDown).1
      disturbance := spec.disturbanceAt c.tick fixedEnvironment
      observation := observe c.tick c.truth
      simReason :=
        if c.pendingReason.isNone && c.tick == spec.ticks - 1 then some .horizon else c.pendingReason
      frame }
  obtain ⟨bytes, hframe, hreceived⟩ := sensorFrame_of_lt (r := r []) h opcode commandSeq
  have hrequest : c.request spec =
      (sensorFrame (r []).tick (r []).upDrop (r []).observation opcode commandSeq (r []).simReason).map
        fun frame =>
          ({ c with
              streamUp := (drawDrop c.streamUp spec.lossUp).2
              streamDown := (drawDrop c.streamDown spec.lossDown).2
              draws := c.draws + 1
              commandSeq }, r frame) := rfl
  rw [hrequest, hframe]
  exact ⟨_, rfl, h, rfl, rfl, rfl, rfl, rfl, rfl, rfl, hreceived⟩

/-- A request that was prepared. -/
theorem requested (h : c.request spec = .ok (c', r)) : Requested spec c c' r := by
  by_cases hsmall : c.tick < 2 ^ 64
  · obtain ⟨x, hx, hrequested⟩ := request_of_lt spec hsmall
    rw [h] at hx
    obtain rfl := Except.ok.inj hx
    exact hrequested
  · have hnone := sensorFrame_overflow (not_lt.mp hsmall)
    simp only [Course.request, hnone] at h
    contradiction

/-! ## The answer -/

/-- The simulator's tests on the reply to an executed frame. -/
theorem receiptOf_reply (core : Core) (f : Frame) (tick : ℕ) (lastReply : Option Bytes) :
    receiptOf tick lastReply (core.execute f).reply =
      let result := Episode.step core.state (core.inputs f)
      if f.tick ≠ tick then .stale (lastReply == some (core.execute f).reply)
      else if core.cycle % 2 ^ 64 ≠ tick ∨ result.requestedDelta.isFinite = false then .invalid
      else .answer (Wire.actuatorDict (replyFields (core.inputs f) core.cycle f result)) := by
  have hreply : (core.execute f).reply = replyFrame core.cycle
      (replyFields (core.inputs f) core.cycle f (Episode.step core.state (core.inputs f))) := rfl
  have htick : Wire.Fields.int (Wire.actuatorDict
      (replyFields (core.inputs f) core.cycle f (Episode.step core.state (core.inputs f)))) .tick = f.tick :=
    rfl
  have hcycle : Wire.Fields.int (Wire.actuatorDict
      (replyFields (core.inputs f) core.cycle f (Episode.step core.state (core.inputs f)))) .vehTick =
        (core.cycle % 2 ^ 64 : ℕ) := rfl
  have hdelta : Wire.Fields.float (Wire.actuatorDict
      (replyFields (core.inputs f) core.cycle f (Episode.step core.state (core.inputs f)))) .delta =
        (Episode.step core.state (core.inputs f)).requestedDelta := rfl
  have hstamps : Wire.Fields.int (Wire.actuatorDict
      (replyFields (core.inputs f) core.cycle f (Episode.step core.state (core.inputs f)))) .tSensorSendNs = 0 ∧
      Wire.Fields.int (Wire.actuatorDict
      (replyFields (core.inputs f) core.cycle f (Episode.step core.state (core.inputs f)))) .tVehSendNs = 0 :=
    ⟨rfl, rfl⟩
  unfold receiptOf
  rw [hreply, decode_replyFrame]
  simp only [htick, hcycle, hdelta, hstamps.1, hstamps.2, bne_self_eq_false, Bool.or_self,
    Bool.false_eq_true, if_false, Bool.or_eq_true, bne_iff_ne, ne_eq, Nat.cast_inj, Bool.not_eq_true']

/-- A completed tick has one row more and leaves the draws as they were. -/
theorem complete_counts (c : Course) (r : Request) (answer : Wire.Fields) :
    (c.complete r answer).tick = c.tick + 1 ∧ (c.complete r answer).rows.length = c.rows.length + 1 ∧
      (c.complete r answer).draws = c.draws ∧ (c.complete r answer).streamUp = c.streamUp ∧
      (c.complete r answer).streamDown = c.streamDown := by
  unfold Course.complete
  dsimp only
  repeat' split
  all_goals exact ⟨rfl, by simp, rfl, rfl, rfl⟩

/-! ## Stop and wait -/

/-- The server: the core of the session, with the records of the ticks it has executed. -/
abbrev Server := Core × List Telem.ControlRecord

/-- The request a course issues, unless its loop has ended. -/
def issue (spec : Scenario F64) (c : Course) : Option Request :=
  if c.broken || spec.ticks ≤ c.tick then none else (c.request spec).toOption.map Prod.snd

/-- The server executes the frame of a request and records it. -/
def serve (s : Server) (r : Request) : Server × Bytes :=
  match (Datagram.mk r.frame false).frame with
  | .error _ => (s, [])
  | .ok f => ((s.1.execute f, s.2 ++ [(s.1.execute f).record]), (s.1.execute f).reply)

/-- The course after the reply to its request, if it takes the reply for an answer. -/
def accept (spec : Scenario F64) (c : Course) (data : Bytes) : Option Course :=
  match c.request spec with
  | .error _ => none
  | .ok (c', r) =>
    match receiptOf r.tick none data with
    | .answer value => some (c'.complete r value)
    | _ => none

/-- The simulator's course as client and the session's core as server. -/
def protocol (spec : Scenario F64) : StopAndWait Course Server Request Bytes :=
  ⟨issue spec, serve, accept spec⟩

/-- Both parties as they start. -/
def start (spec : Scenario F64) (seed : U64) (delayTicks : Fin 2) : Course × Server :=
  (.initial spec seed delayTicks, .initial spec.autoArm, [])

/-- What an undisturbed exchange does. -/
structure Exchanged (spec : Scenario F64) (y y' : Course × Server) (c : Course) (r : Request) (f : Frame) :
    Prop where
  live : y.1.broken = false
  inTime : y.1.tick < spec.ticks
  issued : y.1.request spec = .ok (c, r)
  requested : Requested spec y.1 c r
  frame : f = .ofFields (sensorFieldsOf r (spec.commandAt y.1.tick) c.commandSeq)
  finite : (Episode.step y.2.1.state (y.2.1.inputs f)).requestedDelta.isFinite = true
  client : y'.1 = c.complete r (Wire.actuatorDict
    (replyFields (y.2.1.inputs f) y.2.1.cycle f (Episode.step y.2.1.state (y.2.1.inputs f))))
  server : y'.2 = (y.2.1.execute f, y.2.2 ++ [(y.2.1.execute f).record])
  accepted : receiptOf r.tick none (y.2.1.execute f).reply = .answer (Wire.actuatorDict
    (replyFields (y.2.1.inputs f) y.2.1.cycle f (Episode.step y.2.1.state (y.2.1.inputs f))))

/-- The request a course issues is the one it prepares. -/
theorem issue_eq_some (h : issue spec c = some r) :
    c.broken = false ∧ c.tick < spec.ticks ∧ ∃ c', c.request spec = .ok (c', r) := by
  unfold issue at h
  split at h
  · contradiction
  · rename_i hgo
    simp only [Bool.or_eq_true, decide_eq_true_eq, not_or, Bool.not_eq_true, not_le] at hgo
    generalize c.request spec = prepared at h
    rcases prepared with e | ⟨c', r'⟩
    · contradiction
    · obtain rfl := Option.some.inj h
      exact ⟨hgo.1, hgo.2, c', rfl⟩

/-- The server executes the frame a request is received as. -/
theorem serve_of_frame (s : Server) {f : Frame} (hf : (Datagram.mk r.frame false).frame = .ok f) :
    serve s r = ((s.1.execute f, s.2 ++ [(s.1.execute f).record]), (s.1.execute f).reply) := by
  rw [serve, hf]

/-- An accepted reply completes the request it answers. -/
theorem accept_eq_some {data : Bytes} {d : Course} (hr : c.request spec = .ok (c', r)) :
    accept spec c data = some d ↔
      ∃ value, receiptOf r.tick none data = .answer value ∧ c'.complete r value = d := by
  unfold accept
  generalize c.request spec = prepared at hr
  subst hr
  dsimp only
  generalize receiptOf r.tick none data = receipt
  cases receipt <;> simp

/-- An undisturbed exchange prepares, executes and completes one tick. -/
theorem exchanged {y y' : Course × Server} (h : (protocol spec).exchange y = some y') :
    ∃ c r f, Exchanged spec y y' c r f := by
  simp only [StopAndWait.exchange, StopAndWait.served, protocol, Option.bind_eq_some_iff,
    Option.map_eq_some_iff] at h
  obtain ⟨⟨s, reply⟩, ⟨r, hr, hserve⟩, client, haccept, rfl⟩ := h
  obtain ⟨hlive, htime, c, hrequest⟩ := issue_eq_some hr
  have hrequested := requested hrequest
  rw [serve_of_frame y.2 hrequested.frame] at hserve
  generalize hf : Frame.ofFields (sensorFieldsOf r (spec.commandAt y.1.tick) c.commandSeq) = f at hserve
  obtain ⟨rfl, rfl⟩ := Prod.mk.inj hserve
  obtain ⟨value, hvalue, hcomplete⟩ := (accept_eq_some hrequest).mp haccept
  have haccepted := hvalue
  rw [receiptOf_reply] at hvalue
  dsimp only at hvalue
  split_ifs at hvalue with hstale hinvalid
  simp only [not_or, Bool.not_eq_false] at hinvalid
  obtain rfl := Receipt.answer.inj hvalue
  exact ⟨c, r, f, hlive, htime, hrequest, hrequested, hf.symm, hinvalid.2, hcomplete.symm, rfl, haccepted⟩

end Tvc.Lockstep
