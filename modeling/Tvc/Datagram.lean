import Tvc.Telemetry

/-!
# Received sensor datagrams

Both vehicle modes take the same datagrams: a frame of type 4 whose payload decodes. A frame is
kept with the decoding of its own payload, so two frames of one payload are one frame.
-/

namespace Tvc

/-- A sensor payload with its decoding; `Admission::Frame`. -/
structure Frame where
  payload : Bytes
  fields : Telem.SensorFields
  decoded : Telem.decodeSensor payload = some fields
  deriving DecidableEq

namespace Frame

/-- The tick a frame carries. -/
def tick (f : Frame) : ℕ := f.fields.tick.toNat

/-- `terminal`: flag bit 1. -/
def terminal (f : Frame) : Bool := f.fields.flags &&& 2 != 0

/-- Flag bit 0, the validity of the sample. -/
def valid (f : Frame) : Bool := f.fields.flags &&& 1 != 0

/-- Both readings are finite. -/
def finite (f : Frame) : Bool := f.fields.theta.isFinite && f.fields.omega.isFinite

/-- The reason of a terminal frame is outside 1 to 3. -/
def illegalReason (f : Frame) : Bool := f.fields.simReason.toNat < 1 || 3 < f.fields.simReason.toNat

/-- A payload has one decoding. -/
@[ext] theorem ext {f g : Frame} (h : f.payload = g.payload) : f = g := by
  obtain ⟨payload, fields, decoded⟩ := f
  obtain ⟨payload', fields', decoded'⟩ := g
  obtain rfl : payload = payload' := h
  obtain rfl : fields = fields' := Option.some.inj (decoded.symm.trans decoded')
  rfl

end Frame

/-- `net::Datagram`, as far as a receiver looks at it. -/
structure Datagram where
  bytes : Bytes
  truncated : Bool
  deriving DecidableEq

/-- The frame of an accepted datagram. -/
def Frame.ofDecoded {bytes : Bytes} {decoded : Telem.DecodedFrame}
    (h : Telem.decodeDatagram bytes [4] = .ok decoded) : Frame :=
  have hsome : (Telem.decodeSensor (decoded.payload bytes)).isSome := by
    obtain ⟨htype, hlen⟩ := Telem.decodeDatagram_payload_length h
    obtain ⟨fields, hfields⟩ := Telem.decodeSensor_isSome (p := decoded.payload bytes)
      (by rw [hlen, List.mem_singleton.mp htype]; rfl)
    simp [hfields]
  ⟨decoded.payload bytes, (Telem.decodeSensor (decoded.payload bytes)).get hsome, by simp⟩

/-- The decoding at the head of `receive`: a truncated datagram counts as one of bad length. -/
def Datagram.frame (d : Datagram) : Except Telem.DatagramError Frame :=
  if d.truncated then .error .badLength
  else match h : Telem.decodeDatagram d.bytes [4] with
  | .error e => .error e
  | .ok _ => .ok (Frame.ofDecoded h)

/-- The frame of a payload written from its fields. -/
def Frame.ofFields (fields : Telem.SensorFields) : Frame where
  payload := (Telem.encodeSensor (List.replicate Telem.kSensorV1PayloadBytes 0) fields).get (by
    simp [Telem.encodeSensor])
  fields := { fields with flags := fields.flags &&& 0x0000ff07 }
  decoded := Telem.decodeSensor_encodeSensor (Option.some_get _).symm

/-- The datagram that carries a frame. -/
def Datagram.ofFrame (seq : U32) (f : Frame) : Datagram := ⟨Telem.encodeFrame 4 seq f.payload, false⟩

/-- A frame has the payload of a sensor. -/
theorem Frame.payload_length (f : Frame) : f.payload.length = Telem.kSensorV1PayloadBytes := by
  have hdecoded := f.decoded
  unfold Telem.decodeSensor at hdecoded
  split at hdecoded
  · contradiction
  · simpa using ‹¬(f.payload.length != Telem.kSensorV1PayloadBytes) = true›

/-- The datagram that carries a frame is received as that frame. -/
@[simp] theorem Datagram.frame_ofFrame (seq : U32) (f : Frame) : (Datagram.ofFrame seq f).frame = .ok f := by
  have hsize : f.payload.length = Telem.payloadSizes 4 := f.payload_length
  have hdecoded : Telem.decodeDatagram (Telem.encodeFrame 4 seq f.payload) [4] =
      .ok ⟨4, seq, 10, f.payload.length⟩ :=
    Telem.decodeDatagram_encodeFrame seq (by decide) (by simp) hsize (by rw [hsize]; decide)
  have hbytes : (Datagram.ofFrame seq f).bytes = Telem.encodeFrame 4 seq f.payload := rfl
  rw [Datagram.frame, if_neg (by simp [Datagram.ofFrame])]
  split
  · rename_i e h
    rw [hbytes, hdecoded] at h
    contradiction
  · rename_i decoded h
    refine congrArg Except.ok (Frame.ext ?_)
    rw [hbytes, hdecoded] at h
    obtain rfl := Except.ok.inj h
    exact Telem.load_encodeFrame_payload 4 seq f.payload

end Tvc
