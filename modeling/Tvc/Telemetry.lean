import Tvc.Floats
import Tvc.Lib.ByteStore

/-!
# Frames and payloads of `src/telemetry.cpp`

The framing the vehicle uses on both links: a ten-byte head, the payload, and a CRC-32C over
everything after the sync word. `decodeDatagram` accepts one whole datagram or names the first
check that failed. The payload codecs write each field at its own offset of a fixed buffer, so
their round trips follow from the disjointness of the blocks alone.
-/

namespace Tvc.Telem

open ByteStore

/-! ## Scalars of `src/wire.hpp` -/

/-- `put_u8`. -/
abbrev putU8 (p : Bytes) (o : ℕ) (v : U8) : Bytes := putLe 1 p o v
/-- `put_u16_le`. -/
abbrev putU16Le (p : Bytes) (o : ℕ) (v : U16) : Bytes := putLe 2 p o v
/-- `put_u32_le`. -/
abbrev putU32Le (p : Bytes) (o : ℕ) (v : U32) : Bytes := putLe 4 p o v
/-- `put_u64_le`, also `put_i64_le` on the pattern of a signed value. -/
abbrev putU64Le (p : Bytes) (o : ℕ) (v : U64) : Bytes := putLe 8 p o v
/-- `put_f64_le` moves the bits without evaluating the value. -/
abbrev putF64Le (p : Bytes) (o : ℕ) (v : F64) : Bytes := putLe 8 p o v.bits
/-- `get_u8`. -/
abbrev getU8 (p : Bytes) (o : ℕ) : U8 := getLe 8 1 p o
/-- `get_u16_le`. -/
abbrev getU16Le (p : Bytes) (o : ℕ) : U16 := getLe 16 2 p o
/-- `get_u32_le`. -/
abbrev getU32Le (p : Bytes) (o : ℕ) : U32 := getLe 32 4 p o
/-- `get_u64_le`, also `get_i64_le` as a pattern. -/
abbrev getU64Le (p : Bytes) (o : ℕ) : U64 := getLe 64 8 p o
/-- `get_f64_le`. -/
abbrev getF64Le (p : Bytes) (o : ℕ) : F64 := ⟨getLe 64 8 p o⟩

/-! ## CRC-32C -/

/-- One bit of the table construction. -/
def crcBit (c : U32) : U32 := if c &&& 1 != 0 then (c >>> 1) ^^^ 0x82F63B78 else c >>> 1

/-- `kCrcTable`: entry `i` of `make_crc_table`. -/
def kCrcTable (i : U8) : U32 := crcBit^[8] (i.setWidth 32)

/-- One byte of the checksum loop. -/
def crcByte (c : U32) (p : U8) : U32 := kCrcTable ((c ^^^ p.setWidth 32).setWidth 8) ^^^ (c >>> 8)

/-- `crc32c`. -/
def crc32c (data : Bytes) : U32 := data.foldl crcByte 0xFFFFFFFF ^^^ 0xFFFFFFFF

/-! ## Frames -/

def kSync : U16 := 0xEB90
def kVersion : U8 := 1
def kFrameOverhead : ℕ := 14
def kTelemetryV1PayloadBytes : ℕ := 56
def kCommandV1PayloadBytes : ℕ := 16
def kAckV1PayloadBytes : ℕ := 16
def kSensorV1PayloadBytes : ℕ := 44
def kActuatorV1PayloadBytes : ℕ := 48
def kControlV1PayloadBytes : ℕ := 128

/-- The head `encode_frame` writes: sync, version, type, length and sequence number. -/
def frameHead (type : U8) (seq : U32) (len : ℕ) : Bytes :=
  encodeLe 2 kSync.toNat ++ [kVersion, type] ++ encodeLe 2 len ++ encodeLe 4 seq.toNat

/-- `encode_frame`: the checksum covers everything after the sync word. -/
def encodeFrame (type : U8) (seq : U32) (payload : Bytes) : Bytes :=
  let body := frameHead type seq payload.length ++ payload
  body ++ encodeLe 4 (crc32c (body.drop 2)).toNat

/-- `encode_frame` for any checksum. -/
def encodeFrameWith (crc : Bytes → U32) (type : U8) (seq : U32) (payload : Bytes) : Bytes :=
  let body := frameHead type seq payload.length ++ payload
  body ++ encodeLe 4 (crc (body.drop 2)).toNat

/-- The frames on the links carry a CRC-32C. -/
theorem encodeFrameWith_crc32c (type : U8) (seq : U32) (payload : Bytes) :
    encodeFrameWith crc32c type seq payload = encodeFrame type seq payload := rfl

/-- `DatagramError`, with success as the absence of an error. -/
inductive DatagramError
  | badSync | badVersion | badType | badLength | badCrc
  deriving DecidableEq, Repr

/-- `DecodedFrame`: where the payload of an accepted frame lies. -/
structure DecodedFrame where
  type : U8
  seq : U32
  payloadOff : ℕ
  payloadLen : ℕ
  deriving DecidableEq, Repr

/-- The payload size each type declares; `sizes` of `decode_datagram`. -/
def payloadSizes (type : U8) : ℕ :=
  match type.toNat with
  | 1 => kTelemetryV1PayloadBytes
  | 2 => kCommandV1PayloadBytes
  | 3 => kAckV1PayloadBytes
  | 4 => kSensorV1PayloadBytes
  | 5 => kActuatorV1PayloadBytes
  | 6 => kControlV1PayloadBytes
  | _ => 0

/-- `decode_datagram`: the checks in the order in which they are made. -/
def decodeDatagram (data : Bytes) (acceptedTypes : List U8) : Except DatagramError DecodedFrame :=
  if data.length < kFrameOverhead then .error .badLength
  else if getU16Le data 0 != kSync then .error .badSync
  else if getU8 data 2 != kVersion then .error .badVersion
  else
    let type := getU8 data 3
    if type.toNat < 1 || 6 < type.toNat || !acceptedTypes.contains type then .error .badType
    else
      let size := (getU16Le data 4).toNat
      if size != payloadSizes type || data.length != kFrameOverhead + size then .error .badLength
      else if getU32Le data (data.length - 4) != crc32c (load data 2 (8 + size)) then .error .badCrc
      else .ok ⟨type, getU32Le data 6, 10, size⟩

/-- The payload bytes a decoded frame points at. -/
def DecodedFrame.payload (frame : DecodedFrame) (data : Bytes) : Bytes :=
  load data frame.payloadOff frame.payloadLen

/-- The head of a frame has ten bytes. -/
@[simp] theorem frameHead_length (type : U8) (seq : U32) (len : ℕ) :
    (frameHead type seq len).length = 10 := by
  simp [frameHead]

section Blocks

variable (crc : Bytes → U32) (type : U8) (seq : U32) {payload : Bytes}

/-- Encoding adds the fixed overhead. -/
@[simp] theorem encodeFrameWith_length (payload : Bytes) :
    (encodeFrameWith crc type seq payload).length = kFrameOverhead + payload.length := by
  simp [encodeFrameWith, kFrameOverhead]
  omega

/-- A block of the head is loaded from the head alone. -/
private theorem load_encodeFrameWith_head {width o : ℕ} (h : o + width ≤ 10) :
    load (encodeFrameWith crc type seq payload) o width = load (frameHead type seq payload.length) o width := by
  rw [encodeFrameWith, load_append_left, load_append_left]
  all_goals simp only [List.length_append, frameHead_length]; omega

/-- The five head fields of a frame read back as they were written. -/
theorem encodeFrameWith_fields (hshort : payload.length < 2 ^ 16) :
    getU16Le (encodeFrameWith crc type seq payload) 0 = kSync ∧
      getU8 (encodeFrameWith crc type seq payload) 2 = kVersion ∧
      getU8 (encodeFrameWith crc type seq payload) 3 = type ∧
      (getU16Le (encodeFrameWith crc type seq payload) 4).toNat = payload.length ∧
      getU32Le (encodeFrameWith crc type seq payload) 6 = seq := by
  have hbyte (b : U8) : [b] = encodeLe 1 b.toNat := by simp [encodeLe]
  have hlen : (BitVec.ofNat 16 payload.length).toNat = payload.length := by
    rw [BitVec.toNat_ofNat, Nat.mod_eq_of_lt hshort]
  refine ⟨getLe_of_load rfl ?_, getLe_of_load rfl ?_, getLe_of_load rfl ?_, ?_, getLe_of_load rfl ?_⟩
  · exact load_encodeFrameWith_head crc type seq (by omega)
  · rw [load_encodeFrameWith_head crc type seq (by omega), ← hbyte]
    rfl
  · rw [load_encodeFrameWith_head crc type seq (by omega), ← hbyte]
    rfl
  · have hfield : getU16Le (encodeFrameWith crc type seq payload) 4 = BitVec.ofNat 16 payload.length :=
      getLe_of_load rfl (by rw [load_encodeFrameWith_head crc type seq (by omega), hlen]; rfl)
    rw [hfield, hlen]
  · exact load_encodeFrameWith_head crc type seq (by omega)

/-- The payload of an encoded frame follows its head. -/
theorem load_encodeFrameWith_payload :
    load (encodeFrameWith crc type seq payload) 10 payload.length = payload := by
  rw [encodeFrameWith, load_append_left (by simp)]
  simpa using load_append_right (frameHead type seq payload.length) payload

/-- The last four bytes of an encoded frame are its checksum. -/
theorem getLe_encodeFrameWith_crc (payload : Bytes) :
    getU32Le (encodeFrameWith crc type seq payload) (10 + payload.length) =
      crc (load (encodeFrameWith crc type seq payload) 2 (8 + payload.length)) := by
  let body := frameHead type seq payload.length ++ payload
  have hbody : body.length = 10 + payload.length := by simp [body]
  have hframe : encodeFrameWith crc type seq payload = body ++ encodeLe 4 (crc (body.drop 2)).toNat := rfl
  have hcovered : load (encodeFrameWith crc type seq payload) 2 (8 + payload.length) = body.drop 2 := by
    rw [hframe, load_append_left (by omega), load, List.take_of_length_le]
    rw [List.length_drop]
    omega
  have htail : load (body ++ encodeLe 4 (crc (body.drop 2)).toNat) body.length 4 =
      encodeLe 4 (crc (body.drop 2)).toNat := by
    simpa using load_append_right body (encodeLe 4 (crc (body.drop 2)).toNat)
  rw [hcovered, hframe, ← hbody]
  exact getLe_of_load rfl htail

/-- A block of bytes with the fields of a frame and its checksum is an encoded frame. -/
theorem eq_encodeFrameWith {w : Bytes} {plen : ℕ} (hlength : w.length = kFrameOverhead + plen)
    (hsync : getU16Le w 0 = kSync) (hversion : getU8 w 2 = kVersion) (hplen : (getU16Le w 4).toNat = plen)
    (hcrc : getU32Le w (10 + plen) = crc (load w 2 (8 + plen))) :
    w = encodeFrameWith crc (getU8 w 3) (getU32Le w 6) (load w 10 plen) := by
  have hinside : w.length = 14 + plen := hlength
  have hbyte (b : U8) : encodeLe 1 b.toNat = [b] := by simp [encodeLe]
  have hhead : load w 0 10 = frameHead (getU8 w 3) (getU32Le w 6) plen := by
    have h0 : load w 0 2 = encodeLe 2 kSync.toNat := by rw [← hsync, ← load_eq_encodeLe rfl (by omega)]
    have h2 : load w 2 1 = [kVersion] := by rw [← hversion, ← hbyte, ← load_eq_encodeLe rfl (by omega)]
    have h3 : load w 3 1 = [getU8 w 3] := by rw [← hbyte, ← load_eq_encodeLe rfl (by omega)]
    have h4 : load w 4 2 = encodeLe 2 plen := by rw [← hplen, ← load_eq_encodeLe rfl (by omega)]
    have h6 : load w 6 4 = encodeLe 4 (getU32Le w 6).toNat := load_eq_encodeLe rfl (by omega)
    rw [show 10 = 2 + (1 + (1 + (2 + 4))) from rfl, load_add, load_add, load_add, load_add, h0, h2, h3, h4, h6]
    simp [frameHead]
  have hbody : load w 0 (10 + plen) = frameHead (getU8 w 3) (getU32Le w 6) plen ++ load w 10 plen := by
    rw [load_add, hhead, Nat.zero_add]
  have hcovered : load w 2 (8 + plen) = (load w 0 (10 + plen)).drop 2 := by
    rw [load, load, List.drop_zero, List.drop_take, show 10 + plen - 2 = 8 + plen by omega]
  have hpayload : (load w 10 plen).length = plen := load_length (by omega)
  have htail : load w (10 + plen) 4 = encodeLe 4 (crc (load w 2 (8 + plen))).toNat := by
    rw [← hcrc, ← load_eq_encodeLe rfl (by omega)]
  have hsplit : load w 0 (10 + plen + 4) = load w 0 (10 + plen) ++ load w (10 + plen) 4 := by
    rw [load_add, Nat.zero_add]
  calc w = load w 0 (10 + plen) ++ load w (10 + plen) 4 := by
        rw [← hsplit, show 10 + plen + 4 = w.length by omega, load_all]
    _ = encodeFrameWith crc (getU8 w 3) (getU32Le w 6) (load w 10 plen) := by
        rw [htail, hcovered, hbody, encodeFrameWith, hpayload]

end Blocks

/-- Encoding adds the fixed overhead. -/
@[simp] theorem encodeFrame_length (type : U8) (seq : U32) (payload : Bytes) :
    (encodeFrame type seq payload).length = kFrameOverhead + payload.length :=
  encodeFrameWith_length crc32c type seq payload

/-- The payload of an encoded frame follows its head. -/
theorem load_encodeFrame_payload (type : U8) (seq : U32) (payload : Bytes) :
    load (encodeFrame type seq payload) 10 payload.length = payload :=
  load_encodeFrameWith_payload crc32c type seq

/-- An encoded frame of an accepted type with its declared payload size is accepted as sent. -/
theorem decodeDatagram_encodeFrame {type : U8} {acceptedTypes : List U8} (seq : U32) {payload : Bytes}
    (htype : 1 ≤ type.toNat ∧ type.toNat ≤ 6) (haccepted : type ∈ acceptedTypes)
    (hsize : payload.length = payloadSizes type) (hshort : payload.length < 2 ^ 16) :
    decodeDatagram (encodeFrame type seq payload) acceptedTypes = .ok ⟨type, seq, 10, payload.length⟩ := by
  obtain ⟨hsync, hversion, hkind, hlen, hseq⟩ := encodeFrameWith_fields crc32c type seq hshort
  have hcrc := getLe_encodeFrameWith_crc crc32c type seq payload
  rw [encodeFrameWith_crc32c] at hsync hversion hkind hlen hseq hcrc
  have hlong : ¬(encodeFrame type seq payload).length < kFrameOverhead := by simp
  have htail : (encodeFrame type seq payload).length - 4 = 10 + payload.length := by
    rw [encodeFrame_length, kFrameOverhead]
    omega
  rw [decodeDatagram, if_neg hlong, hsync, hversion, hkind, hlen, hseq, htail, hcrc]
  simp only [bne_self_eq_false, Bool.false_eq_true, ↓reduceIte, ← hsize, encodeFrame_length]
  simp [haccepted, htype.2, Nat.one_le_iff_ne_zero.mp htype.1]

/-- An accepted datagram has exactly the size its type declares. -/
theorem decodeDatagram_payload_length {data : Bytes} {acceptedTypes : List U8} {frame : DecodedFrame}
    (h : decodeDatagram data acceptedTypes = .ok frame) :
    frame.type ∈ acceptedTypes ∧ (frame.payload data).length = payloadSizes frame.type := by
  simp only [decodeDatagram] at h
  repeat' split at h
  all_goals first | contradiction | skip
  rename_i htype hsize _
  obtain rfl := Except.ok.inj h
  simp only [Bool.or_eq_true, bne_iff_ne, ne_eq, not_or, not_not] at htype hsize
  refine ⟨by simpa using htype.2, ?_⟩
  rw [DecodedFrame.payload, load_length, hsize.1]
  simp only [hsize.2, kFrameOverhead]
  omega

/-! ## Sensor and actuator payloads -/

/-- The scalars of a `sensor_v1` payload. -/
structure SensorFields where
  tick : U64
  tSendNs : U64
  theta : F64
  omega : F64
  flags : U32
  cmdSeq : U32
  simReason : U32
  deriving DecidableEq, Repr

/-- `encode_sensor`; `none` is a rejected length, with the buffer untouched. -/
def encodeSensor (p : Bytes) (s : SensorFields) : Option Bytes :=
  if p.length != kSensorV1PayloadBytes then none
  else
    let p := putU64Le p 0 s.tick
    let p := putU64Le p 8 s.tSendNs
    let p := putF64Le p 16 s.theta
    let p := putF64Le p 24 s.omega
    let p := putU32Le p 32 (s.flags &&& 0x0000ff07)
    let p := putU32Le p 36 s.cmdSeq
    let p := putU32Le p 40 s.simReason
    some p

/-- `decode_sensor`. -/
def decodeSensor (p : Bytes) : Option SensorFields :=
  if p.length != kSensorV1PayloadBytes then none
  else some
    { tick := getU64Le p 0, tSendNs := getU64Le p 8, theta := getF64Le p 16, omega := getF64Le p 24,
      flags := getU32Le p 32, cmdSeq := getU32Le p 36, simReason := getU32Le p 40 }

/-- The scalars of an `actuator_v1` payload. -/
structure ActuatorFields where
  tick : U64
  vehTick : U64
  tSensorSendNs : U64
  tVehSendNs : U64
  delta : F64
  status : U32
  staleness : U32
  deriving DecidableEq, Repr

/-- `encode_actuator`. -/
def encodeActuator (p : Bytes) (a : ActuatorFields) : Option Bytes :=
  if p.length != kActuatorV1PayloadBytes then none
  else
    let p := putU64Le p 0 a.tick
    let p := putU64Le p 8 a.vehTick
    let p := putU64Le p 16 a.tSensorSendNs
    let p := putU64Le p 24 a.tVehSendNs
    let p := putF64Le p 32 a.delta
    let p := putU32Le p 40 a.status
    let p := putU32Le p 44 a.staleness
    some p

/-- `decode_actuator`. -/
def decodeActuator (p : Bytes) : Option ActuatorFields :=
  if p.length != kActuatorV1PayloadBytes then none
  else some
    { tick := getU64Le p 0, vehTick := getU64Le p 8, tSensorSendNs := getU64Le p 16,
      tVehSendNs := getU64Le p 24, delta := getF64Le p 32, status := getU32Le p 40,
      staleness := getU32Le p 44 }

/-- A sensor payload of the declared size decodes. -/
theorem decodeSensor_isSome {p : Bytes} (h : p.length = kSensorV1PayloadBytes) :
    ∃ fields, decodeSensor p = some fields := by
  simp [decodeSensor, h]

/-- A decoded actuator payload has the declared size. -/
theorem decodeActuator_length {p : Bytes} {a : ActuatorFields} (h : decodeActuator p = some a) :
    p.length = kActuatorV1PayloadBytes := by
  unfold decodeActuator at h
  split at h
  · contradiction
  · simpa using ‹¬(p.length != kActuatorV1PayloadBytes) = true›

/-- Decoding a written sensor payload returns its fields, the reserved flag bits cleared. -/
theorem decodeSensor_encodeSensor {p q : Bytes} {s : SensorFields} (h : encodeSensor p s = some q) :
    decodeSensor q = some { s with flags := s.flags &&& 0x0000ff07 } := by
  unfold encodeSensor at h
  split at h
  · contradiction
  · rename_i hlen
    have hlen : p.length = kSensorV1PayloadBytes := by simpa using hlen
    obtain rfl := Option.some.inj h
    simp [decodeSensor, getF64Le, hlen, kSensorV1PayloadBytes, getLe_putLe_same, getLe_putLe_of_disjoint]

/-- Decoding a written actuator payload returns its fields. -/
theorem decodeActuator_encodeActuator {p q : Bytes} {a : ActuatorFields}
    (h : encodeActuator p a = some q) : decodeActuator q = some a := by
  unfold encodeActuator at h
  split at h
  · contradiction
  · rename_i hlen
    have hlen : p.length = kActuatorV1PayloadBytes := by simpa using hlen
    obtain rfl := Option.some.inj h
    simp [decodeActuator, getF64Le, hlen, kActuatorV1PayloadBytes, getLe_putLe_same,
      getLe_putLe_of_disjoint]

/-! ## The control record -/

/-- `ControlRecord`: what one policy cycle leaves for the recording. -/
structure ControlRecord where
  tick : U64 := 0
  deadlineNs : U64 := 0
  wokeNs : U64 := 0
  doneNs : U64 := 0
  sensorSendNs : U64 := 0
  rxNs : U64 := 0
  txNs : U64 := 0
  sensorTick : U64 := 0
  theta : F64 := ⟨0⟩
  omega : F64 := ⟨0⟩
  cmd : F64 := ⟨0⟩
  iState : F64 := ⟨0⟩
  dPrev : F64 := ⟨0⟩
  drops : U64 := 0
  staleness : U32 := 0
  ackCmdSeq : U32 := 0
  rxCount : U8 := 0
  discardedOld : U8 := 0
  discardedSuperseded : U8 := 0
  discardedOther : U8 := 0
  state : U8 := 0
  reason : U8 := 0
  flags : U8 := 0
  ackStatus : U8 := 0
  deriving DecidableEq, Repr

/-- `valid_counts`; the sum of bytes is taken in a wider type. -/
def validCounts (rx old superseded other : U8) : Bool :=
  rx.toNat ≤ 9 && old.toNat + superseded.toNat + other.toNat ≤ rx.toNat

/-- The counts of a record fit its cycle. -/
def FittingCounts (r : ControlRecord) : Prop :=
  validCounts r.rxCount r.discardedOld r.discardedSuperseded r.discardedOther = true

/-- `encode_control`. -/
def encodeControl (p : Bytes) (r : ControlRecord) : Option Bytes :=
  if p.length != kControlV1PayloadBytes ||
      !validCounts r.rxCount r.discardedOld r.discardedSuperseded r.discardedOther then none
  else
    let p := putU64Le p 0 r.tick
    let p := putU64Le p 8 r.deadlineNs
    let p := putU64Le p 16 r.wokeNs
    let p := putU64Le p 24 r.doneNs
    let p := putU64Le p 32 r.sensorSendNs
    let p := putU64Le p 40 r.rxNs
    let p := putU64Le p 48 r.txNs
    let p := putU64Le p 56 r.sensorTick
    let p := putF64Le p 64 r.theta
    let p := putF64Le p 72 r.omega
    let p := putF64Le p 80 r.cmd
    let p := putF64Le p 88 r.iState
    let p := putF64Le p 96 r.dPrev
    let p := putU64Le p 104 r.drops
    let p := putU32Le p 112 r.staleness
    let p := putU32Le p 116 r.ackCmdSeq
    let p := putU8 p 120 r.rxCount
    let p := putU8 p 121 r.discardedOld
    let p := putU8 p 122 r.discardedSuperseded
    let p := putU8 p 123 r.discardedOther
    let p := putU8 p 124 r.state
    let p := putU8 p 125 r.reason
    let p := putU8 p 126 r.flags
    let p := putU8 p 127 r.ackStatus
    some p

/-- A record is encoded into a payload of the right size exactly if its counts are valid. -/
theorem encodeControl_isSome {p : Bytes} (h : p.length = kControlV1PayloadBytes) (r : ControlRecord) :
    (encodeControl p r).isSome = validCounts r.rxCount r.discardedOld r.discardedSuperseded r.discardedOther := by
  unfold encodeControl
  rw [h, bne_self_eq_false, Bool.false_or]
  cases validCounts r.rxCount r.discardedOld r.discardedSuperseded r.discardedOther <;> rfl

/-- The drain encodes a record whose counts fit its cycle. -/
theorem FittingCounts.encoded {r : ControlRecord} (h : FittingCounts r) :
    (encodeControl (List.replicate kControlV1PayloadBytes 0) r).isSome = true :=
  (encodeControl_isSome List.length_replicate r).trans h

end Tvc.Telem
