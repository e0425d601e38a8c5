import Tvc.Telemetry

/-!
# The Python wire codec of `ground/wire.py`

The Python side describes each payload by a table of names, offsets and kinds and walks that
table, where the vehicle writes every field by hand. Integers are unbounded until they are
written; a value that does not fit its width is an `OverflowError`, anything else that is
refused a `ValueError`.
-/

namespace Tvc.Wire

open ByteStore

/-- The exceptions the codec raises. -/
inductive Failure
  | valueError (message : String)
  | overflowError
  deriving DecidableEq, Repr

/-- The field names of the six payload schemas. -/
inductive FieldName
  | tick | deadlineNs | wokeNs | doneNs | theta | cmd | drops | cmdSeq | opcode | flags
  | effectiveTick | appliedTick | status | state | reason | tSendNs | omega | simReason | vehTick
  | tSensorSendNs | tVehSendNs | delta | staleness | sensorSendNs | rxNs | txNs | sensorTick
  | iState | dPrev | ackCmdSeq | rxCount | discardedOld | discardedSuperseded | discardedOther
  | ackStatus
  deriving DecidableEq, Repr

/-- The scalar kinds of `_FIELD_WIDTHS`. -/
inductive Kind
  | u8 | u16 | u32 | u64 | i64 | f64
  deriving DecidableEq, Repr

/-- `_FIELD_WIDTHS`. -/
def Kind.width : Kind → ℕ
  | .u8 => 1
  | .u16 => 2
  | .u32 => 4
  | .u64 => 8
  | .i64 => 8
  | .f64 => 8

/-- A field value: a Python integer or a float. -/
inductive Scalar
  | int (value : ℤ)
  | float (value : F64)
  deriving DecidableEq, Repr

/-- A field mapping. -/
abbrev Fields := List (FieldName × Scalar)

/-- `fields[name]` for an integer field. -/
def Fields.int (fields : Fields) (name : FieldName) : ℤ :=
  match fields.lookup name with
  | some (.int value) => value
  | _ => 0

/-- `fields[name]` for a float field. -/
def Fields.float (fields : Fields) (name : FieldName) : F64 :=
  match fields.lookup name with
  | some (.float value) => value
  | _ => ⟨0⟩

/-- `_PAYLOAD_FIELDS`: name, offset and kind of every field, empty for an unknown type. -/
def payloadFields : ℕ → List (FieldName × ℕ × Kind)
  | 1 => [(.tick, 0, .u64), (.deadlineNs, 8, .i64), (.wokeNs, 16, .i64), (.doneNs, 24, .i64),
      (.theta, 32, .f64), (.cmd, 40, .f64), (.drops, 48, .u64)]
  | 2 => [(.cmdSeq, 0, .u32), (.opcode, 4, .u16), (.flags, 6, .u16), (.effectiveTick, 8, .u64)]
  | 3 => [(.appliedTick, 0, .u64), (.cmdSeq, 8, .u32), (.status, 12, .u16), (.state, 14, .u8),
      (.reason, 15, .u8)]
  | 4 => [(.tick, 0, .u64), (.tSendNs, 8, .i64), (.theta, 16, .f64), (.omega, 24, .f64),
      (.flags, 32, .u32), (.cmdSeq, 36, .u32), (.simReason, 40, .u32)]
  | 5 => [(.tick, 0, .u64), (.vehTick, 8, .u64), (.tSensorSendNs, 16, .i64),
      (.tVehSendNs, 24, .i64), (.delta, 32, .f64), (.status, 40, .u32), (.staleness, 44, .u32)]
  | 6 => [(.tick, 0, .u64), (.deadlineNs, 8, .i64), (.wokeNs, 16, .i64), (.doneNs, 24, .i64),
      (.sensorSendNs, 32, .i64), (.rxNs, 40, .i64), (.txNs, 48, .i64), (.sensorTick, 56, .u64),
      (.theta, 64, .f64), (.omega, 72, .f64), (.cmd, 80, .f64), (.iState, 88, .f64),
      (.dPrev, 96, .f64), (.drops, 104, .u64), (.staleness, 112, .u32), (.ackCmdSeq, 116, .u32),
      (.rxCount, 120, .u8), (.discardedOld, 121, .u8), (.discardedSuperseded, 122, .u8),
      (.discardedOther, 123, .u8), (.state, 124, .u8), (.reason, 125, .u8), (.flags, 126, .u8),
      (.ackStatus, 127, .u8)]
  | _ => []

/-- `PAYLOAD_SIZES`. -/
def payloadSizes : ℕ → Option ℕ
  | 1 => some 56
  | 2 => some 16
  | 3 => some 16
  | 4 => some 44
  | 5 => some 48
  | 6 => some 128
  | _ => none

/-- `_check_payload_counts`: the sum of the discards is taken over unbounded integers. -/
def checkPayloadCounts (ftype : ℕ) (fields : Fields) : Except Failure Unit :=
  if ftype == 6 then
    let discarded := fields.int .discardedOld + fields.int .discardedSuperseded +
      fields.int .discardedOther
    if 9 < fields.int .rxCount || fields.int .rxCount < discarded then
      .error (.valueError "invalid control counts")
    else .ok ()
  else .ok ()

/-- The reserved flag bits a writer clears. -/
def maskFlags (ftype : ℕ) (name : FieldName) (value : Scalar) : Scalar :=
  match value with
  | .int v =>
    if name == .flags && (ftype == 2 || ftype == 4) then
      let mask : U32 := if ftype == 2 then 0x0001 else 0x0000FF07
      .int (BitVec.ofInt 32 v &&& mask).toNat
    else .int v
  | .float x => .float x

/-- `struct.pack` of a float, or `to_bytes` of an integer that fits its width. -/
def packScalar (kind : Kind) (value : Scalar) : Except Failure Bytes :=
  match kind, value with
  | .f64, .float x => .ok (encodeLe 8 x.bits.toNat)
  | .f64, .int _ => .error (.valueError "required argument is not a float")
  | _, .float _ => .error (.valueError "a float has no to_bytes")
  | .i64, .int v =>
    if -2 ^ 63 ≤ v && v < 2 ^ 63 then .ok (encodeLe 8 (v % 2 ^ 64).toNat) else .error .overflowError
  | kind, .int v =>
    if 0 ≤ v && v.toNat < 256 ^ kind.width then .ok (encodeLe kind.width v.toNat)
    else .error .overflowError

/-- Write one field of the table. -/
def writeField (ftype : ℕ) (fields : Fields) (payload : Bytes) (field : FieldName × ℕ × Kind) :
    Except Failure Bytes :=
  match fields.lookup field.1 with
  | none => .error (.valueError "missing field")
  | some value => (packScalar field.2.2 (maskFlags ftype field.1 value)).map (store payload field.2.1)

/-- `encode_payload`. -/
def encodePayload (ftype : ℕ) (fields : Fields) : Except Failure Bytes :=
  match payloadSizes ftype with
  | none => .error (.valueError s!"bad payload type {ftype}")
  | some size => do
    checkPayloadCounts ftype fields
    (payloadFields ftype).foldlM (writeField ftype fields) (List.replicate size 0)

/-- Read one field of the table. -/
def readField (data : Bytes) (field : FieldName × ℕ × Kind) : FieldName × Scalar :=
  let block := load data field.2.1 field.2.2.width
  (field.1, match field.2.2 with
    | .f64 => .float ⟨BitVec.ofNat 64 (decodeLe block)⟩
    | .i64 => .int (BitVec.ofNat 64 (decodeLe block)).toInt
    | _ => .int (decodeLe block))

/-- `decode_payload`. -/
def decodePayload (ftype : ℕ) (data : Bytes) : Except Failure Fields :=
  match payloadSizes ftype with
  | none => .error (.valueError s!"bad payload type {ftype}")
  | some size =>
    if data.length != size then
      .error (.valueError s!"type-{ftype} payload length {data.length} != {size}")
    else do
      let fields := (payloadFields ftype).map (readField data)
      checkPayloadCounts ftype fields
      return fields

/-- `decode_datagram`: the type, the sequence number and the raw payload of one datagram. -/
def decodeDatagram (data : Bytes) (acceptedTypes : List ℕ) : Except Failure (ℕ × ℕ × Bytes) :=
  if data.length < 14 then .error (.valueError "bad_length: truncated datagram")
  else
    let sync := decodeLe (load data 0 2)
    let version := decodeLe (load data 2 1)
    let ftype := decodeLe (load data 3 1)
    let length := decodeLe (load data 4 2)
    let seq := decodeLe (load data 6 4)
    if sync != 0xEB90 then .error (.valueError "bad_sync")
    else if version != 1 then .error (.valueError "bad_version")
    else if (payloadSizes ftype).isNone || !acceptedTypes.contains ftype then
      .error (.valueError "bad_type")
    else if payloadSizes ftype != some length || data.length != 10 + length + 4 then
      .error (.valueError "bad_length")
    else if decodeLe (load data (data.length - 4) 4) !=
        (Telem.crc32c (load data 2 (data.length - 6))).toNat then .error (.valueError "bad_crc")
    else .ok (ftype, seq, load data 10 (data.length - 14))

/-- `encode_frame`. -/
def encodeFrame (ftype : ℕ) (seq : ℕ) (payload : Bytes) : Except Failure Bytes :=
  if ftype < 1 || 6 < ftype then .error (.valueError s!"bad frame type {ftype}")
  else if 498 < payload.length then
    .error (.valueError s!"payload {payload.length} exceeds 498")
  else
    let head := encodeLe 2 0xEB90 ++ encodeLe 1 1 ++ encodeLe 1 ftype ++ encodeLe 2 payload.length ++
      encodeLe 4 (seq % 2 ^ 32)
    .ok (head ++ payload ++ encodeLe 4 (Telem.crc32c (head.drop 2 ++ payload)).toNat)

/-- A known type and a payload within the limit give the frame the vehicle would write. -/
theorem encodeFrame_eq {ftype : ℕ} (htype : 1 ≤ ftype ∧ ftype ≤ 6) (seq : ℕ) {payload : Bytes}
    (hsize : payload.length ≤ 498) :
    encodeFrame ftype seq payload =
      .ok (Telem.encodeFrame (BitVec.ofNat 8 ftype) (BitVec.ofNat 32 seq) payload) := by
  have hseq : (BitVec.ofNat 32 seq).toNat = seq % 2 ^ 32 := BitVec.toNat_ofNat _ _
  have hhead : encodeLe 2 0xEB90 ++ encodeLe 1 1 ++ encodeLe 1 ftype ++ encodeLe 2 payload.length ++
      encodeLe 4 (seq % 2 ^ 32) =
      Telem.frameHead (BitVec.ofNat 8 ftype) (BitVec.ofNat 32 seq) payload.length := by
    rw [Telem.frameHead, hseq]
    rfl
  have hdrop : (Telem.frameHead (BitVec.ofNat 8 ftype) (BitVec.ofNat 32 seq) payload.length).drop 2 ++
      payload = (Telem.frameHead (BitVec.ofNat 8 ftype) (BitVec.ofNat 32 seq) payload.length ++
        payload).drop 2 := by
    rw [List.drop_append_of_le_length (by simp)]
  have hknown : (decide (ftype < 1) || decide (6 < ftype)) = false := by
    simp only [Bool.or_eq_false_iff, decide_eq_false_iff_not]
    omega
  rw [encodeFrame, hknown, if_neg Bool.false_ne_true, if_neg (by omega), hhead]
  dsimp only
  rw [hdrop]
  rfl

/-- The mapping a sensor payload is built from. -/
def sensorDict (s : Telem.SensorFields) : Fields :=
  [(.tick, .int s.tick.toNat), (.tSendNs, .int s.tSendNs.toInt), (.theta, .float s.theta),
    (.omega, .float s.omega), (.flags, .int s.flags.toNat), (.cmdSeq, .int s.cmdSeq.toNat),
    (.simReason, .int s.simReason.toNat)]

/-- The mapping an actuator payload decodes to. -/
def actuatorDict (a : Telem.ActuatorFields) : Fields :=
  [(.tick, .int a.tick.toNat), (.vehTick, .int a.vehTick.toNat),
    (.tSensorSendNs, .int a.tSensorSendNs.toInt), (.tVehSendNs, .int a.tVehSendNs.toInt),
    (.delta, .float a.delta), (.status, .int a.status.toNat), (.staleness, .int a.staleness.toNat)]

/-- An unsigned value below the bound of its field is packed as the vehicle packs it. -/
theorem packScalar_unsigned {kind : Kind} (hkind : kind ≠ .i64 ∧ kind ≠ .f64) {v : ℕ}
    (hv : v < 256 ^ kind.width) : packScalar kind (.int v) = .ok (encodeLe kind.width v) := by
  cases kind <;> simp_all [packScalar]

/-- A 64-bit word fits a `u64` field. -/
@[simp] theorem packScalar_u64 (v : U64) : packScalar .u64 (.int v.toNat) = .ok (encodeLe 8 v.toNat) :=
  packScalar_unsigned (by simp) v.isLt

/-- A 32-bit word fits a `u32` field. -/
@[simp] theorem packScalar_u32 (v : U32) : packScalar .u32 (.int v.toNat) = .ok (encodeLe 4 v.toNat) :=
  packScalar_unsigned (by simp) v.isLt

/-- A signed value is packed as its two's complement pattern. -/
@[simp] theorem packScalar_signed (v : U64) : packScalar .i64 (.int v.toInt) = .ok (encodeLe 8 v.toNat) := by
  have hrange : -2 ^ 63 ≤ v.toInt ∧ v.toInt < 2 ^ 63 := by
    have := v.toInt_lt
    have := v.le_toInt
    omega
  have hpattern : (v.toInt % 2 ^ 64).toNat = v.toNat := by
    have := v.isLt
    rw [BitVec.toInt_eq_toNat_cond]
    split <;> omega
  simp only [packScalar, hrange.1, hrange.2, decide_true, Bool.and_self, if_true, hpattern]

/-- A double is packed as its pattern. -/
@[simp] theorem packScalar_f64 (x : F64) : packScalar .f64 (.float x) = .ok (encodeLe 8 x.bits.toNat) := rfl

/-- Only the flags of a command or a sensor payload are masked. -/
theorem maskFlags_of_ne {name : FieldName} (h : name ≠ .flags) (ftype : ℕ) (value : Scalar) :
    maskFlags ftype name value = value := by
  cases value <;> simp [maskFlags, h]

/-- The sensor flags are masked as the vehicle masks them. -/
theorem maskFlags_sensor (flags : U32) :
    maskFlags 4 .flags (.int flags.toNat) = .int (flags &&& 0x0000FF07).toNat := by
  simp [maskFlags]

/-- A field that fits is stored at its offset. -/
theorem writeField_ok {ftype o : ℕ} {fields : Fields} {name : FieldName} {kind : Kind} {value : Scalar}
    {block : Bytes} (hlookup : fields.lookup name = some value)
    (hpack : packScalar kind (maskFlags ftype name value) = .ok block) (payload : Bytes) :
    writeField ftype fields payload (name, o, kind) = .ok (store payload o block) := by
  simp only [writeField, hlookup, hpack]
  rfl

/-- Both languages write the same sensor payload. -/
theorem encodePayload_sensor (s : Telem.SensorFields) :
    (encodePayload 4 (sensorDict s)).toOption = Telem.encodeSensor (List.replicate 44 0) s := by
  have htick (p : Bytes) : writeField 4 (sensorDict s) p (.tick, 0, .u64) =
      .ok (Telem.putU64Le p 0 s.tick) :=
    writeField_ok rfl (by rw [maskFlags_of_ne (by simp), packScalar_u64]) p
  have hsend (p : Bytes) : writeField 4 (sensorDict s) p (.tSendNs, 8, .i64) =
      .ok (Telem.putU64Le p 8 s.tSendNs) :=
    writeField_ok rfl (by rw [maskFlags_of_ne (by simp), packScalar_signed]) p
  have htheta (p : Bytes) : writeField 4 (sensorDict s) p (.theta, 16, .f64) =
      .ok (Telem.putF64Le p 16 s.theta) := writeField_ok rfl rfl p
  have homega (p : Bytes) : writeField 4 (sensorDict s) p (.omega, 24, .f64) =
      .ok (Telem.putF64Le p 24 s.omega) := writeField_ok rfl rfl p
  have hflags (p : Bytes) : writeField 4 (sensorDict s) p (.flags, 32, .u32) =
      .ok (Telem.putU32Le p 32 (s.flags &&& 0x0000ff07)) :=
    writeField_ok rfl (by rw [maskFlags_sensor, packScalar_u32]) p
  have hseq (p : Bytes) : writeField 4 (sensorDict s) p (.cmdSeq, 36, .u32) =
      .ok (Telem.putU32Le p 36 s.cmdSeq) :=
    writeField_ok rfl (by rw [maskFlags_of_ne (by simp), packScalar_u32]) p
  have hreason (p : Bytes) : writeField 4 (sensorDict s) p (.simReason, 40, .u32) =
      .ok (Telem.putU32Le p 40 s.simReason) :=
    writeField_ok rfl (by rw [maskFlags_of_ne (by simp), packScalar_u32]) p
  have hcounts : checkPayloadCounts 4 (sensorDict s) = .ok () := rfl
  simp only [encodePayload, payloadSizes, payloadFields, List.foldlM_cons, List.foldlM_nil, htick, hsend,
    htheta, homega, hflags, hseq, hreason, hcounts]
  rfl

/-- A tick beyond 64 bits is not written. -/
theorem encodePayload_overflow {fields : Fields} {tick : ℕ} (htick : fields.lookup .tick = some (.int tick))
    (h : 2 ^ 64 ≤ tick) : encodePayload 4 fields = .error .overflowError := by
  have hpack : packScalar .u64 (.int tick) = .error .overflowError := by
    have hwide : ¬(tick : ℤ).toNat < 256 ^ Kind.u64.width := not_lt.mpr h
    simp only [packScalar, hwide, decide_false, Bool.and_false, Bool.false_eq_true, if_false]
  have hfield : writeField 4 fields (List.replicate 44 0) (.tick, 0, .u64) = .error .overflowError := by
    simp only [writeField, htick, maskFlags_of_ne (show FieldName.tick ≠ .flags by simp), hpack]
    rfl
  have hcounts : checkPayloadCounts 4 fields = .ok () := rfl
  simp only [encodePayload, payloadSizes, payloadFields, List.foldlM_cons, hcounts, hfield]
  rfl

/-- A time beyond 64 bits is not written. -/
theorem encodePayload_overflow_time {fields : Fields} {tick : ℕ} {time : ℤ}
    (htick : fields.lookup .tick = some (.int tick)) (hsmall : tick < 2 ^ 64)
    (htime : fields.lookup .tSendNs = some (.int time)) (h : ¬(-2 ^ 63 ≤ time ∧ time < 2 ^ 63)) :
    encodePayload 4 fields = .error .overflowError := by
  have hpack : packScalar .i64 (.int time) = .error .overflowError := by
    have hwide : (decide (-2 ^ 63 ≤ time) && decide (time < 2 ^ 63)) = false := by
      rw [← Bool.decide_and]
      exact decide_eq_false h
    simp only [packScalar, hwide, Bool.false_eq_true, if_false]
  have hfirst (p : Bytes) : writeField 4 fields p (.tick, 0, .u64) = .ok (store p 0 (encodeLe 8 tick)) :=
    writeField_ok htick (by
      rw [maskFlags_of_ne (by simp)]
      exact packScalar_unsigned (by simp) hsmall) p
  have hfield (p : Bytes) : writeField 4 fields p (.tSendNs, 8, .i64) = .error .overflowError := by
    simp only [writeField, htime, maskFlags_of_ne (show FieldName.tSendNs ≠ .flags by simp), hpack]
    rfl
  have hcounts : checkPayloadCounts 4 fields = .ok () := rfl
  simp only [encodePayload, payloadSizes, payloadFields, List.foldlM_cons, hcounts, hfirst]
  simp only [bind, Except.bind, hfield]

/-- A field of an unsigned word reads back as the vehicle reads it. -/
theorem readField_unsigned {n o : ℕ} {kind : Kind} (hkind : kind ≠ .i64 ∧ kind ≠ .f64)
    (hwidth : n = 8 * kind.width) {p : Bytes} (hp : o + kind.width ≤ p.length) (name : FieldName) :
    readField p (name, o, kind) = (name, .int (getLe n kind.width p o).toNat) := by
  rw [getLe_toNat hwidth hp]
  cases kind <;> simp_all [readField]

/-- Both languages read the same actuator payload. -/
theorem decodePayload_actuator {p : Bytes} {a : Telem.ActuatorFields}
    (h : Telem.decodeActuator p = some a) : decodePayload 5 p = .ok (actuatorDict a) := by
  unfold Telem.decodeActuator at h
  split at h
  · contradiction
  · rename_i hlen
    have hlen : p.length = 48 := by simpa [Telem.kActuatorV1PayloadBytes] using hlen
    obtain rfl := Option.some.inj h
    have hu64 (o : ℕ) (name : FieldName) (ho : o + 8 ≤ 48) :
        readField p (name, o, .u64) = (name, .int (Telem.getU64Le p o).toNat) :=
      readField_unsigned (n := 64) (by simp) rfl (by simpa [Kind.width, hlen] using ho) name
    have hu32 (o : ℕ) (name : FieldName) (ho : o + 4 ≤ 48) :
        readField p (name, o, .u32) = (name, .int (Telem.getU32Le p o).toNat) :=
      readField_unsigned (n := 32) (by simp) rfl (by simpa [Kind.width, hlen] using ho) name
    have hcounts (fields : Fields) : checkPayloadCounts 5 fields = .ok () := rfl
    simp only [decodePayload, payloadSizes, hlen, bne_self_eq_false, Bool.false_eq_true, if_false,
      payloadFields, List.map_cons, List.map_nil, hcounts, hu64 0 .tick (by omega),
      hu64 8 .vehTick (by omega), hu32 40 .status (by omega), hu32 44 .staleness (by omega)]
    rfl

/-- The types with a declared payload size are those with a vehicle size. -/
theorem payloadSizes_eq {type : U8} (h : 1 ≤ type.toNat ∧ type.toNat ≤ 6) :
    payloadSizes type.toNat = some (Telem.payloadSizes type) := by
  unfold Telem.payloadSizes
  generalize type.toNat = kind at h
  rcases (by omega : kind = 1 ∨ kind = 2 ∨ kind = 3 ∨ kind = 4 ∨ kind = 5 ∨ kind = 6) with
    rfl | rfl | rfl | rfl | rfl | rfl <;> rfl

/-- A datagram the vehicle would accept is accepted with the same type, number and payload. -/
theorem decodeDatagram_of_ok {data : Bytes} {types : List U8} {frame : Telem.DecodedFrame}
    (h : Telem.decodeDatagram data types = .ok frame) :
    decodeDatagram data (types.map BitVec.toNat) =
      .ok (frame.type.toNat, frame.seq.toNat, frame.payload data) := by
  simp only [Telem.decodeDatagram] at h
  repeat' split at h
  all_goals first | contradiction | skip
  rename_i hlong hsync hversion htype hsize hcrc
  obtain rfl := Except.ok.inj h
  simp only [Telem.kFrameOverhead, Bool.or_eq_true, bne_iff_ne, ne_eq, not_or, not_not,
    decide_eq_true_eq, Bool.not_eq_true', Bool.not_eq_false] at hlong hsync hversion htype hsize hcrc
  have hbyte (o : ℕ) (ho : o + 1 ≤ data.length) : decodeLe (load data o 1) = (Telem.getU8 data o).toNat :=
    (getLe_toNat (by omega) ho).symm
  have hhalf (o : ℕ) (ho : o + 2 ≤ data.length) : decodeLe (load data o 2) = (Telem.getU16Le data o).toNat :=
    (getLe_toNat (by omega) ho).symm
  have hword (o : ℕ) (ho : o + 4 ≤ data.length) : decodeLe (load data o 4) = (Telem.getU32Le data o).toNat :=
    (getLe_toNat (by omega) ho).symm
  have hsizes : payloadSizes (Telem.getU8 data 3).toNat = some (Telem.payloadSizes (Telem.getU8 data 3)) :=
    payloadSizes_eq (by omega)
  have hmember : (types.map BitVec.toNat).contains (Telem.getU8 data 3).toNat = true := by
    rw [List.contains_iff_mem]
    exact List.mem_map_of_mem (List.contains_iff_mem.mp htype.2)
  have hcovered : data.length - 6 = 8 + (Telem.getU16Le data 4).toNat := by omega
  have hpayload : data.length - 14 = (Telem.getU16Le data 4).toNat := by omega
  rw [decodeDatagram, if_neg (by omega), hhalf 0 (by omega), hbyte 2 (by omega), hbyte 3 (by omega),
    hhalf 4 (by omega), hword 6 (by omega), hword (data.length - 4) (by omega), hsync, hversion, hcrc,
    hcovered, hpayload]
  dsimp only
  have htotal : data.length = 10 + (Telem.getU16Le data 4).toNat + 4 := by omega
  rw [hsizes, hmember, ← hsize.1]
  simp [Telem.kSync, Telem.kVersion, Telem.DecodedFrame.payload, ← htotal]

end Tvc.Wire
