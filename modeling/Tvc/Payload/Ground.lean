import Tvc.Payload.Blocks

/-!
# The payload codecs of both languages

Each of the six payload types with its layout. The ground tools walk their table over a mapping of field
names, and pack or unpack the same block at the same offset as the vehicle.
-/

namespace Tvc

open ByteStore

/-! ## The six types -/

namespace Wire

/-- The mapping of a telemetry record. -/
def recordDict (r : Telem.Record) : Fields :=
  [(.tick, .int r.tick.toNat), (.deadlineNs, .int r.deadlineNs.toInt), (.wokeNs, .int r.wokeNs.toInt),
    (.doneNs, .int r.doneNs.toInt), (.theta, .float r.theta), (.cmd, .float r.cmd), (.drops, .int r.drops.toNat)]

/-- The mapping of a command. -/
def commandDict (c : Telem.CommandFields) : Fields :=
  [(.cmdSeq, .int c.cmdSeq.toNat), (.opcode, .int c.opcode.toNat), (.flags, .int c.flags.toNat),
    (.effectiveTick, .int c.effectiveTick.toNat)]

/-- The mapping of an acknowledgement. -/
def ackDict (a : Telem.AckFields) : Fields :=
  [(.appliedTick, .int a.appliedTick.toNat), (.cmdSeq, .int a.cmdSeq.toNat), (.status, .int a.status.toNat),
    (.state, .int a.state.toNat), (.reason, .int a.reason.toNat)]

/-- The mapping of a control record. -/
def controlDict (r : Telem.ControlRecord) : Fields :=
  [(.tick, .int r.tick.toNat), (.deadlineNs, .int r.deadlineNs.toInt), (.wokeNs, .int r.wokeNs.toInt),
    (.doneNs, .int r.doneNs.toInt), (.sensorSendNs, .int r.sensorSendNs.toInt), (.rxNs, .int r.rxNs.toInt),
    (.txNs, .int r.txNs.toInt), (.sensorTick, .int r.sensorTick.toNat), (.theta, .float r.theta),
    (.omega, .float r.omega), (.cmd, .float r.cmd), (.iState, .float r.iState), (.dPrev, .float r.dPrev),
    (.drops, .int r.drops.toNat), (.staleness, .int r.staleness.toNat), (.ackCmdSeq, .int r.ackCmdSeq.toNat),
    (.rxCount, .int r.rxCount.toNat), (.discardedOld, .int r.discardedOld.toNat),
    (.discardedSuperseded, .int r.discardedSuperseded.toNat), (.discardedOther, .int r.discardedOther.toNat),
    (.state, .int r.state.toNat), (.reason, .int r.reason.toNat), (.flags, .int r.flags.toNat),
    (.ackStatus, .int r.ackStatus.toNat)]

end Wire

open Telem

/-- Type 1. -/
def recordCodec : PayloadCodec Record where
  ftype := 1
  size := kTelemetryV1PayloadBytes
  encode := encodeRecordInto
  decode := decodeRecordInto
  dict := Wire.recordDict
  masked := id
  valid _ := true
  counts _ := true
  reserved _ := true

/-- Type 2: a writer clears all flags but the first. -/
def commandCodec : PayloadCodec CommandFields where
  ftype := 2
  size := kCommandV1PayloadBytes
  encode := encodeCommandInto
  decode := decodeCommandInto
  dict := Wire.commandDict
  masked c := { c with flags := c.flags &&& 0x0001 }
  valid _ := true
  counts _ := true
  reserved q := getU16Le q 6 &&& 0x0001 == getU16Le q 6

/-- Type 3. -/
def ackCodec : PayloadCodec AckFields where
  ftype := 3
  size := kAckV1PayloadBytes
  encode := encodeAckInto
  decode := decodeAckInto
  dict := Wire.ackDict
  masked := id
  valid _ := true
  counts _ := true
  reserved _ := true

/-- Type 4: a writer clears the reserved flags. -/
def sensorCodec : PayloadCodec SensorFields where
  ftype := 4
  size := kSensorV1PayloadBytes
  encode := encodeSensorInto
  decode := decodeSensorInto
  dict := Wire.sensorDict
  masked s := { s with flags := s.flags &&& 0x0000ff07 }
  valid _ := true
  counts _ := true
  reserved q := getU32Le q 32 &&& 0x0000ff07 == getU32Le q 32

/-- Type 5. -/
def actuatorCodec : PayloadCodec ActuatorFields where
  ftype := 5
  size := kActuatorV1PayloadBytes
  encode := encodeActuatorInto
  decode := decodeActuatorInto
  dict := Wire.actuatorDict
  masked := id
  valid _ := true
  counts _ := true
  reserved _ := true

/-- Type 6: the counts of a cycle have to fit. -/
def controlCodec : PayloadCodec ControlRecord where
  ftype := 6
  size := kControlV1PayloadBytes
  encode := encodeControlInto
  decode := decodeControlInto
  dict := Wire.controlDict
  masked := id
  valid r := validCounts r.rxCount r.discardedOld r.discardedSuperseded r.discardedOther
  counts q := validCounts (getU8 q 120) (getU8 q 121) (getU8 q 122) (getU8 q 123)
  reserved _ := true

/-! ## Their layouts -/

section Layout

@[simp] theorem encodeLe_u64_inj {v v' : U64} : encodeLe 8 v.toNat = encodeLe 8 v'.toNat ↔ v = v' :=
  encodeLe_toNat_inj rfl

@[simp] theorem encodeLe_u32_inj {v v' : U32} : encodeLe 4 v.toNat = encodeLe 4 v'.toNat ↔ v = v' :=
  encodeLe_toNat_inj rfl

@[simp] theorem encodeLe_u16_inj {v v' : U16} : encodeLe 2 v.toNat = encodeLe 2 v'.toNat ↔ v = v' :=
  encodeLe_toNat_inj rfl

@[simp] theorem encodeLe_u8_inj {v v' : U8} : encodeLe 1 v.toNat = encodeLe 1 v'.toNat ↔ v = v' :=
  encodeLe_toNat_inj rfl

/-- A double is told by its pattern. -/
@[simp] theorem F64.bits_inj {x y : F64} : x.bits = y.bits ↔ x = y := ⟨fun h => by cases x; cases y; simpa using h, congrArg _⟩

/-- A word read from a buffer has the bytes of the buffer. -/
theorem encodeLe_getLe {n width o : ℕ} {q : Bytes} (hwidth : n = 8 * width) (h : o + width ≤ q.length) :
    encodeLe width (getLe n width q o).toNat = load q o width := (load_eq_encodeLe hwidth h).symm

/-- The layout of type 1. -/
theorem recordCodec_laidOut : recordCodec.LaidOut Record.blocks readRecord [8, 8, 8, 8, 8, 8, 8] where
  widths_sum := rfl
  blocks_widths r := by simp [Record.blocks]
  blocks_injective := by
    rintro ⟨⟩ ⟨⟩ h
    simpa [Record.blocks] using h
  encode_eq p r := by
    simp only [recordCodec, encodeRecordInto, bne_iff_ne, ne_eq, ite_not, and_true]
    rfl
  decode_eq q out := by simp only [recordCodec, decodeRecordInto, bne_iff_ne, ne_eq, ite_not, and_true]
  slices_eq q hq := by
    have hq : q.length = 56 := hq
    simp (disch := omega) only [Record.blocks, readRecord, slices, Nat.zero_add, Nat.reduceAdd, encodeLe_getLe]
  valid_read _ := rfl
  valid_masked _ := rfl
  masked_read _ _ := rfl

/-- The layout of type 2. -/
theorem commandCodec_laidOut : commandCodec.LaidOut CommandFields.blocks readCommand [4, 2, 2, 8] where
  widths_sum := rfl
  blocks_widths r := by simp [CommandFields.blocks]
  blocks_injective := by
    rintro ⟨⟩ ⟨⟩ h
    simpa [CommandFields.blocks] using h
  encode_eq p r := by
    simp only [commandCodec, encodeCommandInto, bne_iff_ne, ne_eq, ite_not, and_true]
    rfl
  decode_eq q out := by simp only [commandCodec, decodeCommandInto, bne_iff_ne, ne_eq, ite_not, and_true]
  slices_eq q hq := by
    have hq : q.length = 16 := hq
    simp (disch := omega) only [CommandFields.blocks, readCommand, slices, Nat.zero_add, Nat.reduceAdd, encodeLe_getLe]
  valid_read _ := rfl
  valid_masked _ := rfl
  masked_read q h := congrArg (CommandFields.mk _ _ · _) (beq_iff_eq.mp h)

/-- The layout of type 3. -/
theorem ackCodec_laidOut : ackCodec.LaidOut AckFields.blocks readAck [8, 4, 2, 1, 1] where
  widths_sum := rfl
  blocks_widths r := by simp [AckFields.blocks]
  blocks_injective := by
    rintro ⟨⟩ ⟨⟩ h
    simpa [AckFields.blocks] using h
  encode_eq p r := by
    simp only [ackCodec, encodeAckInto, bne_iff_ne, ne_eq, ite_not, and_true]
    rfl
  decode_eq q out := by simp only [ackCodec, decodeAckInto, bne_iff_ne, ne_eq, ite_not, and_true]
  slices_eq q hq := by
    have hq : q.length = 16 := hq
    simp (disch := omega) only [AckFields.blocks, readAck, slices, Nat.zero_add, Nat.reduceAdd, encodeLe_getLe]
  valid_read _ := rfl
  valid_masked _ := rfl
  masked_read _ _ := rfl

/-- The layout of type 4. -/
theorem sensorCodec_laidOut : sensorCodec.LaidOut SensorFields.blocks readSensor [8, 8, 8, 8, 4, 4, 4] where
  widths_sum := rfl
  blocks_widths r := by simp [SensorFields.blocks]
  blocks_injective := by
    rintro ⟨⟩ ⟨⟩ h
    simpa [SensorFields.blocks] using h
  encode_eq p r := by
    simp only [sensorCodec, encodeSensorInto, bne_iff_ne, ne_eq, ite_not, and_true]
    rfl
  decode_eq q out := by simp only [sensorCodec, decodeSensorInto, bne_iff_ne, ne_eq, ite_not, and_true]
  slices_eq q hq := by
    have hq : q.length = 44 := hq
    simp (disch := omega) only [SensorFields.blocks, readSensor, slices, Nat.zero_add, Nat.reduceAdd, encodeLe_getLe]
  valid_read _ := rfl
  valid_masked _ := rfl
  masked_read q h := congrArg (SensorFields.mk _ _ _ _ · _ _) (beq_iff_eq.mp h)

/-- The layout of type 5. -/
theorem actuatorCodec_laidOut : actuatorCodec.LaidOut ActuatorFields.blocks readActuator [8, 8, 8, 8, 8, 4, 4] where
  widths_sum := rfl
  blocks_widths r := by simp [ActuatorFields.blocks]
  blocks_injective := by
    rintro ⟨⟩ ⟨⟩ h
    simpa [ActuatorFields.blocks] using h
  encode_eq p r := by
    simp only [actuatorCodec, encodeActuatorInto, bne_iff_ne, ne_eq, ite_not, and_true]
    rfl
  decode_eq q out := by simp only [actuatorCodec, decodeActuatorInto, bne_iff_ne, ne_eq, ite_not, and_true]
  slices_eq q hq := by
    have hq : q.length = 48 := hq
    simp (disch := omega) only [ActuatorFields.blocks, readActuator, slices, Nat.zero_add, Nat.reduceAdd, encodeLe_getLe]
  valid_read _ := rfl
  valid_masked _ := rfl
  masked_read _ _ := rfl

/-- The layout of type 6. -/
theorem controlCodec_laidOut : controlCodec.LaidOut ControlRecord.blocks readControl 
      [8, 8, 8, 8, 8, 8, 8, 8, 8, 8, 8, 8, 8, 8, 4, 4, 1, 1, 1, 1, 1, 1, 1, 1] where
  widths_sum := rfl
  blocks_widths r := by simp [ControlRecord.blocks]
  blocks_injective := by
    rintro ⟨⟩ ⟨⟩ h
    simpa [ControlRecord.blocks] using h
  encode_eq p r := by
    have hcheck : (p.length != kControlV1PayloadBytes ||
        !validCounts r.rxCount r.discardedOld r.discardedSuperseded r.discardedOther) = true ↔
        ¬(p.length = controlCodec.size ∧ controlCodec.valid r = true) := by
      rw [Bool.or_eq_true, bne_iff_ne, Bool.not_eq_true', ← Bool.not_eq_true, not_and_or]
      exact Iff.rfl
    by_cases hfits : p.length = controlCodec.size ∧ controlCodec.valid r = true
    · rw [if_pos hfits]
      exact if_neg (mt hcheck.mp (not_not.mpr hfits))
    · rw [if_neg hfits]
      exact if_pos (hcheck.mpr hfits)
  decode_eq q out := by
    simp only [controlCodec, decodeControlInto, bne_iff_ne, ne_eq, ite_not]
    by_cases hcounts : validCounts (getU8 q 120) (getU8 q 121) (getU8 q 122) (getU8 q 123) = true <;> simp [hcounts]
  slices_eq q hq := by
    have hq : q.length = 128 := hq
    simp (disch := omega) only [ControlRecord.blocks, readControl, slices, Nat.zero_add, Nat.reduceAdd, encodeLe_getLe]
  valid_read _ := rfl
  valid_masked _ := rfl
  masked_read _ _ := rfl

end Layout

/-! ## The tables -/

namespace Wire

/-- A table walks the blocks of a mapping from an offset on. -/
inductive Walk (ftype : ℕ) (fields : Fields) : ℕ → List (FieldName × ℕ × Kind) → List Bytes → Prop
  | nil {o : ℕ} : Walk ftype fields o [] []
  | cons {o offset : ℕ} {name : FieldName} {kind : Kind} {value : Scalar} {block : Bytes}
      {table : List (FieldName × ℕ × Kind)} {blocks : List Bytes} (hlookup : fields.lookup name = some value)
      (hpack : packScalar kind (maskFlags ftype name value) = .ok block) (hoffset : offset = o)
      (hrest : Walk ftype fields (o + kind.width) table blocks) :
      Walk ftype fields o ((name, offset, kind) :: table) (block :: blocks)

/-- A packed scalar takes the width of its kind. -/
theorem packScalar_length {kind : Kind} {value : Scalar} {block : Bytes} (h : packScalar kind value = .ok block) :
    block.length = kind.width := by
  have hpacked {c : Prop} [Decidable c] {block' : Bytes}
      (h : (if c then .ok block' else .error .overflowError : Except Failure Bytes) = .ok block) : block' = block := by
    split at h
    · exact Except.ok.inj h
    · contradiction
  cases kind <;> cases value <;> first
    | contradiction
    | exact hpacked h ▸ encodeLe_length _ _
    | exact Except.ok.inj h ▸ encodeLe_length _ _

/-- Walking a table stores its blocks. -/
theorem Walk.foldlM {ftype o : ℕ} {fields : Fields} {table : List (FieldName × ℕ × Kind)} {blocks : List Bytes}
    (h : Walk ftype fields o table blocks) (p : Bytes) :
    table.foldlM (writeField ftype fields) p = .ok (storeAll p o blocks) := by
  induction h generalizing p with
  | nil => rfl
  | cons hlookup hpack hoffset _ ih =>
    subst hoffset
    rw [List.foldlM_cons, writeField_ok hlookup hpack, storeAll, packScalar_length hpack]
    exact ih _

/-- A mapping whose blocks the table walks is encoded as its blocks. -/
theorem Walk.encodePayload {ftype size : ℕ} {fields : Fields} {blocks : List Bytes}
    (h : Walk ftype fields 0 (payloadFields ftype) blocks) (hsize : payloadSizes ftype = some size) :
    (encodePayload ftype fields).toOption =
      if (checkPayloadCounts ftype fields).isOk then some (storeAll (List.replicate size 0) 0 blocks) else none := by
  rw [Wire.encodePayload, hsize]
  dsimp only
  rw [h.foldlM]
  cases checkPayloadCounts ftype fields <;> rfl

/-- A payload whose table reads a mapping is decoded to it. -/
theorem decodePayload_eq {ftype size : ℕ} {q : Bytes} {fields : Fields} (hsize : payloadSizes ftype = some size)
    (hread : q.length = size → (payloadFields ftype).map (readField q) = fields) :
    (decodePayload ftype q).toOption =
      if q.length = size ∧ (checkPayloadCounts ftype fields).isOk then some fields else none := by
  rw [decodePayload, hsize]
  dsimp only
  by_cases hq : q.length = size
  · rw [hread hq, if_neg (by simpa using hq)]
    cases checkPayloadCounts ftype fields <;> simp [hq] <;> rfl
  · rw [if_pos (by simpa using hq), if_neg fun h => hq h.1]
    rfl

theorem readField_u64 {q : Bytes} {o : ℕ} (h : o + 8 ≤ q.length) (name : FieldName) :
    readField q (name, o, .u64) = (name, .int (getU64Le q o).toNat) := readField_unsigned (by simp) rfl h name

theorem readField_u32 {q : Bytes} {o : ℕ} (h : o + 4 ≤ q.length) (name : FieldName) :
    readField q (name, o, .u32) = (name, .int (getU32Le q o).toNat) := readField_unsigned (by simp) rfl h name

theorem readField_u16 {q : Bytes} {o : ℕ} (h : o + 2 ≤ q.length) (name : FieldName) :
    readField q (name, o, .u16) = (name, .int (getU16Le q o).toNat) := readField_unsigned (by simp) rfl h name

theorem readField_u8 {q : Bytes} {o : ℕ} (h : o + 1 ≤ q.length) (name : FieldName) :
    readField q (name, o, .u8) = (name, .int (getU8 q o).toNat) := readField_unsigned (by simp) rfl h name

theorem readField_i64 (q : Bytes) (o : ℕ) (name : FieldName) :
    readField q (name, o, .i64) = (name, .int (getU64Le q o).toInt) := rfl

theorem readField_f64 (q : Bytes) (o : ℕ) (name : FieldName) :
    readField q (name, o, .f64) = (name, .float (getF64Le q o)) := rfl

@[simp] theorem packScalar_u16 (v : U16) : packScalar .u16 (.int v.toNat) = .ok (encodeLe 2 v.toNat) :=
  packScalar_unsigned (by simp) v.isLt

@[simp] theorem packScalar_u8 (v : U8) : packScalar .u8 (.int v.toNat) = .ok (encodeLe 1 v.toNat) :=
  packScalar_unsigned (by simp) v.isLt

/-- The flags of the other types are not masked. -/
theorem maskFlags_of_type {ftype : ℕ} (h : ftype ≠ 2 ∧ ftype ≠ 4) (name : FieldName) (value : Scalar) :
    maskFlags ftype name value = value := by
  cases value <;> simp [maskFlags, h]

/-- The command flags are masked as the vehicle masks them. -/
theorem maskFlags_command (flags : U16) :
    maskFlags 2 .flags (.int flags.toNat) = .int (flags &&& 0x0001).toNat := by
  have hflags := flags.isLt
  simp only [maskFlags, BitVec.ofInt_natCast, BitVec.toNat_and, BitVec.toNat_ofNat]
  simp [Nat.mod_eq_of_lt (show flags.toNat < 4294967296 by omega)]

theorem recordDict_walk (r : Record) : Walk 1 (recordDict r) 0 (payloadFields 1) r.blocks := by
  repeat' first | exact Walk.nil | refine Walk.cons rfl ?_ rfl ?_
  all_goals simp [maskFlags_of_type]

theorem commandDict_walk (c : CommandFields) :
    Walk 2 (commandDict c) 0 (payloadFields 2) { c with flags := c.flags &&& 0x0001 }.blocks := by
  repeat' first | exact Walk.nil | refine Walk.cons rfl ?_ rfl ?_
  all_goals simp only [maskFlags_command, packScalar_u16]
  all_goals simp [maskFlags_of_ne]

theorem ackDict_walk (a : AckFields) : Walk 3 (ackDict a) 0 (payloadFields 3) a.blocks := by
  repeat' first | exact Walk.nil | refine Walk.cons rfl ?_ rfl ?_
  all_goals simp [maskFlags_of_type]

theorem sensorDict_walk (s : SensorFields) :
    Walk 4 (sensorDict s) 0 (payloadFields 4) { s with flags := s.flags &&& 0x0000ff07 }.blocks := by
  repeat' first | exact Walk.nil | refine Walk.cons rfl ?_ rfl ?_
  all_goals simp only [maskFlags_sensor, packScalar_u32]
  all_goals simp [maskFlags_of_ne]

theorem actuatorDict_walk (a : ActuatorFields) : Walk 5 (actuatorDict a) 0 (payloadFields 5) a.blocks := by
  repeat' first | exact Walk.nil | refine Walk.cons rfl ?_ rfl ?_
  all_goals simp [maskFlags_of_type]

theorem controlDict_walk (r : ControlRecord) : Walk 6 (controlDict r) 0 (payloadFields 6) r.blocks := by
  repeat' first | exact Walk.nil | refine Walk.cons rfl ?_ rfl ?_
  all_goals simp [maskFlags_of_type]

theorem recordDict_read {q : Bytes} (h : q.length = 56) :
    (payloadFields 1).map (readField q) = recordDict (readRecord q) := by
  simp (disch := omega) only [payloadFields, List.map_cons, List.map_nil, readField_u64, readField_i64, readField_f64]
  rfl

theorem commandDict_read {q : Bytes} (h : q.length = 16) :
    (payloadFields 2).map (readField q) = commandDict (readCommand q) := by
  simp (disch := omega) only [payloadFields, List.map_cons, List.map_nil, readField_u64, readField_u32, readField_u16]
  rfl

theorem ackDict_read {q : Bytes} (h : q.length = 16) : (payloadFields 3).map (readField q) = ackDict (readAck q) := by
  simp (disch := omega) only [payloadFields, List.map_cons, List.map_nil, readField_u64, readField_u32, readField_u16,
    readField_u8]
  rfl

theorem sensorDict_read {q : Bytes} (h : q.length = 44) :
    (payloadFields 4).map (readField q) = sensorDict (readSensor q) := by
  simp (disch := omega) only [payloadFields, List.map_cons, List.map_nil, readField_u64, readField_u32, readField_i64,
    readField_f64]
  rfl

theorem actuatorDict_read {q : Bytes} (h : q.length = 48) :
    (payloadFields 5).map (readField q) = actuatorDict (readActuator q) := by
  simp (disch := omega) only [payloadFields, List.map_cons, List.map_nil, readField_u64, readField_u32, readField_i64,
    readField_f64]
  rfl

theorem controlDict_read {q : Bytes} (h : q.length = 128) :
    (payloadFields 6).map (readField q) = controlDict (readControl q) := by
  simp (disch := omega) only [payloadFields, List.map_cons, List.map_nil, readField_u64, readField_u32, readField_u8,
    readField_i64, readField_f64]
  rfl

/-- The ground tools check the counts of a control record as the vehicle does. -/
theorem checkPayloadCounts_control (r : ControlRecord) :
    (checkPayloadCounts 6 (controlDict r)).isOk =
      validCounts r.rxCount r.discardedOld r.discardedSuperseded r.discardedOther := by
  have hcheck : checkPayloadCounts 6 (controlDict r) =
      if 9 < (r.rxCount.toNat : ℤ) || (r.rxCount.toNat : ℤ) <
        (r.discardedOld.toNat : ℤ) + r.discardedSuperseded.toNat + r.discardedOther.toNat then
        .error (.valueError "invalid control counts")
      else .ok () := rfl
  have hcounts : (9 < (r.rxCount.toNat : ℤ) || (r.rxCount.toNat : ℤ) <
      (r.discardedOld.toNat : ℤ) + r.discardedSuperseded.toNat + r.discardedOther.toNat) =
      !validCounts r.rxCount r.discardedOld r.discardedSuperseded r.discardedOther := by
    rw [validCounts, Bool.eq_iff_iff, Bool.or_eq_true, decide_eq_true_eq, decide_eq_true_eq, Bool.not_eq_true',
      Bool.and_eq_false_iff, decide_eq_false_iff_not, decide_eq_false_iff_not]
    omega
  rw [hcheck, hcounts]
  cases validCounts r.rxCount r.discardedOld r.discardedSuperseded r.discardedOther <;> rfl

end Wire

/-- The payload codecs of all six types round trip in both directions, refuse without writing, and are those of the
ground tools. -/
theorem payload_codecs_correct :
    recordCodec.Correct ∧ commandCodec.Correct ∧ ackCodec.Correct ∧ sensorCodec.Correct ∧ actuatorCodec.Correct ∧
      controlCodec.Correct := by
  refine ⟨recordCodec_laidOut.correct (fun r => ?_) fun q => ?_, commandCodec_laidOut.correct (fun c => ?_) fun q => ?_,
    ackCodec_laidOut.correct (fun a => ?_) fun q => ?_, sensorCodec_laidOut.correct (fun s => ?_) fun q => ?_,
    actuatorCodec_laidOut.correct (fun a => ?_) fun q => ?_, controlCodec_laidOut.correct (fun r => ?_) fun q => ?_⟩
  · exact (Wire.recordDict_walk r).encodePayload rfl
  · exact Wire.decodePayload_eq rfl fun hq => Wire.recordDict_read hq
  · exact (Wire.commandDict_walk c).encodePayload rfl
  · exact Wire.decodePayload_eq rfl fun hq => Wire.commandDict_read hq
  · exact (Wire.ackDict_walk a).encodePayload rfl
  · exact Wire.decodePayload_eq rfl fun hq => Wire.ackDict_read hq
  · exact (Wire.sensorDict_walk s).encodePayload rfl
  · exact Wire.decodePayload_eq rfl fun hq => Wire.sensorDict_read hq
  · exact (Wire.actuatorDict_walk a).encodePayload rfl
  · exact Wire.decodePayload_eq rfl fun hq => Wire.actuatorDict_read hq
  · have hencode := (Wire.controlDict_walk r).encodePayload rfl
    rw [Wire.checkPayloadCounts_control] at hencode
    exact hencode
  · have hdecode := Wire.decodePayload_eq rfl fun hq => Wire.controlDict_read (q := q) hq
    rw [Wire.checkPayloadCounts_control] at hdecode
    exact hdecode

end Tvc
