import Tvc.Payload.Ground
import Tvc.Recorder.Invariant
import Tvc.Stream.Clean

/-!
# The reader of `ground/wire.py`

A typed recording is a header that names its schema, followed by frames of the one type of that schema.
What the vehicle writes is read back record by record, whatever its clocks showed.
-/

namespace Tvc.Wire

open ByteStore
open Telem (DecodeCounters)

/-- `MAGIC`. -/
def MAGIC : Bytes := [0x54, 0x56, 0x43, 0x52, 0x45, 0x43, 0x52, 0x44]

/-- `FILE_SCHEMAS`. -/
def fileSchemas (schemaHash : ℕ) : Option ℕ :=
  if schemaHash == 0xA871CD84 then some 1
  else if schemaHash == 0xD23A4196 then some 4
  else if schemaHash == 0xADFA94C8 then some 6
  else none

/-- `HEADER.size`. -/
def headerSize : ℕ := 32

/-- The header a recording is returned with. -/
structure RecordingHeader where
  magic : Bytes
  version : ℕ
  schemaHash : ℕ
  startMonotonicNs : ℤ
  startEpochNs : ℤ
  schemaKnown : Bool
  deriving DecidableEq, Repr

/-- The digits of a number in base 16, filled up with zeros. -/
def hexDigits (width n : ℕ) : String :=
  let digits := Nat.toDigits 16 n
  String.ofList (List.replicate (width - digits.length) '0' ++ digits)

/-- One byte in the `repr` of a bytes object. -/
def reprByte (quote : Char) (b : U8) : String :=
  let c := Char.ofNat b.toNat
  if c == quote || b == 0x5C then "\\" ++ c.toString
  else if b == 0x09 then "\\t"
  else if b == 0x0A then "\\n"
  else if b == 0x0D then "\\r"
  else if b.toNat < 0x20 || 0x7F ≤ b.toNat then "\\x" ++ hexDigits 2 b.toNat
  else c.toString

/-- `repr` of a bytes object: double quotes only where single ones stand inside and double ones do not. -/
def reprBytes (data : Bytes) : String :=
  let quote := Char.ofNat (if data.contains 0x27 && !data.contains 0x22 then 0x22 else 0x27)
  "b" ++ quote.toString ++ String.join (data.map (reprByte quote)) ++ quote.toString

/-- One recovered frame of a typed recording. -/
def typedRecord (expectedType : ℕ) (frame : ℕ × ℕ × Bytes) : Except Failure Fields :=
  let (ftype, seq, payload) := frame
  if ftype != expectedType then
    .error (.valueError s!"recovered type {ftype} at seq {seq} != declared type {expectedType}")
  else decodePayload ftype payload

/-- `read_typed_recording` on the bytes of the file. -/
def readTypedRecording (crc : Bytes → U32) (data : Bytes) (expectedType : ℕ) :
    Except Failure (RecordingHeader × List Fields × DecodeCounters) :=
  if expectedType != 1 && expectedType != 4 && expectedType != 6 then
    .error (.valueError s!"unsupported expected_type {expectedType}")
  else if data.length < headerSize then .error (.valueError "recording shorter than its header")
  else
    let magic := load data 0 8
    let version := decodeLe (load data 8 2)
    let reserved := decodeLe (load data 10 2)
    let schemaHash := decodeLe (load data 12 4)
    let mono := (BitVec.ofNat 64 (decodeLe (load data 16 8))).toInt
    let epoch := (BitVec.ofNat 64 (decodeLe (load data 24 8))).toInt
    if magic != MAGIC then .error (.valueError ("bad magic " ++ reprBytes magic))
    else if version != 1 then .error (.valueError s!"unsupported recording version {version}")
    else if reserved != 0 then .error (.valueError "nonzero reserved header word")
    else
      match fileSchemas schemaHash with
      | none => .error (.valueError ("unknown file schema 0x" ++ hexDigits 8 schemaHash))
      | some ftype =>
        if ftype != expectedType then
          .error (.valueError s!"file schema does not match expected_type {expectedType}")
        else do
          let header : RecordingHeader :=
            { magic, version, schemaHash, startMonotonicNs := mono, startEpochNs := epoch, schemaKnown := true }
          let (frames, ctr) := decodeStream crc (data.drop headerSize)
          let records ← frames.mapM (typedRecord expectedType)
          return (header, records, ctr)

end Tvc.Wire

namespace Tvc.Recorder

open ByteStore
open Telem (ControlRecord FittingCounts WireFrame joined encodeControl kControlV1PayloadBytes kControlV1SchemaHash
  encodeRecordingHeader crc32c)

/-! ## The frames of a recording -/

/-- The payload of a record is what the encoder writes, or nothing. -/
theorem payloadOf_length_le (r : ControlRecord) : (payloadOf r).length ≤ Telem.kMaxPayload := by
  by_cases hfits : FittingCounts r
  · obtain ⟨payload, hpayload, hlength⟩ := encodeControl_of_fitting hfits
    rw [payloadOf_eq hpayload, hlength]
    decide
  · have hnone : encodeControl (List.replicate kControlV1PayloadBytes 0) r = none := by
      rw [← Option.not_isSome_iff_eq_none, Telem.encodeControl_isSome List.length_replicate]
      exact hfits
    unfold payloadOf
    rw [hnone]
    exact Nat.zero_le _

/-- A record as a frame of the recording. -/
def frameOf (r : ControlRecord) (k : ℕ) : WireFrame where
  type := 6
  seq := BitVec.ofNat 32 k
  payload := payloadOf r
  known := by decide
  short := payloadOf_length_le r

/-- A frame of the recording has the bytes the drain writes. -/
theorem frameOf_bytes (r : ControlRecord) (k : ℕ) : (frameOf r k).bytes crc32c = encoding r k :=
  Telem.encodeFrameWith_crc32c 6 (BitVec.ofNat 32 k) (payloadOf r)

/-- The frames of a recording, numbered from a place on. -/
def framesFrom (k : ℕ) (records : List ControlRecord) : List WireFrame :=
  (records.zipIdx k).map fun x => frameOf x.1 x.2

/-- A recording is the concatenation of its frames. -/
theorem encodings_eq (records : List ControlRecord) : encodings records = joined crc32c (framesFrom 0 records) := by
  rw [encodings, joined, framesFrom, List.flatMap_map, List.flatMap]
  simp only [frameOf_bytes]

/-- The numbers of the frames follow each other. -/
theorem contiguous_framesFrom (k : ℕ) (records : List ControlRecord) :
    Telem.Contiguous ((framesFrom k records).map WireFrame.seq) := by
  induction records generalizing k with
  | nil => exact List.isChain_nil
  | cons r records ih =>
    have htail := ih (k + 1)
    refine List.isChain_cons.mpr ⟨fun seq hseq => ?_, htail⟩
    cases records with
    | nil => nomatch hseq
    | cons r' records =>
      obtain rfl : BitVec.ofNat 32 (k + 1) = seq := Option.some.inj hseq
      exact BitVec.ofNat_add k 1

/-- An accepted record is encoded as its blocks. -/
theorem encodeControl_eq_blocks {p payload : Bytes} {r : ControlRecord} (hp : p.length = controlCodec.size)
    (hfits : FittingCounts r) (hpayload : encodeControl p r = some payload) : payload = r.blocks.flatten := by
  have hencoded : Telem.encodeControlInto p r = (true, r.blocks.flatten) := controlCodec_laidOut.encode_accepted hp hfits
  rw [Telem.encodeControlInto_eq, hpayload] at hencoded
  exact congrArg Prod.snd hencoded

/-- The ground tools read the payload of a record as its fields. -/
theorem decodePayload_payloadOf {r : ControlRecord} (h : FittingCounts r) :
    Wire.decodePayload 6 (payloadOf r) = .ok (Wire.controlDict r) := by
  obtain ⟨payload, hpayload, -⟩ := encodeControl_of_fitting h
  have hblocks : payloadOf r = r.blocks.flatten :=
    (payloadOf_eq hpayload).trans (encodeControl_eq_blocks List.length_replicate h hpayload)
  have hlength := controlCodec_laidOut.flatten_length r
  have hsize : Wire.payloadSizes 6 = some 128 := rfl
  have hread := Wire.decodePayload_eq hsize fun hq => Wire.controlDict_read (q := r.blocks.flatten) hq
  rw [controlCodec_laidOut.read_flatten, Wire.checkPayloadCounts_control, if_pos ⟨hlength, h⟩] at hread
  rw [hblocks]
  cases hdecoded : Wire.decodePayload 6 r.blocks.flatten with
  | error e =>
    rw [hdecoded] at hread
    nomatch hread
  | ok fields =>
    rw [hdecoded] at hread
    exact congrArg Except.ok (Option.some.inj hread)

/-- A frame of the declared type is decoded. -/
theorem typedRecord_of_type (seq : ℕ) (payload : Bytes) :
    Wire.typedRecord 6 (6, seq, payload) = Wire.decodePayload 6 payload := rfl

/-- The records of a recording are read in order. -/
theorem mapM_typedRecord (k : ℕ) {records : List ControlRecord} (h : ∀ r ∈ records, FittingCounts r) :
    ((framesFrom k records).map WireFrame.tuple).mapM (Wire.typedRecord 6) = .ok (records.map Wire.controlDict) := by
  induction records generalizing k with
  | nil => rfl
  | cons r records ih =>
    have hfirst : Wire.typedRecord 6 (frameOf r k).tuple = .ok (Wire.controlDict r) :=
      (typedRecord_of_type _ _).trans (decodePayload_payloadOf (h r (List.mem_cons_self ..)))
    have hrest := ih (k + 1) fun r' hr' => h r' (List.mem_cons_of_mem _ hr')
    have hsplit : (framesFrom k (r :: records)).map WireFrame.tuple =
        (frameOf r k).tuple :: (framesFrom (k + 1) records).map WireFrame.tuple := rfl
    rw [hsplit, List.mapM_cons, hfirst, hrest]
    rfl

/-! ## The recording -/

/-- A header has 32 bytes. -/
theorem encodeRecordingHeader_length (monoNs epochNs : U64) (schemaHash : U32) :
    (encodeRecordingHeader monoNs epochNs schemaHash).length = 32 := by
  simp [encodeRecordingHeader, Telem.kMagic]

/-- What a reader finds in the header of a control recording. -/
def controlHeader (monoNs epochNs : U64) : Wire.RecordingHeader where
  magic := Wire.MAGIC
  version := 1
  schemaHash := 0xADFA94C8
  startMonotonicNs := monoNs.toInt
  startEpochNs := epochNs.toInt
  schemaKnown := true

/-- The fields of a header read back as they were written. -/
theorem load_header (monoNs epochNs : U64) (schemaHash : U32) (rest : Bytes) :
    let data := encodeRecordingHeader monoNs epochNs schemaHash ++ rest
    load data 0 8 = Telem.kMagic ∧ load data 8 2 = encodeLe 2 1 ∧ load data 10 2 = encodeLe 2 0 ∧
      load data 12 4 = encodeLe 4 schemaHash.toNat ∧ load data 16 8 = encodeLe 8 monoNs.toNat ∧
      load data 24 8 = encodeLe 8 epochNs.toNat := by
  intro data
  have hslices := slices_append [] [Telem.kMagic, encodeLe 2 1, encodeLe 2 0, encodeLe 4 schemaHash.toNat,
    encodeLe 8 monoNs.toNat, encodeLe 8 epochNs.toNat, rest]
  have hdata : [] ++ [Telem.kMagic, encodeLe 2 1, encodeLe 2 0, encodeLe 4 schemaHash.toNat, encodeLe 8 monoNs.toNat,
      encodeLe 8 epochNs.toNat, rest].flatten = data := by
    simp [data, encodeRecordingHeader]
  have hmagic : Telem.kMagic.length = 8 := rfl
  rw [hdata] at hslices
  simp only [List.map_cons, List.map_nil, encodeLe_length, hmagic, List.length_nil, slices, Nat.zero_add, Nat.reduceAdd,
    List.cons.injEq] at hslices
  tauto

/-- What the drain writes is read back record by record. -/
theorem readTypedRecording_encodings (monoNs epochNs : U64) {records : List ControlRecord}
    (h : ∀ r ∈ records, FittingCounts r) :
    Wire.readTypedRecording crc32c
        (encodeRecordingHeader monoNs epochNs kControlV1SchemaHash ++ encodings records) 6 =
      .ok (controlHeader monoNs epochNs, records.map Wire.controlDict, { framesOk := records.length }) := by
  obtain ⟨hmagic, hversion, hreserved, hhash, hmono, hepoch⟩ :=
    load_header monoNs epochNs kControlV1SchemaHash (encodings records)
  have hheader := encodeRecordingHeader_length monoNs epochNs kControlV1SchemaHash
  have hrest : (encodeRecordingHeader monoNs epochNs kControlV1SchemaHash ++ encodings records).drop Wire.headerSize =
      joined crc32c (framesFrom 0 records) := by
    rw [← encodings_eq]
    exact List.drop_left' hheader
  have hlong : ¬(encodeRecordingHeader monoNs epochNs kControlV1SchemaHash ++ encodings records).length < Wire.headerSize := by
    rw [List.length_append, hheader, Wire.headerSize]
    omega
  have hcount : (framesFrom 0 records).length = records.length := by simp [framesFrom]
  obtain ⟨-, hdecoded⟩ := Telem.decoders_joined crc32c (framesFrom 0 records)
  obtain ⟨hlost, hjumps⟩ := Telem.contiguous_iff.mp (contiguous_framesFrom 0 records)
  rw [hlost, hjumps, hcount] at hdecoded
  have hword {width n : ℕ} (hfit : n < 256 ^ width) : decodeLe (encodeLe width n) = n := decodeLe_encodeLe_of_lt hfit
  unfold Wire.readTypedRecording
  rw [if_neg (by decide), if_neg hlong]
  dsimp only
  rw [hmagic, hversion, hreserved, hhash, hmono, hepoch, hrest, hdecoded, hword (by decide), hword (by decide),
    hword kControlV1SchemaHash.isLt, hword monoNs.isLt, hword epochNs.isLt]
  dsimp only
  rw [mapM_typedRecord 0 h, if_neg (by decide), if_neg (by decide), if_neg (by decide),
    show Wire.fileSchemas kControlV1SchemaHash.toNat = some 6 from by decide, BitVec.ofNat_toNat, BitVec.ofNat_toNat,
    BitVec.setWidth_eq, BitVec.setWidth_eq]
  rfl

end Tvc.Recorder
