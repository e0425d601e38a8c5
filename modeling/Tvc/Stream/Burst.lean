import Tvc.Lib.Crc
import Tvc.Stream.Agreement

/-!
# Strict datagrams

`decode_datagram` accepts exactly the encoded frames of the accepted types with the payload size of
their type. The checksum behind a frame is that of a 32-bit register, so that no accepted datagram turns
into another by a change confined to 32 consecutive bits, counted as they are sent.
-/

namespace Tvc.Telem

open ByteStore

/-! ## The checksum, bit by bit -/

/-- The generator of CRC-32C, reflected. -/
def kCrcPoly : U32 := 0x82F63B78

/-- The bits of a byte as they are sent. -/
def byteBits (p : U8) : List Bool := (List.range 8).map p.getLsbD

/-- The bits of a message as they are sent. -/
def serialBits (data : Bytes) : List Bool := data.flatMap byteBits

/-- A bit of a message, counted as it is sent. -/
def sentBit (data : Bytes) (i : ℕ) : Option Bool := data[i / 8]?.map fun p => p.getLsbD (i % 8)

@[simp] theorem byteBits_length (p : U8) : (byteBits p).length = 8 := by simp [byteBits]

theorem serialBits_append (front rest : Bytes) : serialBits (front ++ rest) = serialBits front ++ serialBits rest :=
  List.flatMap_append

@[simp] theorem serialBits_length (data : Bytes) : (serialBits data).length = 8 * data.length := by
  simp [serialBits, List.length_flatMap, Nat.mul_comm]

/-- The bits are sent byte by byte. -/
theorem serialBits_getElem? (data : Bytes) (i : ℕ) : (serialBits data)[i]? = sentBit data i := by
  induction data generalizing i with
  | nil => simp [serialBits, sentBit]
  | cons p data ih =>
    rw [show serialBits (p :: data) = byteBits p ++ serialBits data from rfl, sentBit]
    by_cases hi : i < 8
    · rw [List.getElem?_append_left (by simpa using hi), Nat.div_eq_of_lt hi, Nat.mod_eq_of_lt hi]
      simp [byteBits, hi]
    · rw [List.getElem?_append_right (by simpa using hi), ih, byteBits_length, sentBit]
      obtain ⟨k, rfl⟩ := Nat.exists_eq_add_of_le' (Nat.le_of_not_lt hi)
      rw [Nat.add_sub_cancel, Nat.add_div_right _ (by decide), Nat.add_mod_right, List.getElem?_cons_succ]

/-- The bits tell the message. -/
theorem serialBits_injective {data data' : Bytes} (h : serialBits data = serialBits data') : data = data' := by
  apply List.ext_getElem?
  intro k
  have hbit (i : ℕ) (hi : i < 8) : data[k]?.map (fun p => p.getLsbD i) = data'[k]?.map fun p => p.getLsbD i := by
    have hsent : sentBit data (8 * k + i) = sentBit data' (8 * k + i) := by
      rw [← serialBits_getElem?, ← serialBits_getElem?, h]
    rwa [sentBit, sentBit, show (8 * k + i) / 8 = k by omega, show (8 * k + i) % 8 = i by omega] at hsent
  have hfirst := hbit 0 (by decide)
  cases hp : data[k]? with
  | none =>
    rw [hp, Option.map_none, eq_comm, Option.map_eq_none_iff] at hfirst
    rw [hfirst]
  | some p =>
    cases hp' : data'[k]? with
    | none => simp [hp, hp'] at hfirst
    | some p' =>
      congr 1
      apply BitVec.eq_of_getLsbD_eq
      intro i hi
      have := hbit i hi
      rw [hp, hp'] at this
      simpa using this

/-- One bit of the table construction is a shift of the register. -/
theorem crcBit_eq (c : U32) : crcBit c = Crc.shift kCrcPoly c := by
  have hout : (c &&& 1 != 0) = c.getLsbD 0 := by
    rw [Bool.eq_iff_iff, bne_iff_ne, ne_eq]
    constructor
    · intro h
      by_contra hbit
      refine h (BitVec.eq_of_getLsbD_eq fun i hi => ?_)
      rcases Nat.eq_zero_or_pos i with rfl | hpos
      · simpa using hbit
      · simp [BitVec.getLsbD_one, Nat.pos_iff_ne_zero.mp hpos]
    · intro hbit h
      have hzero : (c &&& 1).getLsbD 0 = false := by rw [h]; rfl
      rw [BitVec.getLsbD_and, hbit] at hzero
      exact absurd hzero (by decide)
  rw [crcBit, Crc.shift, hout]
  rfl

/-- The table takes in a byte as eight bits. -/
theorem crcByte_eq (c : U32) (p : U8) : crcByte c p = Crc.feed kCrcPoly c (byteBits p) := by
  have hword : (Crc.word (byteBits p) : U32) = p.setWidth 32 := by
    apply BitVec.eq_of_getLsbD_eq
    intro i hi
    rw [Crc.word_getLsbD, BitVec.getLsbD_setWidth, byteBits, List.getElem?_map]
    by_cases hbyte : i < 8
    · simp [hbyte]
    · rw [List.getElem?_eq_none (by simpa using hbyte), BitVec.getLsbD_of_ge p i (by omega)]
      rfl
  have hhigh : (c ^^^ p.setWidth 32) >>> 8 = c >>> 8 := by
    apply BitVec.eq_of_getLsbD_eq
    intro i _
    simp
  have hsplit : c ^^^ p.setWidth 32 = ((c ^^^ p.setWidth 32).setWidth 8).setWidth 32 ^^^ (c >>> 8) <<< 8 := by
    rw [← hhigh]
    generalize c ^^^ p.setWidth 32 = x
    apply BitVec.eq_of_getLsbD_eq
    intro i hi
    by_cases hbyte : i < 8
    · simp [hbyte, hi]
    · simp [hbyte, hi, show 8 + (i - 8) = i by omega]
  have hclear : (Crc.shift kCrcPoly)^[8] ((c >>> 8) <<< 8) = c >>> 8 :=
    Crc.iterate_shift_shiftLeft kCrcPoly fun i hi => by
      rw [BitVec.getLsbD_ushiftRight, BitVec.getLsbD_of_ge c (8 + i) (by omega)]
  have hshifts : crcBit = Crc.shift kCrcPoly := funext crcBit_eq
  rw [Crc.feed_eq kCrcPoly c (by rw [byteBits_length]; decide), byteBits_length, hword, hsplit, Crc.iterate_shift_xor,
    hclear, crcByte, kCrcTable, hshifts]

/-- The register of a message. -/
theorem foldl_crcByte (c : U32) (data : Bytes) : data.foldl crcByte c = Crc.feed kCrcPoly c (serialBits data) := by
  induction data generalizing c with
  | nil => rfl
  | cons p data ih =>
    rw [List.foldl_cons, ih, crcByte_eq, show serialBits (p :: data) = byteBits p ++ serialBits data from rfl,
      Crc.feed_append]

/-- The bits of a 32-bit word as it is sent. -/
theorem word_serialBits (v : U32) : (Crc.word (serialBits (encodeLe 4 v.toNat)) : U32) = v := by
  apply BitVec.eq_of_getLsbD_eq
  intro i hi
  have hbyte : i / 8 < 4 := by omega
  rw [Crc.word_getLsbD, serialBits_getElem?, sentBit, encodeLe_getElem?, if_pos hbyte, Option.map_some, Option.getD_some,
    decide_eq_true hi, Bool.true_and, BitVec.getLsbD_ofNat, decide_eq_true (by omega), Bool.true_and,
    show 256 ^ (i / 8) = 2 ^ (8 * (i / 8)) by rw [pow_mul]; rfl, ← Nat.shiftRight_eq_div_pow, Nat.testBit_shiftRight,
    show 8 * (i / 8) + i % 8 = i by omega, BitVec.testBit_toNat]

/-- The register of a message behind its own checksum does not depend on the message. -/
theorem feed_checksum (body : Bytes) :
    Crc.feed kCrcPoly 0xFFFFFFFF (serialBits (body ++ encodeLe 4 (crc32c body).toNat)) =
      (Crc.shift kCrcPoly)^[32] 0xFFFFFFFF := by
  have hown : crc32c body = Crc.feed kCrcPoly 0xFFFFFFFF (serialBits body) ^^^ 0xFFFFFFFF := by
    rw [crc32c, foldl_crcByte]
  rw [serialBits_append, Crc.feed_append]
  exact Crc.feed_own kCrcPoly _ _ (by simp) (hown ▸ word_serialBits _)

/-! ## Accepted datagrams -/

/-- `decode_datagram` with the frame it is handed to write into. -/
def decodeDatagramInto (data : Bytes) (acceptedTypes : List U8) (out : DecodedFrame) :
    Option DatagramError × DecodedFrame :=
  if data.length < kFrameOverhead then (some .badLength, out)
  else if getU16Le data 0 != kSync then (some .badSync, out)
  else if getU8 data 2 != kVersion then (some .badVersion, out)
  else
    let type := getU8 data 3
    if type.toNat < 1 || 6 < type.toNat || !acceptedTypes.contains type then (some .badType, out)
    else
      let size := (getU16Le data 4).toNat
      if size != payloadSizes type || data.length != kFrameOverhead + size then (some .badLength, out)
      else if getU32Le data (data.length - 4) != crc32c (load data 2 (8 + size)) then (some .badCrc, out)
      else (none, ⟨type, getU32Le data 6, 10, size⟩)

/-- The frame is written on acceptance alone. -/
theorem decodeDatagramInto_eq (data : Bytes) (acceptedTypes : List U8) (out : DecodedFrame) :
    decodeDatagramInto data acceptedTypes out =
      match decodeDatagram data acceptedTypes with
      | .error why => (some why, out)
      | .ok frame => (none, frame) := by
  simp only [decodeDatagramInto, decodeDatagram]
  repeat' split
  all_goals simp_all

/-- The sizes the payload schemas declare fit a frame. -/
theorem payloadSizes_le (type : U8) : payloadSizes type ≤ kMaxPayload := by
  unfold payloadSizes
  split <;> decide

/-- A datagram is accepted exactly if it is an encoded frame of an accepted type with the payload of its type. -/
theorem decodeDatagram_ok_iff {data : Bytes} {types : List U8} {frame : DecodedFrame} :
    decodeDatagram data types = .ok frame ↔
      ∃ f : WireFrame, f.type ∈ types ∧ f.payload.length = payloadSizes f.type ∧ data = f.bytes crc32c ∧
        frame = ⟨f.type, f.seq, 10, f.payload.length⟩ := by
  constructor
  · intro h
    obtain ⟨haccepted, -⟩ := decodeDatagram_payload_length h
    simp only [decodeDatagram] at h
    repeat' split at h
    all_goals first | contradiction | skip
    rename_i hlong hsync hversion htype hsize hcrc
    obtain rfl := Except.ok.inj h
    simp only [bne_iff_ne, ne_eq, not_not, Bool.or_eq_true, decide_eq_true_eq, not_or] at hsync hversion htype hsize hcrc
    obtain ⟨hsize, htotal⟩ := hsize
    have hlength : data.length = 14 + (getU16Le data 4).toNat := htotal
    have hpayload : (load data 10 (getU16Le data 4).toNat).length = (getU16Le data 4).toNat := load_length (by omega)
    rw [show data.length - 4 = 10 + (getU16Le data 4).toNat by omega] at hcrc
    have hwhole := eq_encodeFrameWith crc32c htotal hsync hversion rfl hcrc
    refine ⟨⟨getU8 data 3, getU32Le data 6, load data 10 (getU16Le data 4).toNat, by omega, ?_⟩, haccepted,
      hpayload.trans hsize, hwhole, ?_⟩
    · rw [hpayload, hsize]
      exact payloadSizes_le _
    · exact congrArg (DecodedFrame.mk _ _ 10) hpayload.symm
  · rintro ⟨f, haccepted, hsize, rfl, rfl⟩
    exact decodeDatagram_encodeFrame f.seq f.known haccepted hsize (lt_of_le_of_lt f.short (by decide))

/-- A frame is the sync word, a body and the checksum of the body. -/
theorem WireFrame.bytes_eq (f : WireFrame) :
    ∃ body, f.bytes crc32c = encodeLe 2 kSync.toNat ++ (body ++ encodeLe 4 (crc32c body).toNat) := by
  refine ⟨[kVersion, f.type] ++ encodeLe 2 f.payload.length ++ encodeLe 4 f.seq.toNat ++ f.payload, ?_⟩
  rw [WireFrame.bytes, encodeFrameWith, frameHead]
  simp only [List.append_assoc]
  rfl

/-- Two encoded frames of one length do not differ in 32 consecutive bits alone. -/
theorem eq_of_burst {f f' : WireFrame} (i : ℕ) (hlength : (f.bytes crc32c).length = (f'.bytes crc32c).length)
    (hburst : ∀ j, j < i ∨ i + 32 ≤ j → sentBit (f.bytes crc32c) j = sentBit (f'.bytes crc32c) j) :
    f.bytes crc32c = f'.bytes crc32c := by
  obtain ⟨body, hbody⟩ := f.bytes_eq
  obtain ⟨body', hbody'⟩ := f'.bytes_eq
  -- The sync words are the same, so that the burst can be counted from behind them.
  have hsent (post : Bytes) (j : ℕ) : sentBit (encodeLe 2 kSync.toNat ++ post) (16 + j) = sentBit post j := by
    rw [← serialBits_getElem?, ← serialBits_getElem?, serialBits_append, List.getElem?_append_right (by simp)]
    congr 1
    simp
  have hpoly : kCrcPoly.msb = true := by decide
  rw [hbody, hbody'] at hlength hburst ⊢
  rw [List.append_cancel_left_eq]
  have hrest : (body ++ encodeLe 4 (crc32c body).toNat).length = (body' ++ encodeLe 4 (crc32c body').toNat).length := by
    simpa using hlength
  refine serialBits_injective (Crc.feed_burst hpoly (i - 16) ?_ (fun j hj => ?_) (c := 0xFFFFFFFF) ?_)
  · rw [serialBits_length, serialBits_length, hrest]
  · have hbit := hburst (16 + j) (by omega)
    rwa [hsent, hsent, ← serialBits_getElem?, ← serialBits_getElem?] at hbit
  · rw [feed_checksum, feed_checksum]

/-- The strict decoder accepts exactly the encoded frames of the accepted types with the payload of their type, and
the stream decoder finds the same frame; a refusal leaves the output frame as it was. A change of an accepted
datagram that is confined to 32 consecutive bits is refused. -/
theorem decodeDatagram_strict (data : Bytes) (types : List U8) (out : DecodedFrame) :
    ((decodeDatagramInto data types out).1 = none ↔
      ∃ f : WireFrame, f.type ∈ types ∧ f.payload.length = payloadSizes f.type ∧ data = encodeFrame f.type f.seq f.payload) ∧
      (∀ f : WireFrame, f.type ∈ types → f.payload.length = payloadSizes f.type →
        data = encodeFrame f.type f.seq f.payload →
        let frame := (decodeDatagramInto data types out).2
        (frame.type, frame.seq, frame.payload data) = f.content ∧
          decodeStream crc32c data = ([frame], { framesOk := 1 })) ∧
      ((decodeDatagramInto data types out).1 ≠ none → (decodeDatagramInto data types out).2 = out) ∧
      ((decodeDatagramInto data types out).1 = none →
        ∀ (data' : Bytes) (i : ℕ), data'.length = data.length → data' ≠ data →
          (∀ j, j < i ∨ i + 32 ≤ j → sentBit data' j = sentBit data j) →
          ∀ types' out', (decodeDatagramInto data' types' out').1 ≠ none) := by
  have hnone (data : Bytes) (types : List U8) (out : DecodedFrame) :
      (decodeDatagramInto data types out).1 = none ↔ ∃ f : WireFrame, f.type ∈ types ∧
        f.payload.length = payloadSizes f.type ∧ data = encodeFrame f.type f.seq f.payload := by
    rw [decodeDatagramInto_eq]
    constructor
    · intro h
      cases hdecoded : decodeDatagram data types with
      | error why => simp [hdecoded] at h
      | ok frame =>
        obtain ⟨f, haccepted, hsize, hdata, -⟩ := decodeDatagram_ok_iff.mp hdecoded
        exact ⟨f, haccepted, hsize, hdata⟩
    · rintro ⟨f, haccepted, hsize, hdata⟩
      rw [decodeDatagram_ok_iff.mpr ⟨f, haccepted, hsize, hdata, rfl⟩]
  refine ⟨hnone data types out, ?_, fun hrefused => ?_, fun haccepted data' i hlength hne hburst types' out' haccepted' => ?_⟩
  · rintro f haccepted hsize rfl
    have hdecoded := decodeDatagram_ok_iff.mpr ⟨f, haccepted, hsize, rfl, rfl⟩
    have hstream := (decoders_joined crc32c [f]).1
    rw [joined_cons, joined_nil, List.append_nil] at hstream
    have hinto : (decodeDatagramInto (f.bytes crc32c) types out).2 = ⟨f.type, f.seq, 10, f.payload.length⟩ := by
      rw [decodeDatagramInto_eq, hdecoded]
    have hpayload := load_encodeFrame_payload f.type f.seq f.payload
    rw [← encodeFrameWith_crc32c]
    change let frame := (decodeDatagramInto (f.bytes crc32c) types out).2
      (frame.type, frame.seq, frame.payload (f.bytes crc32c)) = f.content ∧
        decodeStream crc32c (f.bytes crc32c) = ([frame], { framesOk := 1 })
    rw [hinto]
    refine ⟨?_, ?_⟩
    · exact Prod.ext rfl (Prod.ext rfl hpayload)
    · rw [hstream]
      rfl
  · rw [decodeDatagramInto_eq] at hrefused ⊢
    cases hdecoded : decodeDatagram data types with
    | error why => rfl
    | ok frame => simp [hdecoded] at hrefused
  · obtain ⟨f, -, -, rfl⟩ := (hnone _ _ _).mp haccepted
    obtain ⟨f', -, -, rfl⟩ := (hnone _ _ _).mp haccepted'
    exact hne (eq_of_burst i hlength hburst)

end Tvc.Telem
