import Tvc.Stream.Decoder

/-!
# Frames in a stream

What the decoder looks for, in terms of the encoder: a frame starts at a position of a buffer if the
bytes of an encoded frame stand there. The decoder finds the leftmost-greedy parse of the buffer into
such frames, and a concatenation of frames, whole or cut off, is read back frame by frame.
-/

namespace Tvc.Telem

open ByteStore
open Resync (Verdict Scan)

/-- A frame as its writer knows it. -/
structure WireFrame where
  type : U8
  seq : U32
  payload : Bytes
  known : 1 ≤ type.toNat ∧ type.toNat ≤ 6
  short : payload.length ≤ kMaxPayload

namespace WireFrame

variable (crc : Bytes → U32) (f : WireFrame)

/-- The encoded frame. -/
def bytes : Bytes := encodeFrameWith crc f.type f.seq f.payload

/-- The bytes an encoded frame takes. -/
def size : ℕ := kFrameOverhead + f.payload.length

/-- What the decoder tells about a frame. -/
def item : U8 × U32 × ℕ := (f.type, f.seq, f.payload.length)

@[simp] theorem bytes_length : (f.bytes crc).length = f.size := encodeFrameWith_length crc f.type f.seq f.payload

/-- A frame takes from 14 to 512 bytes. -/
theorem size_bounds : 14 ≤ f.size ∧ f.size ≤ 512 := by
  have hshort : f.payload.length ≤ 498 := f.short
  simp only [size, kFrameOverhead]
  omega

end WireFrame

/-- The encoded frames of a list, one behind the other. -/
def joined (crc : Bytes → U32) (frames : List WireFrame) : Bytes := frames.flatMap (WireFrame.bytes crc)

/-- A valid encoded frame starts at a position. -/
def StartsAt (crc : Bytes → U32) (data : Bytes) (pos : ℕ) (item : U8 × U32 × ℕ) (size : ℕ) : Prop :=
  ∃ f : WireFrame, item = f.item ∧ size = f.size ∧ load data pos size = f.bytes crc

/-- A sync word whose header is cut off by the end, or passes the checks of version, type and length and
declares a frame that runs past the end. -/
def CutOffAt (data : Bytes) (pos : ℕ) : Prop :=
  pos + 2 ≤ data.length ∧ getU16Le data pos = kSync ∧
    (data.length < pos + 10 ∨
      getU8 data (pos + 2) = kVersion ∧ 1 ≤ (getU8 data (pos + 3)).toNat ∧ (getU8 data (pos + 3)).toNat ≤ 6 ∧
        (getU16Le data (pos + 4)).toNat ≤ kMaxPayload ∧
        data.length < pos + kFrameOverhead + (getU16Le data (pos + 4)).toNat)

variable {crc : Bytes → U32} {data : Bytes} {pos : ℕ}

/-- The two bytes the decoder looks for are the sync word. -/
theorem sync_iff (h : pos + 2 ≤ data.length) :
    (getU8 data pos == 0x90 && getU8 data (pos + 1) == 0xEB) = true ↔ getU16Le data pos = kSync := by
  have hword : (getU16Le data pos).toNat = (getU8 data pos).toNat + 256 * (getU8 data (pos + 1)).toNat := by
    have hfirst := load_eq_encodeLe (show 8 = 8 * 1 from rfl) (show pos + 1 ≤ data.length by omega)
    have hsecond := load_eq_encodeLe (show 8 = 8 * 1 from rfl) (show pos + 1 + 1 ≤ data.length by omega)
    rw [getLe_toNat rfl h, show 2 = 1 + 1 from rfl, load_add, hfirst, hsecond]
    simp [encodeLe, decodeLe]
  have hfirst := (getU8 data pos).isLt
  have hsecond := (getU8 data (pos + 1)).isLt
  have hsync : getU16Le data pos = kSync ↔ (getU16Le data pos).toNat = 0xEB90 :=
    ⟨fun heq => heq ▸ rfl, fun heq => BitVec.eq_of_toNat_eq heq⟩
  rw [hsync, hword, Bool.and_eq_true, beq_iff_eq, beq_iff_eq, ← BitVec.toNat_inj, ← BitVec.toNat_inj]
  change (getU8 data pos).toNat = 0x90 ∧ (getU8 data (pos + 1)).toNat = 0xEB ↔ _
  omega

/-- The decoder accepts a frame where its bytes stand. -/
theorem lookAt_frame {f : WireFrame} (h : load data pos f.size = f.bytes crc) :
    lookAt crc data pos = .accept f.item f.size := by
  have hshort := f.short
  have hinside : pos + f.size ≤ data.length := by
    have hlength := congrArg List.length h
    rw [WireFrame.bytes_length, load, List.length_take, List.length_drop] at hlength
    have := f.size_bounds
    omega
  have hsize : f.size = 14 + f.payload.length := rfl
  -- Every field of the frame is read at its offset from the position.
  have hread {n width : ℕ} (o : ℕ) (ho : o + width ≤ f.size) :
      getLe n width data (pos + o) = getLe n width (f.bytes crc) o := by
    rw [← h, getLe_load data ho]
  obtain ⟨hsync, hversion, htype, hplen, hseq⟩ :=
    encodeFrameWith_fields crc f.type f.seq (lt_of_le_of_lt hshort (by decide))
  have hcrc := getLe_encodeFrameWith_crc crc f.type f.seq f.payload
  have hcovered : load (f.bytes crc) 2 (8 + f.payload.length) = load data (pos + 2) (8 + f.payload.length) := by
    rw [← h, load_load (by omega)]
  have hsync' : getU16Le data pos = kSync := by rw [← hsync]; exact hread 0 (by omega)
  have hversion' : getU8 data (pos + 2) = kVersion := (hread 2 (by omega)).trans hversion
  have htype' : getU8 data (pos + 3) = f.type := (hread 3 (by omega)).trans htype
  have hplen' : (getU16Le data (pos + 4)).toNat = f.payload.length := by
    rw [← hplen]
    exact congrArg BitVec.toNat (hread 4 (by omega))
  have hseq' : getU32Le data (pos + 6) = f.seq := (hread 6 (by omega)).trans hseq
  have hcrc' : getU32Le data (pos + (10 + f.payload.length)) = crc (load data (pos + 2) (8 + f.payload.length)) := by
    rw [← hcovered]
    exact (hread (10 + f.payload.length) (by omega)).trans hcrc
  have htail : pos + kFrameOverhead + f.payload.length - 4 = pos + (10 + f.payload.length) := by
    simp only [kFrameOverhead]
    omega
  have hknown : (decide (1 ≤ f.type.toNat) && decide (f.type.toNat ≤ 6)) = true := by
    simp [f.known.1, f.known.2]
  rw [lookAt, if_neg (by omega), (sync_iff (by omega)).mpr hsync', Bool.not_true, if_neg Bool.false_ne_true,
    if_neg (by simp only [kFrameOverhead]; omega)]
  simp only [hversion', htype', hplen', hseq', htail, hcrc', hknown, bne_self_eq_false, Bool.false_eq_true,
    Bool.not_true, Bool.false_or, decide_eq_true_eq, if_false]
  rw [if_neg (by omega), if_neg (by simp only [kFrameOverhead]; omega)]
  rfl

/-- Where the decoder accepts a frame, its bytes stand. -/
theorem startsAt_of_lookAt {item : U8 × U32 × ℕ} {size : ℕ} (h : lookAt crc data pos = .accept item size) :
    StartsAt crc data pos item size := by
  have hinside := ((bounded_lookAt crc data).accept pos item size h).2
  simp only [lookAt] at h
  repeat' split at h
  all_goals first | contradiction | skip
  rename_i hword hsync hheader hversion hshape hend hcrc
  obtain ⟨rfl, rfl⟩ := Verdict.accept.inj h
  simp only [kFrameOverhead] at hinside hheader hend
  have hsync' : getU16Le data pos = kSync := (sync_iff (by omega)).mp (by simpa using hsync)
  simp only [bne_iff_ne, ne_eq, not_not, Bool.or_eq_true, Bool.not_eq_true', Bool.and_eq_false_imp,
    decide_eq_true_eq, decide_eq_false_iff_not, not_or, not_lt, Classical.not_imp, not_le] at hversion hshape hcrc
  obtain ⟨⟨hone, hsix⟩, hshort⟩ := hshape
  generalize hplen : (getU16Le data (pos + 4)).toNat = plen at *
  have hread {n width : ℕ} (o : ℕ) (ho : o + width ≤ 14 + plen) :
      getLe n width (load data pos (14 + plen)) o = getLe n width data (pos + o) := getLe_load data ho
  have hlength : (load data pos (14 + plen)).length = 14 + plen := load_length (by omega)
  have hwhole := eq_encodeFrameWith crc (w := load data pos (14 + plen)) hlength
    ((hread 0 (by omega)).trans hsync') ((hread 2 (by omega)).trans hversion)
    ((congrArg BitVec.toNat (hread 4 (show 4 + 2 ≤ 14 + plen by omega))).trans hplen)
    (by
      rw [load_load (by omega)]
      refine (hread (10 + plen) (by omega)).trans (Eq.trans ?_ hcrc)
      congr 1
      simp only [kFrameOverhead]
      omega)
  have hpayload : (load (load data pos (14 + plen)) 10 plen).length = plen :=
    load_length (by omega)
  rw [show getU8 (load data pos (14 + plen)) 3 = getU8 data (pos + 3) from hread 3 (by omega),
    show getU32Le (load data pos (14 + plen)) 6 = getU32Le data (pos + 6) from hread 6 (by omega)] at hwhole
  refine ⟨⟨getU8 data (pos + 3), getU32Le data (pos + 6), load (load data pos (14 + plen)) 10 plen,
    ⟨hone, by omega⟩, by rw [hpayload]; exact hshort⟩, ?_, ?_, hwhole⟩
  · exact Prod.ext rfl (Prod.ext rfl hpayload.symm)
  · exact congrArg (kFrameOverhead + ·) hpayload.symm

/-- Where the decoder stops, the buffer ends or an item is cut off. -/
theorem of_lookAt_stop (h : lookAt crc data pos = .stop) : data.length < pos + 2 ∨ CutOffAt data pos := by
  simp only [lookAt] at h
  repeat' split at h
  all_goals first | contradiction | skip
  · exact .inl ‹_›
  · rename_i hword hsync hheader
    simp only [kFrameOverhead] at hheader
    exact .inr ⟨by omega, (sync_iff (by omega)).mp (by simpa using hsync), .inl (by omega)⟩
  · rename_i hword hsync hheader hversion hshape hend
    simp only [bne_iff_ne, ne_eq, not_not, Bool.or_eq_true, Bool.not_eq_true', Bool.and_eq_false_imp,
      decide_eq_true_eq, decide_eq_false_iff_not, not_or, not_lt, Classical.not_imp, not_le] at hversion hshape
    obtain ⟨⟨hone, hsix⟩, hshort⟩ := hshape
    exact .inr ⟨by omega, (sync_iff (by omega)).mp (by simpa using hsync),
      .inr ⟨hversion, hone, by omega, hshort, hend⟩⟩

/-- The decoder stops where an item is cut off. -/
theorem lookAt_cutOff (h : CutOffAt data pos) : lookAt crc data pos = .stop := by
  obtain ⟨hword, hsync, hcut⟩ := h
  rw [lookAt, if_neg (by omega), (sync_iff hword).mpr hsync, Bool.not_true, if_neg Bool.false_ne_true]
  rcases hcut with hheader | ⟨hversion, hone, hsix, hshort, hend⟩
  · rw [if_pos (by simp only [kFrameOverhead]; omega)]
  · split
    · rfl
    · simp [hversion, hone, hsix, Nat.not_lt.mpr hshort, hend]

/-- The decoder finds the frames that start in the buffer. -/
theorem decides_lookAt : Resync.Decides (lookAt crc data) (StartsAt crc data) (CutOffAt data) where
  accept_iff pos item size := by
    refine ⟨startsAt_of_lookAt, ?_⟩
    rintro ⟨f, rfl, rfl, hload⟩
    exact lookAt_frame hload
  stop_of_cut pos h := lookAt_cutOff h
  of_stop pos h := by
    refine (of_lookAt_stop h).symm.imp_right fun hend b q hle _ => ⟨fun hcut => ?_, ?_⟩
    · have := hcut.1
      omega
    · rintro item size ⟨f, -, rfl, hload⟩
      have hlength := congrArg List.length hload
      rw [WireFrame.bytes_length, load, List.length_take, List.length_drop] at hlength
      have := f.size_bounds
      omega

/-! ## Concatenations of frames -/

/-- The events of reading whole frames, one behind the other. -/
def acceptances : ℕ → List WireFrame → List StreamEvent
  | _, [] => []
  | pos, f :: rest => .accepted pos f.item f.size :: acceptances (pos + f.size) rest

/-- The frames of a list, where they are found. -/
def located : ℕ → List WireFrame → List DecodedFrame
  | _, [] => []
  | pos, f :: rest => ⟨f.type, f.seq, pos + 10, f.payload.length⟩ :: located (pos + f.size) rest

@[simp] theorem joined_nil : joined crc [] = [] := rfl

@[simp] theorem joined_cons (f : WireFrame) (rest : List WireFrame) :
    joined crc (f :: rest) = f.bytes crc ++ joined crc rest := rfl

theorem joined_append (front rest : List WireFrame) : joined crc (front ++ rest) = joined crc front ++ joined crc rest :=
  List.flatMap_append

/-- The events of whole frames, one part after the other. -/
theorem acceptances_append (pos : ℕ) (front rest : List WireFrame) :
    acceptances pos (front ++ rest) =
      acceptances pos front ++ acceptances (pos + (joined crc front).length) rest := by
  induction front generalizing pos with
  | nil => rfl
  | cons f front ih =>
    rw [List.cons_append, acceptances, ih, acceptances, joined_cons, List.length_append, WireFrame.bytes_length,
      Nat.add_assoc, List.cons_append]

theorem framesOf_append (events events' : List StreamEvent) :
    framesOf (events ++ events') = framesOf events ++ framesOf events' := by
  simp [framesOf, Resync.items]

theorem framesOf_acceptances (pos : ℕ) (frames : List WireFrame) :
    framesOf (acceptances pos frames) = located pos frames := by
  induction frames generalizing pos with
  | nil => rfl
  | cons f frames ih =>
    rw [acceptances, WireFrame.item, framesOf_accepted, ih, located]

theorem taken_acceptances (crc : Bytes → U32) (pos : ℕ) (frames : List WireFrame) :
    Resync.taken (Resync.items (acceptances pos frames)) = (joined crc frames).length := by
  induction frames generalizing pos with
  | nil => rfl
  | cons f frames ih =>
    rw [acceptances, Resync.items_accepted, Resync.taken_cons, ih, joined_cons, List.length_append,
      WireFrame.bytes_length]

theorem refused_notMem_acceptances (why : Refusal) (pos : ℕ) (frames : List WireFrame) :
    .refused why ∉ acceptances pos frames := by
  induction frames generalizing pos with
  | nil => exact List.not_mem_nil
  | cons f frames ih => simp [acceptances, ih]

@[simp] theorem located_length (pos : ℕ) (frames : List WireFrame) : (located pos frames).length = frames.length := by
  induction frames generalizing pos with
  | nil => rfl
  | cons f frames ih => simp [located, ih]

@[simp] theorem seqsOf_located (pos : ℕ) (frames : List WireFrame) :
    seqsOf (located pos frames) = frames.map WireFrame.seq := by
  induction frames generalizing pos with
  | nil => rfl
  | cons f frames ih => simp [located, ih]

/-- A block is loaded from the middle of a buffer. -/
theorem load_middle (pre block post : Bytes) : load (pre ++ block ++ post) pre.length block.length = block := by
  rw [load_append_left (by simp)]
  exact load_append_right pre block

/-- The decoder reads whole frames, one behind the other, and goes on behind them. -/
theorem scan_joined (pre post : Bytes) (frames : List WireFrame) {events : List StreamEvent}
    (h : Scan (lookAt crc (pre ++ joined crc frames ++ post)) (pre.length + (joined crc frames).length) events) :
    Scan (lookAt crc (pre ++ joined crc frames ++ post)) pre.length (acceptances pre.length frames ++ events) := by
  induction frames generalizing pre with
  | nil => exact h
  | cons f frames ih =>
    have hdata : pre ++ joined crc (f :: frames) ++ post = (pre ++ f.bytes crc) ++ joined crc frames ++ post := by
      simp
    have hnext : (pre ++ f.bytes crc).length = pre.length + f.size := by simp
    have hbytes := load_middle pre (f.bytes crc) (joined crc frames ++ post)
    rw [WireFrame.bytes_length] at hbytes
    rw [hdata, joined_cons, List.length_append, WireFrame.bytes_length, ← Nat.add_assoc, ← hnext] at h
    have hrest := ih (pre ++ f.bytes crc) h
    rw [hnext, ← hdata] at hrest
    refine .accept (lookAt_frame ?_) hrest
    rw [hdata, List.append_assoc]
    exact hbytes

end Tvc.Telem
