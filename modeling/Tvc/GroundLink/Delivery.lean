import Mathlib.Data.List.Perm.Subperm
import Tvc.GroundLink.Receiver

/-!
# The way of the frames from the drain to the receiver

The drain sends each frame once. Between the two the network loses, repeats, delays and reorders what was sent, and
once the receiver knows its source it brings datagrams of others. The receiver's recording stays a subsequence of the
drain's, and the check of the two recordings finds every population in order.
-/

namespace Tvc.GroundLink

open ByteStore
open Recorder (Drain encoding encodings)
open Telem (ControlRecord FittingCounts crc32c)

/-! ## The recordings as files -/

/-- `FRAME_BYTES`. -/
def frameBytes : ℕ := 142

/-- What is read from a stream in pieces of a size, up to its end. -/
def pieces (size : ℕ) (hsize : 0 < size) (stream : Bytes) : List Bytes :=
  if stream.isEmpty then [] else stream.take size :: pieces size hsize (stream.drop size)
termination_by stream.length
decreasing_by
  rename_i hsome
  have hpos : 0 < stream.length := List.length_pos_of_ne_nil (by simpa using hsome)
  rw [List.length_drop]
  omega

/-- `recording_frames`, without the digest. -/
def recordingFrames (file : Bytes) : Except Wire.Failure (List (StreamFrame Bytes)) := do
  let _ ← Wire.readTypedRecording crc32c (file.take Wire.headerSize) 6
  (pieces frameBytes (by decide) (file.drop Wire.headerSize)).mapM controlFrame

/-- The header that `receive` writes. -/
def receiverHeader (monoNs epochNs : U64) : Bytes :=
  Wire.MAGIC ++ encodeLe 2 1 ++ encodeLe 2 0 ++ encodeLe 4 0xADFA94C8 ++ encodeLe 8 monoNs.toNat ++
    encodeLe 8 epochNs.toNat

/-- What `check` requires of the populations in the end. -/
def checkPopulations (pop : Populations) (localCount total frameCount : ℕ) (source : Bool) (c : Counters)
    (g : Recorder.GroundCounters) : Except String Unit := do
  let v := pop.vehicleRecords
  let observed := pop.groundRecords
  require (v == localCount && localCount == total) "authoritative frame/count mismatch"
  require (observed == frameCount && frameCount == c.recorded) "receiver frame/count mismatch"
  require ((!source) == (observed == 0)) "receiver source/count mismatch"
  require (g.attempted == g.sent + g.sendErrors && g.attempted == v) "ground attempt conservation failed"
  require (decide (observed ≤ g.sent) && decide (g.sent ≤ g.attempted) && decide (g.sendErrors ≤ pop.groundLost))
    "impossible ground populations"
  require (v == observed + pop.groundLost) "ground frame conservation failed"
  require ((pop.groundLost : ℤ) == g.sendErrors + ((g.sent : ℤ) - observed)) "ground loss conservation failed"

/-! ## The network -/

/-- The drain with the records it still has to write, what the network has been given, and the receiver. -/
structure Link (w : ℕ) (β σ : Type) where
  drain : Drain w β
  todo : List ControlRecord
  air : List Bytes := []
  receiver : Receiver σ

/-- The drain writes its next record and the send has a result, the network brings a datagram of the drain, again or
for the first time, or one of another source. -/
inductive Move (σ : Type)
  | send (sent : Except ℕ ℕ)
  | arrive (k : ℕ)
  | foreign (data : Bytes) (source : σ)

variable {w : ℕ} {β σ : Type} [DecidableEq σ]

/-- The file takes the frame. -/
def written (sent : Except ℕ ℕ) : Recorder.Outcome :=
  ⟨Telem.kFrameOverhead + Telem.kControlV1PayloadBytes, sent, true, true⟩

/-- What a send gives the network: the frame if it was sent whole. -/
def handed (d : Drain w β) (r : ControlRecord) (sent : Except ℕ ℕ) : List Bytes :=
  match Telem.encodeControl (List.replicate Telem.kControlV1PayloadBytes 0) r with
  | none => []
  | some payload =>
    let frame := Telem.encodeFrame 6 d.seq payload
    match sent with
    | .ok n => if d.connected && n == frame.length then [frame] else []
    | .error _ => []

/-- One move. -/
def Link.step (home : σ) (l : Link w β σ) : Move σ → Link w β σ
  | .send sent =>
    match l.todo with
    | [] => l
    | r :: rest =>
      { l with drain := l.drain.writeRecord r (written sent), todo := rest, air := l.air ++ handed l.drain r sent }
  | .arrive k =>
    match l.air[k]? with
    | none => l
    | some frame => { l with receiver := (l.receiver.accept frame home (.ok frame.length)).1 }
  | .foreign data source =>
    if l.receiver.source = some home ∧ source ≠ home then
      { l with receiver := (l.receiver.accept data source (.ok data.length)).1 }
    else l

/-- The link as it starts, with a connected drain. -/
def Link.start (header groundHeader : Bytes) (records : List ControlRecord) : Link w β σ where
  drain := { file := header, connected := true }
  todo := records
  receiver := { recording := groundHeader }

/-- The link after some moves. -/
def Link.run (home : σ) (l : Link w β σ) (moves : List (Move σ)) : Link w β σ := moves.foldl (step home) l

/-! ## The frames of the drain -/

/-- Control records as a drain may be given them. -/
structure ControlRecords where
  records : List ControlRecord
  fits : ∀ r ∈ records, FittingCounts r
  finite : ∀ r ∈ records, FiniteRecord r
  increasing : records.Pairwise fun a b => a.tick.toNat < b.tick.toNat

/-- The frames of the records, numbered from 0. -/
def framesOf (records : List ControlRecord) : List Bytes := records.zipIdx.map fun x => encoding x.1 x.2

/-- The sequence number of a frame. -/
def seqOf (raw : Bytes) : ℤ := (controlFrame raw).toOption.elim 0 StreamFrame.seq

/-- The tick of a frame. -/
def tickOf (raw : Bytes) : ℤ := (controlFrame raw).toOption.elim 0 StreamFrame.tick

/-- One more record is one more frame. -/
theorem framesOf_concat (records : List ControlRecord) (r : ControlRecord) :
    framesOf (records ++ [r]) = framesOf records ++ [encoding r records.length] := by
  simp [framesOf, List.zipIdx_append]

/-- There are as many frames as records. -/
@[simp] theorem framesOf_length (records : List ControlRecord) : (framesOf records).length = records.length := by
  simp [framesOf]

/-- The frame of a place. -/
theorem framesOf_getElem? (records : List ControlRecord) (k : ℕ) :
    (framesOf records)[k]? = records[k]?.map fun r => encoding r k := by
  rw [framesOf, List.getElem?_map, List.getElem?_zipIdx, Option.map_map, Nat.zero_add]
  rfl

variable {records : List ControlRecord}

/-- What a frame of the drain is read as. -/
theorem controlFrame_of (hfits : ∀ r ∈ records, FittingCounts r) (hfinite : ∀ r ∈ records, FiniteRecord r) {k : ℕ}
    {r : ControlRecord} (hr : records[k]? = some r) :
    controlFrame (encoding r k) = .ok (.of seqOf tickOf (encoding r k)) ∧ seqOf (encoding r k) = (k : ℤ) % 2 ^ 32 ∧
      tickOf (encoding r k) = r.tick.toNat := by
  have hmem := List.mem_of_getElem? hr
  have hframe := controlFrame_encoding (hfits r hmem) (hfinite r hmem) k
  have hseq : seqOf (encoding r k) = (k : ℤ) % 2 ^ 32 := by
    unfold seqOf
    rw [hframe]
    exact Int.natCast_emod k (2 ^ 32)
  have htick : tickOf (encoding r k) = r.tick.toNat := by
    unfold tickOf
    rw [hframe]
    rfl
  refine ⟨?_, hseq, htick⟩
  rw [hframe, StreamFrame.of, hseq, htick, Int.natCast_emod]
  rfl

/-- Every frame of the drain is a control frame of the length of a control frame. -/
theorem mem_framesOf (hfits : ∀ r ∈ records, FittingCounts r) (hfinite : ∀ r ∈ records, FiniteRecord r) {frame : Bytes}
    (hframe : frame ∈ framesOf records) :
    controlFrame frame = .ok (.of seqOf tickOf frame) ∧ frame.length = frameBytes := by
  obtain ⟨k, hk⟩ := List.mem_iff_getElem?.mp hframe
  rw [framesOf_getElem?] at hk
  obtain ⟨r, hr, rfl⟩ := Option.map_eq_some_iff.mp hk
  obtain ⟨payload, hpayload, hlength⟩ := Recorder.encodeControl_of_fitting (hfits r (List.mem_of_getElem? hr))
  refine ⟨(controlFrame_of hfits hfinite hr).1, ?_⟩
  rw [encoding, Telem.encodeFrame_length, Recorder.payloadOf_eq hpayload, hlength]
  rfl

/-- The ticks of the frames increase with those of the records. -/
theorem framesOf_ordered (hfits : ∀ r ∈ records, FittingCounts r) (hfinite : ∀ r ∈ records, FiniteRecord r)
    (hincreasing : records.Pairwise fun a b => a.tick.toNat < b.tick.toNat) :
    GreedyMatch.Ordered tickOf (framesOf records) := by
  refine List.pairwise_iff_getElem.mpr fun i j hi hj hij => ?_
  rw [framesOf_length] at hi hj
  have hplace {k : ℕ} (hk : k < records.length) (hk' : k < (framesOf records).length) :
      (framesOf records)[k] = encoding records[k] k := by
    refine Option.some.inj ?_
    rw [← List.getElem?_eq_getElem, framesOf_getElem?, List.getElem?_eq_getElem hk]
    rfl
  rw [hplace hi _, hplace hj _, (controlFrame_of hfits hfinite (List.getElem?_eq_getElem hi)).2.2,
    (controlFrame_of hfits hfinite (List.getElem?_eq_getElem hj)).2.2]
  exact_mod_cast List.pairwise_iff_getElem.mp hincreasing i j hi hj hij

/-! ## Reading a recording -/

/-- A stream of pieces of the size is read piece by piece. -/
theorem pieces_flatten {size : ℕ} (hsize : 0 < size) {frames : List Bytes} (h : ∀ f ∈ frames, f.length = size) :
    pieces size hsize frames.flatten = frames := by
  induction frames with
  | nil =>
    rw [pieces]
    rfl
  | cons frame frames ih =>
    have hlength := h frame List.mem_cons_self
    have hsome : (frame ++ frames.flatten).isEmpty = false := by
      rw [List.isEmpty_eq_false_iff]
      intro hnil
      rw [(List.append_eq_nil_iff.mp hnil).1] at hlength
      exact hsize.ne hlength
    rw [List.flatten_cons, pieces, hsome, if_neg Bool.false_ne_true, List.take_left' hlength, List.drop_left' hlength,
      ih fun f hf => h f (List.mem_cons_of_mem _ hf)]

/-- A list of which every element is read is read. -/
theorem mapM_ok {α γ ε : Type} {f : α → Except ε γ} {g : α → γ} {l : List α} (h : ∀ a ∈ l, f a = .ok (g a)) :
    l.mapM f = .ok (l.map g) := by
  induction l with
  | nil => rfl
  | cons a l ih =>
    rw [List.mapM_cons, h a List.mem_cons_self, ih fun b hb => h b (List.mem_cons_of_mem _ hb)]
    rfl

/-- Both sides write the same header. -/
theorem receiverHeader_eq (monoNs epochNs : U64) :
    receiverHeader monoNs epochNs = Telem.encodeRecordingHeader monoNs epochNs Telem.kControlV1SchemaHash := rfl

/-- A recording of control frames yields them. -/
theorem recordingFrames_ok (monoNs epochNs : U64) {frames : List Bytes}
    (h : ∀ f ∈ frames, controlFrame f = .ok (.of seqOf tickOf f) ∧ f.length = frameBytes) :
    recordingFrames (Telem.encodeRecordingHeader monoNs epochNs Telem.kControlV1SchemaHash ++ frames.flatten) =
      .ok (frames.map (.of seqOf tickOf)) := by
  have hheader : (Telem.encodeRecordingHeader monoNs epochNs Telem.kControlV1SchemaHash).length = Wire.headerSize :=
    Recorder.encodeRecordingHeader_length monoNs epochNs Telem.kControlV1SchemaHash
  have hprobe := @Recorder.readTypedRecording_encodings monoNs epochNs [] nofun
  have hnone : encodings [] = [] := rfl
  rw [hnone, List.append_nil] at hprobe
  unfold recordingFrames
  rw [List.take_left' hheader, List.drop_left' hheader, hprobe, pieces_flatten _ fun f hf => (h f hf).2]
  exact mapM_ok fun f hf => (h f hf).1

end Tvc.GroundLink
