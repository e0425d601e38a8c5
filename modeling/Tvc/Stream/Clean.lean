import Mathlib.Algebra.Order.BigOperators.Group.List
import Mathlib.Data.List.Chain
import Tvc.Stream.Ground

/-!
# Clean recordings

A recording decodes without an error exactly if it is a concatenation of frames whose numbers follow
each other, and a recording cut off anywhere gives back the frames that are still whole. Both decoders
agree on this up to the wrap of the vehicle's count of lost frames.
-/

namespace Tvc.Telem

open ByteStore
open Resync (Scan)

/-- What a frame carries. -/
def WireFrame.content (f : WireFrame) : U8 × U32 × Bytes := (f.type, f.seq, f.payload)

/-- What a frame carries, as the ground tools know it. -/
def WireFrame.tuple (f : WireFrame) : ℕ × ℕ × Bytes := (f.type.toNat, f.seq.toNat, f.payload)

/-- What the frames found in a buffer carry. -/
def contents (data : Bytes) (found : List DecodedFrame) : List (U8 × U32 × Bytes) :=
  found.map fun f => (f.type, f.seq, f.payload data)

/-- The six error counters are zero. -/
def DecodeCounters.Clean (ctr : DecodeCounters) : Prop := ctr = { framesOk := ctr.framesOk }

instance (ctr : DecodeCounters) : Decidable ctr.Clean := inferInstanceAs (Decidable (_ = _))

variable {crc : Bytes → U32} {data : Bytes}

/-! ## Frames in front of a stop -/

/-- The frames found in a concatenation carry what was encoded. -/
theorem located_map {β : Type*} (crc : Bytes → U32) (g : U8 → U32 → Bytes → β) (pre post : Bytes) (frames : List WireFrame) :
    (located pre.length frames).map
        (fun f => g f.type f.seq (f.payload (pre ++ joined crc frames ++ post))) =
      frames.map fun f => g f.type f.seq f.payload := by
  induction frames generalizing pre with
  | nil => rfl
  | cons f frames ih =>
    have hdata : pre ++ joined crc (f :: frames) ++ post = (pre ++ f.bytes crc) ++ joined crc frames ++ post := by
      simp
    have hnext : (pre ++ f.bytes crc).length = pre.length + f.size := by simp
    have hwhole : load (pre ++ joined crc (f :: frames) ++ post) pre.length f.size = f.bytes crc := by
      have hblock := load_middle pre (f.bytes crc) (joined crc frames ++ post)
      rw [WireFrame.bytes_length] at hblock
      rw [hdata, List.append_assoc]
      exact hblock
    have hpayload : load (pre ++ joined crc (f :: frames) ++ post) (pre.length + 10) f.payload.length = f.payload := by
      have hinside : 10 + f.payload.length ≤ f.size := by
        simp only [WireFrame.size, kFrameOverhead]
        omega
      rw [← load_load hinside, hwhole]
      exact load_encodeFrameWith_payload crc f.type f.seq
    have hrest := ih (pre ++ f.bytes crc)
    rw [hnext, ← hdata] at hrest
    rw [located, List.map_cons, List.map_cons, hrest]
    simp only [DecodedFrame.payload, hpayload]

/-- The frames found in a concatenation carry what was encoded. -/
theorem contents_located (crc : Bytes → U32) (tail : Bytes) (frames : List WireFrame) :
    contents (joined crc frames ++ tail) (located 0 frames) = frames.map WireFrame.content :=
  located_map crc (fun type seq payload => (type, seq, payload)) [] tail frames

/-- The ground tools see in a concatenation what was encoded. -/
theorem tupleOf_located (tail : Bytes) (frames : List WireFrame) :
    (located 0 frames).map (Wire.tupleOf (joined crc frames ++ tail)) = frames.map WireFrame.tuple :=
  located_map crc (fun type seq payload => (type.toNat, seq.toNat, payload)) [] tail frames

/-- Whole frames in front of a stop are the events of a buffer. -/
theorem scan_of_stop {frames : List WireFrame} {tail : Bytes}
    (h : lookAt crc (joined crc frames ++ tail) (joined crc frames).length = .stop) :
    Scan (lookAt crc (joined crc frames ++ tail)) 0 (acceptances 0 frames) := by
  have hscan := scan_joined [] tail frames (.stop (by simpa using h) : Scan (lookAt crc _) _ [])
  simpa using hscan

/-- Whole frames in front of a stop are found, and what is behind them is skipped. -/
theorem decodeStream_of_stop {frames : List WireFrame} {tail : Bytes}
    (h : lookAt crc (joined crc frames ++ tail) (joined crc frames).length = .stop) :
    decodeStream crc (joined crc frames ++ tail) =
      (located 0 frames,
        { framesOk := frames.length
          seqDiscontinuities := jumpsFrom none (frames.map WireFrame.seq)
          lost := lostFrom none (frames.map WireFrame.seq) % 2 ^ 64
          skippedBytes := tail.length }) := by
  have hnone (why : Refusal) := refused_notMem_acceptances why 0 frames
  rw [decodeStream_eq (scan_of_stop h)]
  simp [framesOf_acceptances, taken_acceptances crc, refusals_eq_zero hnone, resyncsFrom_eq_zero.mpr hnone]

/-- The ground tools find the same frames in front of a stop. -/
theorem ground_decodeStream_of_stop {frames : List WireFrame} {tail : Bytes}
    (h : lookAt crc (joined crc frames ++ tail) (joined crc frames).length = .stop) :
    Wire.decodeStream crc (joined crc frames ++ tail) =
      (frames.map WireFrame.tuple,
        { framesOk := frames.length
          seqDiscontinuities := jumpsFrom none (frames.map WireFrame.seq)
          lost := lostFrom none (frames.map WireFrame.seq)
          skippedBytes := tail.length }) := by
  rw [Wire.decodeStream_eq (scan_of_stop h), decodeStream_of_stop h, framesOf_acceptances, tupleOf_located,
    seqsOf_located]

/-- Frames whose numbers follow each other are found in front of a stop without an error, by both decoders. -/
theorem decoders_of_stop {frames : List WireFrame} {tail : Bytes} (hseqs : Contiguous (frames.map WireFrame.seq))
    (h : lookAt crc (joined crc frames ++ tail) (joined crc frames).length = .stop) :
    decodeStream crc (joined crc frames ++ tail) =
        (located 0 frames, { framesOk := frames.length, skippedBytes := tail.length }) ∧
      Wire.decodeStream crc (joined crc frames ++ tail) =
        (frames.map WireFrame.tuple, { framesOk := frames.length, skippedBytes := tail.length }) := by
  obtain ⟨hlost, hjumps⟩ := contiguous_iff.mp hseqs
  rw [decodeStream_of_stop h, ground_decodeStream_of_stop h, hlost, hjumps]
  exact ⟨rfl, rfl⟩

/-- At the end of the buffer the decoder stops. -/
theorem lookAt_end (pos : ℕ) (h : data.length < pos + 2) : lookAt crc data pos = .stop := by
  rw [lookAt, if_pos h]

/-! ## Recordings without an error -/

/-- A buffer in which nothing is refused and nothing skipped is a concatenation of frames. -/
theorem eq_joined_of_scan {pos : ℕ} {events : List StreamEvent} (h : Scan (lookAt crc data) pos events)
    (hrefused : ∀ why, .refused why ∉ events) (htaken : pos + Resync.taken (Resync.items events) = data.length) :
    ∃ frames, data.drop pos = joined crc frames ∧ events = acceptances pos frames := by
  have hbounded := bounded_lookAt crc data
  induction h with
  | @stop pos _ =>
    have hend : data.length ≤ pos := by simpa using htaken.ge
    exact ⟨[], List.drop_eq_nil_iff.mpr hend, rfl⟩
  | @skip pos events hskip hrest _ =>
    -- A skipped position would leave a byte that no frame takes.
    have hinside : pos + 1 ≤ data.length := by
      by_contra hend
      rw [hbounded.stop pos (by omega)] at hskip
      cases hskip
    have := hrest.taken_le hbounded hinside
    omega
  | @refuse _ why _ _ _ _ => exact absurd List.mem_cons_self (hrefused why)
  | @accept pos size item events haccept hrest ih =>
    obtain ⟨f, rfl, rfl, hload⟩ := startsAt_of_lookAt haccept
    rw [Resync.items_accepted, Resync.taken_cons, ← Nat.add_assoc] at htaken
    obtain ⟨frames, hdrop, rfl⟩ := ih (fun why hmem => hrefused why (List.mem_cons_of_mem _ hmem)) htaken
    refine ⟨f :: frames, ?_, rfl⟩
    rw [joined_cons, ← hdrop, ← hload, load, ← List.drop_drop, List.take_append_drop]

/-- Without a resync and a skipped byte a buffer is the concatenation of the frames found in it. -/
theorem eq_joined (hresyncs : (decodeStream crc data).2.resyncs = 0)
    (hskipped : (decodeStream crc data).2.skippedBytes = 0) : ∃ frames, data = joined crc frames := by
  obtain ⟨events, hscan⟩ := scan_lookAt crc data
  rw [decodeStream_eq hscan] at hresyncs hskipped
  have hle := hscan.taken_le (bounded_lookAt crc data) (Nat.zero_le _)
  obtain ⟨frames, hdata, -⟩ := eq_joined_of_scan hscan (resyncsFrom_eq_zero.mp hresyncs) (by dsimp only at hskipped; omega)
  exact ⟨frames, hdata⟩

/-- Every gap leaves out fewer than `2 ^ 31` frames. -/
theorem lostFrom_le (expected : Option U32) (seqs : List U32) :
    lostFrom expected seqs ≤ seqs.length * 2 ^ 31 := by
  induction seqs generalizing expected with
  | nil => simp [lostFrom]
  | cons seq seqs ih =>
    have hrest := ih (some (seq + 1))
    have hfirst : lostFrom expected [seq] ≤ 2 ^ 31 := by
      cases expected with
      | none => simp [lostFrom]
      | some expected =>
        simp only [lostFrom]
        split <;> omega
    rw [lostFrom_cons, List.length_cons, Nat.succ_mul]
    omega

/-- The frames found in a buffer take at least 14 bytes each. -/
theorem framesOf_length_le {events : List StreamEvent} (h : Scan (lookAt crc data) 0 events) :
    14 * (framesOf events).length ≤ data.length := by
  have hsize : ∀ x ∈ Resync.items events, 14 ≤ x.2.2 := by
    intro x hx
    obtain ⟨f, -, hf, -⟩ := startsAt_of_lookAt (h.ordered.2 x hx).2
    exact hf ▸ f.size_bounds.1
  have hsum : 14 * (Resync.items events).length ≤ Resync.taken (Resync.items events) := by
    have := List.card_nsmul_le_sum ((Resync.items events).map fun x => x.2.2) 14 (by
      rw [List.forall_mem_map]
      exact hsize)
    rw [List.length_map] at this
    simpa [Nat.mul_comm, Resync.taken] using this
  have hle := h.taken_le (bounded_lookAt crc data) (Nat.zero_le _)
  rw [framesOf, List.length_map]
  omega

/-- A whole concatenation is decoded to its frames. -/
theorem decoders_joined (crc : Bytes → U32) (frames : List WireFrame) :
    decodeStream crc (joined crc frames) =
        (located 0 frames,
          { framesOk := frames.length
            seqDiscontinuities := jumpsFrom none (frames.map WireFrame.seq)
            lost := lostFrom none (frames.map WireFrame.seq) % 2 ^ 64 }) ∧
      Wire.decodeStream crc (joined crc frames) =
        (frames.map WireFrame.tuple,
          { framesOk := frames.length
            seqDiscontinuities := jumpsFrom none (frames.map WireFrame.seq)
            lost := lostFrom none (frames.map WireFrame.seq) }) := by
  have hstop : lookAt crc (joined crc frames ++ []) (joined crc frames).length = .stop := lookAt_end _ (by simp)
  have hvehicle := decodeStream_of_stop hstop
  have hground := ground_decodeStream_of_stop hstop
  rw [List.append_nil] at hvehicle hground
  exact ⟨hvehicle, hground⟩

/-- A recording decodes clean exactly if it is a concatenation of frames whose numbers follow each other.
The ground tools never mistake it. The vehicle's count of lost frames wraps, so that a recording whose gaps
add up to a multiple of `2 ^ 64` frames looks clean to it; below `14 * 2 ^ 33` bytes there is none. -/
theorem recording_clean_iff (crc : Bytes → U32) :
    (∀ frames : List WireFrame, Contiguous (frames.map WireFrame.seq) →
      decodeStream crc (joined crc frames) = (located 0 frames, { framesOk := frames.length }) ∧
        contents (joined crc frames) (located 0 frames) = frames.map WireFrame.content ∧
        Wire.decodeStream crc (joined crc frames) = (frames.map WireFrame.tuple, { framesOk := frames.length })) ∧
      (∀ data, (Wire.decodeStream crc data).2.Clean →
        ∃ frames, data = joined crc frames ∧ (Wire.decodeStream crc data).1 = frames.map WireFrame.tuple ∧
          Contiguous (frames.map WireFrame.seq)) ∧
      ∀ data, (decodeStream crc data).2.Clean →
        ∃ frames, data = joined crc frames ∧ (decodeStream crc data).1 = located 0 frames ∧
          (lostFrom none (frames.map WireFrame.seq) < 2 ^ 64 → Contiguous (frames.map WireFrame.seq)) ∧
          (data.length < 14 * 2 ^ 33 → lostFrom none (frames.map WireFrame.seq) < 2 ^ 64) := by
  refine ⟨fun frames hseqs => ?_, fun data hclean => ?_, fun data hclean => ?_⟩
  · obtain ⟨hvehicle, hground⟩ := decoders_joined crc frames
    obtain ⟨hlost, hjumps⟩ := contiguous_iff.mp hseqs
    rw [hlost, hjumps] at hvehicle hground
    have hcontents := contents_located crc [] frames
    rw [List.append_nil] at hcontents
    exact ⟨hvehicle, hcontents, hground⟩
  · obtain ⟨events, hscan⟩ := scan_lookAt crc data
    have hground := hclean
    rw [DecodeCounters.Clean, Wire.decodeStream_eq hscan] at hground
    simp only [DecodeCounters.mk.injEq] at hground
    obtain ⟨-, -, -, hresyncs, -, -, hskipped⟩ := hground
    obtain ⟨frames, rfl⟩ := eq_joined hresyncs hskipped
    obtain ⟨-, hdecoded⟩ := decoders_joined crc frames
    rw [DecodeCounters.Clean, hdecoded] at hclean
    simp only [DecodeCounters.mk.injEq] at hclean
    exact ⟨frames, rfl, by rw [hdecoded], contiguous_iff.mpr ⟨by tauto, by tauto⟩⟩
  · have hzero := hclean
    rw [DecodeCounters.Clean] at hzero
    obtain ⟨frames, rfl⟩ := eq_joined (congrArg DecodeCounters.resyncs hzero) (congrArg DecodeCounters.skippedBytes hzero)
    obtain ⟨hdecoded, -⟩ := decoders_joined crc frames
    rw [DecodeCounters.Clean, hdecoded] at hclean
    simp only [DecodeCounters.mk.injEq] at hclean
    obtain ⟨-, -, -, -, hjumps, hlost, -⟩ := hclean
    refine ⟨frames, rfl, by rw [hdecoded], fun hbound => ?_, fun hshort => ?_⟩
    · rw [Nat.mod_eq_of_lt hbound] at hlost
      exact contiguous_iff.mpr ⟨hlost, hjumps⟩
    · obtain ⟨events, hscan⟩ := scan_lookAt crc (joined crc frames)
      have hcount := framesOf_length_le hscan
      have hle := lostFrom_le none (frames.map WireFrame.seq)
      have hfound : framesOf events = located 0 frames :=
        congrArg Prod.fst ((decodeStream_eq hscan).symm.trans hdecoded)
      rw [List.length_map] at hle
      rw [hfound, located_length] at hcount
      omega

/-! ## Recordings cut off -/

/-- Where a frame found in a buffer ends. -/
def DecodedFrame.stop (f : DecodedFrame) : ℕ := f.payloadOff + f.payloadLen + 4

/-- The frames that lie wholly inside the first bytes of a recording. -/
def wholeWithin : ℕ → List WireFrame → List WireFrame
  | _, [] => []
  | n, f :: rest => if f.size ≤ n then f :: wholeWithin (n - f.size) rest else []

/-- The whole frames come first. -/
theorem wholeWithin_isPrefix (n : ℕ) (frames : List WireFrame) : wholeWithin n frames <+: frames := by
  induction frames generalizing n with
  | nil => exact List.prefix_rfl
  | cons f frames ih =>
    rw [wholeWithin]
    split
    · exact List.prefix_cons_inj f |>.mpr (ih _)
    · exact List.nil_prefix

/-- The whole frames are those that end early enough. -/
theorem located_wholeWithin (pos n : ℕ) (frames : List WireFrame) :
    located pos (wholeWithin n frames) = (located pos frames).filter fun f => decide (f.stop ≤ pos + n) := by
  have hbehind (pos : ℕ) (frames : List WireFrame) : ∀ f ∈ located pos frames, pos ≤ f.stop := by
    induction frames generalizing pos with
    | nil => exact nofun
    | cons f frames ih =>
      rw [located, List.forall_mem_cons]
      exact ⟨by simp only [DecodedFrame.stop]; omega, fun g hg => (Nat.le_add_right pos f.size).trans (ih _ g hg)⟩
  induction frames generalizing pos n with
  | nil => rfl
  | cons f frames ih =>
    have hstop : (⟨f.type, f.seq, pos + 10, f.payload.length⟩ : DecodedFrame).stop = pos + f.size := by
      simp only [DecodedFrame.stop, WireFrame.size, kFrameOverhead]
      omega
    rw [wholeWithin, located]
    split
    · rename_i hwhole
      rw [List.filter_cons_of_pos (by simpa [hstop] using hwhole), located, ih,
        show pos + f.size + (n - f.size) = pos + n by omega]
    · rename_i hcut
      rw [List.filter_cons_of_neg (by simpa [hstop] using hcut), located, eq_comm, List.filter_eq_nil_iff]
      intro g hg
      have := hbehind _ _ g hg
      simp only [decide_eq_true_eq]
      omega

/-- Cutting off a recording leaves whole frames and a part of the next. -/
theorem take_joined (crc : Bytes → U32) (n : ℕ) (frames : List WireFrame) :
    ∃ tail, (joined crc frames).take n = joined crc (wholeWithin n frames) ++ tail ∧
      (tail = [] ∨ ∃ f : WireFrame, tail <+: f.bytes crc ∧ tail.length < f.size) := by
  induction frames generalizing n with
  | nil => exact ⟨[], by simp [wholeWithin], .inl rfl⟩
  | cons f frames ih =>
    rw [wholeWithin]
    split
    · rename_i hwhole
      obtain ⟨tail, htake, htail⟩ := ih (n - f.size)
      refine ⟨tail, ?_, htail⟩
      rw [joined_cons, List.take_append, WireFrame.bytes_length, htake,
        List.take_of_length_le (by rwa [WireFrame.bytes_length]), joined_cons, List.append_assoc]
    · rename_i hcut
      refine ⟨(f.bytes crc).take n, ?_, .inr ⟨f, List.take_prefix n _, ?_⟩⟩
      · rw [joined_cons, List.take_append_of_le_length (by rw [WireFrame.bytes_length]; omega), joined_nil,
          List.nil_append]
      · rw [List.length_take]
        omega

/-- The decoder stops at a frame that is cut off, whatever its payload holds. -/
theorem lookAt_part {f : WireFrame} (pre : Bytes) {tail : Bytes} (hpart : tail <+: f.bytes crc)
    (hshort : tail.length < f.size) : lookAt crc (pre ++ tail) pre.length = .stop := by
  by_cases hword : tail.length < 2
  · exact lookAt_end _ (by rw [List.length_append]; omega)
  · have hshort' : f.payload.length < 2 ^ 16 := lt_of_le_of_lt f.short (by decide)
    obtain ⟨hsync, hversion, htype, hplen, -⟩ := encodeFrameWith_fields crc f.type f.seq hshort'
    -- What is left of the frame reads as the frame does.
    have hread {n width : ℕ} (o : ℕ) (ho : o + width ≤ tail.length) :
        getLe n width (pre ++ tail) (pre.length + o) = getLe n width (f.bytes crc) o := by
      obtain ⟨post, hwhole⟩ := hpart
      have hpre : load (pre ++ tail) pre.length tail.length = tail := load_append_right pre tail
      have hpost : load (f.bytes crc) 0 tail.length = tail := by
        rw [← hwhole, load, List.drop_zero, List.take_left]
      rw [← getLe_load (pre ++ tail) ho, hpre, ← Nat.zero_add o, ← getLe_load (f.bytes crc) ho, hpost, Nat.zero_add]
    refine lookAt_cutOff ⟨by rw [List.length_append]; omega, (hread 0 (by omega)).trans hsync, ?_⟩
    by_cases hheader : tail.length < 10
    · exact .inl (by rw [List.length_append]; omega)
    · have htype' : getU8 (pre ++ tail) (pre.length + 3) = f.type := (hread 3 (by omega)).trans htype
      have hplen' : (getU16Le (pre ++ tail) (pre.length + 4)).toNat = f.payload.length :=
        (congrArg BitVec.toNat (hread 4 (show 4 + 2 ≤ tail.length by omega))).trans hplen
      rw [htype', hplen', List.length_append]
      refine .inr ⟨(hread 2 (by omega)).trans hversion, f.known.1, f.known.2, f.short, ?_⟩
      simp only [WireFrame.size] at hshort
      omega

/-- A recording cut off anywhere gives back the frames that are still whole, without an error, and skips what
is left of the next one. -/
theorem crash_recovered (crc : Bytes → U32) {frames : List WireFrame} (hseqs : Contiguous (frames.map WireFrame.seq))
    (n : ℕ) :
    ∃ tail, (joined crc frames).take n = joined crc (wholeWithin n frames) ++ tail ∧
      decodeStream crc ((joined crc frames).take n) =
        ((located 0 frames).filter fun f => decide (f.stop ≤ n),
          { framesOk := (wholeWithin n frames).length, skippedBytes := tail.length }) ∧
      contents ((joined crc frames).take n) (decodeStream crc ((joined crc frames).take n)).1 =
        (wholeWithin n frames).map WireFrame.content ∧
      Wire.decodeStream crc ((joined crc frames).take n) =
        ((wholeWithin n frames).map WireFrame.tuple,
          { framesOk := (wholeWithin n frames).length, skippedBytes := tail.length }) := by
  obtain ⟨tail, htake, htail⟩ := take_joined crc n frames
  have hstop : lookAt crc (joined crc (wholeWithin n frames) ++ tail) (joined crc (wholeWithin n frames)).length =
      .stop := by
    rcases htail with rfl | ⟨f, hpart, hshort⟩
    · exact lookAt_end _ (by simp)
    · exact lookAt_part _ hpart hshort
  have hwhole : Contiguous ((wholeWithin n frames).map WireFrame.seq) := by
    obtain ⟨rest, hrest⟩ := wholeWithin_isPrefix n frames
    rw [← hrest, List.map_append] at hseqs
    exact List.IsChain.left_of_append hseqs
  obtain ⟨hvehicle, hground⟩ := decoders_of_stop hwhole hstop
  have hlocated := located_wholeWithin 0 n frames
  rw [Nat.zero_add] at hlocated
  refine ⟨tail, htake, ?_, ?_, ?_⟩
  · rw [htake, hvehicle, hlocated]
  · rw [htake, hvehicle, contents_located]
  · rw [htake, hground]

/-- A recording of two frames, cut off in the second. -/
theorem crash_recovered_two :
    let first : WireFrame := ⟨2, 0xFFFFFFFF, [1, 2, 3], by decide, by decide⟩
    let second : WireFrame := ⟨5, 0, [0x90, 0xEB, 1], by decide, by decide⟩
    ∃ tail, (joined crc32c [first, second]).take 30 = joined crc32c (wholeWithin 30 [first, second]) ++ tail ∧
      decodeStream crc32c ((joined crc32c [first, second]).take 30) =
        ((located 0 [first, second]).filter fun f => decide (f.stop ≤ 30),
          { framesOk := (wholeWithin 30 [first, second]).length, skippedBytes := tail.length }) ∧
      contents ((joined crc32c [first, second]).take 30)
          (decodeStream crc32c ((joined crc32c [first, second]).take 30)).1 =
        (wholeWithin 30 [first, second]).map WireFrame.content ∧
      Wire.decodeStream crc32c ((joined crc32c [first, second]).take 30) =
        ((wholeWithin 30 [first, second]).map WireFrame.tuple,
          { framesOk := (wholeWithin 30 [first, second]).length, skippedBytes := tail.length }) := by
  intro first second
  have hseqs : Contiguous ([first, second].map WireFrame.seq) := by simp [Contiguous, first, second]
  exact crash_recovered crc32c hseqs 30

/-! ## Gaps that add up to the width of the counter -/

/-- Frames without a payload, each `2 ^ 30` ahead of the expected number. -/
def sparse : ℕ → U32 → List WireFrame
  | 0, _ => []
  | n + 1, seq => ⟨1, seq, [], by decide, by decide⟩ :: sparse n (seq + 0x40000001)

/-- The gaps of a sparse recording. -/
theorem sparse_gaps (n : ℕ) (seq : U32) :
    lostFrom none ((sparse (n + 1) seq).map WireFrame.seq) = n * 2 ^ 30 ∧
      jumpsFrom none ((sparse (n + 1) seq).map WireFrame.seq) = 0 := by
  have hgap (seq : U32) : (seq + 0x40000001 - (seq + 1)).toNat = 2 ^ 30 := by
    rw [show seq + 0x40000001 - (seq + 1) = 0x40000000 by ring_nf]
    rfl
  induction n generalizing seq with
  | zero => simp [sparse, lostFrom, jumpsFrom]
  | succ n ih =>
    obtain ⟨hlost, hjumps⟩ := ih (seq + 0x40000001)
    rw [sparse, List.map_cons] at hlost hjumps ⊢
    rw [sparse, List.map_cons]
    simp only [lostFrom, jumpsFrom] at hlost hjumps ⊢
    rw [hlost, hjumps, hgap, Nat.succ_mul]
    exact ⟨by norm_num [Nat.add_comm], rfl⟩

/-- A recording of `2 ^ 34 + 1` frames looks clean to the vehicle's decoder though `2 ^ 30` frames are missing
before each but the first. -/
theorem sparse_looks_clean :
    (decodeStream crc32c (joined crc32c (sparse (2 ^ 34 + 1) 0))).2.Clean ∧
      ¬Contiguous (seqsOf (decodeStream crc32c (joined crc32c (sparse (2 ^ 34 + 1) 0))).1) := by
  obtain ⟨hlost, hjumps⟩ := sparse_gaps (2 ^ 34) 0
  have hwrap : 2 ^ 34 * 2 ^ 30 % 2 ^ 64 = 0 := by decide
  rw [(decoders_joined _ _).1, seqsOf_located, contiguous_iff, DecodeCounters.Clean, hlost, hjumps, hwrap]
  exact ⟨rfl, fun h => absurd h.1 (by decide)⟩

end Tvc.Telem
