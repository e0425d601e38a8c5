import Tvc.GroundWire
import Tvc.Stream.Frames

/-!
# The stream decoder of `ground/wire.py`

The Python decoder jumps from one sync word to the next with `find` where the vehicle's looks at one
position after another. Both note the same refusals and the same frames. The counters of the Python
decoder are unbounded, the one of the lost frames included.
-/

namespace Tvc.Wire

open ByteStore
open Telem (DecodeCounters DecodedFrame StreamEvent Tally lookAt framesOf seqsOf lostFrom)
open Resync (Scan)

/-- `data.find(b"\x90\xeb", pos)`, the position of the next sync word. -/
def findSync (data : Bytes) (pos : ℕ) : Option ℕ :=
  (List.range' pos (data.length - pos)).find? fun p => load data p 2 == [0x90, 0xEB]

/-- The variables of the loop of `decode_stream`. -/
structure Reading where
  ctr : DecodeCounters := {}
  frames : List (ℕ × ℕ × Bytes) := []
  expected : Option ℕ := none
  consumed : ℕ := 0
  locked : Bool := true
  pos : ℕ := 0

/-- A sync word that fails a check is stepped over. -/
def Reading.refuse (s : Reading) (pos : ℕ) (version crc : Bool) : Reading :=
  { s with
    ctr :=
      { s.ctr with
        versionMismatch := s.ctr.versionMismatch + version.toNat
        crcErrors := s.ctr.crcErrors + crc.toNat
        resyncs := s.ctr.resyncs + s.locked.toNat }
    locked := false
    pos := pos + 1 }

/-- The gap before a frame. -/
def noteGap (ctr : DecodeCounters) (expected : Option ℕ) (seq : ℕ) : DecodeCounters :=
  match expected with
  | none => ctr
  | some expected =>
    let gap := ((seq : ℤ) - expected) % 2 ^ 32
    if 1 ≤ gap && gap < 2 ^ 31 then { ctr with lost := ctr.lost + gap.toNat }
    else if 2 ^ 31 ≤ gap then { ctr with seqDiscontinuities := ctr.seqDiscontinuities + 1 }
    else ctr

/-- A frame that passes every check. -/
def Reading.accept (s : Reading) (data : Bytes) (pos ftype length seq : ℕ) : Reading :=
  let stop := pos + 10 + length + 4
  { ctr := { noteGap s.ctr s.expected seq with framesOk := s.ctr.framesOk + 1 }
    frames := s.frames ++ [(ftype, seq, load data (pos + 10) (stop - 4 - (pos + 10)))]
    expected := some ((seq + 1) % 2 ^ 32)
    consumed := s.consumed + (stop - pos)
    locked := true
    pos := stop }

/-- One turn of the loop; `none` is a `break`. -/
def Reading.turn (crc : Bytes → U32) (data : Bytes) (s : Reading) : Option Reading :=
  match findSync data s.pos with
  | none => none
  | some pos =>
    if data.length < pos + 10 then none
    else
      let ver := decodeLe (load data (pos + 2) 1)
      let ftype := decodeLe (load data (pos + 3) 1)
      let length := decodeLe (load data (pos + 4) 2)
      let seq := decodeLe (load data (pos + 6) 4)
      if ver != 1 then some (s.refuse pos true false)
      else if !(1 ≤ ftype && ftype ≤ 6) || 498 < length then some (s.refuse pos false false)
      else
        let stop := pos + 10 + length + 4
        if data.length < stop then none
        else if decodeLe (load data (stop - 4) 4) != (crc (load data (pos + 2) (stop - 4 - (pos + 2)))).toNat then
          some (s.refuse pos false true)
        else some (s.accept data pos ftype length seq)

/-- The loop. -/
def Reading.loop (crc : Bytes → U32) (data : Bytes) : ℕ → Reading → Reading
  | 0, s => s
  | fuel + 1, s =>
    match s.turn crc data with
    | none => s
    | some s => Reading.loop crc data fuel s

/-- `decode_stream`. -/
def decodeStream (crc : Bytes → U32) (data : Bytes) : List (ℕ × ℕ × Bytes) × DecodeCounters :=
  let s := Reading.loop crc data (data.length + 1) {}
  (s.frames, { s.ctr with skippedBytes := data.length - s.consumed })

/-! ## The two searches -/

variable {crc : Bytes → U32} {data : Bytes}

/-- A frame as the Python decoder returns it. -/
def tupleOf (data : Bytes) (f : DecodedFrame) : ℕ × ℕ × Bytes := (f.type.toNat, f.seq.toNat, f.payload data)

/-- The sync word as two bytes. -/
theorem load_sync_iff {pos : ℕ} (h : pos + 2 ≤ data.length) :
    (load data pos 2 == [0x90, 0xEB]) = (Telem.getU8 data pos == 0x90 && Telem.getU8 data (pos + 1) == 0xEB) := by
  have hfirst := load_eq_encodeLe (show 8 = 8 * 1 from rfl) (show pos + 1 ≤ data.length by omega)
  have hsecond := load_eq_encodeLe (show 8 = 8 * 1 from rfl) (show pos + 1 + 1 ≤ data.length by omega)
  rw [show 2 = 1 + 1 from rfl, load_add, hfirst, hsecond]
  simp [encodeLe]

/-- Where no sync word stands, the vehicle's decoder skips or ends. -/
theorem lookAt_of_not_sync (crc : Bytes → U32) {pos : ℕ} (h : (load data pos 2 == [0x90, 0xEB]) = false) :
    lookAt crc data pos = if data.length < pos + 2 then .stop else .skip := by
  unfold lookAt
  split
  · rfl
  · rw [load_sync_iff (by omega)] at h
    rw [h, Bool.not_false, if_pos rfl]

/-- The events from a position are those from the next sync word, if there is one. -/
theorem scan_findSync {pos : ℕ} {events : List StreamEvent} (h : Scan (lookAt crc data) pos events) :
    match findSync data pos with
    | none => events = []
    | some next => next + 2 ≤ data.length ∧ (load data next 2 == [0x90, 0xEB]) = true ∧
        Scan (lookAt crc data) next events := by
  unfold findSync
  generalize hleft : data.length - pos = left
  induction left generalizing pos with
  | zero =>
    rw [List.range'_zero, List.find?_nil]
    cases h with
    | stop _ => rfl
    | _ hlook => simp_all [lookAt, show data.length < pos + 2 by omega]
  | succ left ih =>
    rw [List.range'_succ]
    cases hsync : load data pos 2 == [0x90, 0xEB] with
    | true =>
      rw [List.find?_cons_of_pos (by simpa using hsync)]
      have hblock := congrArg List.length (beq_iff_eq.mp hsync)
      rw [load, List.length_take, List.length_drop] at hblock
      simp only [List.length_cons, List.length_nil] at hblock
      exact ⟨by omega, hsync, h⟩
    | false =>
      rw [List.find?_cons_of_neg (by simpa using hsync)]
      have hlook := lookAt_of_not_sync crc hsync
      by_cases hend : data.length < pos + 2
      · obtain rfl : left = 0 := by omega
        rw [if_pos hend] at hlook
        rw [List.range'_zero, List.find?_nil]
        cases h <;> simp_all
      · rw [if_neg hend] at hlook
        cases h with
        | skip _ hrest => exact ih hrest (by omega)
        | _ => simp_all

/-- A turn at a sync word does what the vehicle's checks say. -/
theorem turn_of_findSync (crc : Bytes → U32) {s : Reading} {pos : ℕ} (hfind : findSync data s.pos = some pos)
    (hword : pos + 2 ≤ data.length) (hsync : (load data pos 2 == [0x90, 0xEB]) = true) :
    s.turn crc data =
      match lookAt crc data pos with
      | .stop => none
      | .skip => none
      | .refuse why => some (s.refuse pos (why == .version) (why == .crc))
      | .accept (type, seq, plen) _ => some (s.accept data pos type.toNat plen seq.toNat) := by
  have hbyte (o : ℕ) (ho : o + 1 ≤ data.length) : decodeLe (load data o 1) = (Telem.getU8 data o).toNat :=
    (getLe_toNat (by omega) ho).symm
  have hhalf (o : ℕ) (ho : o + 2 ≤ data.length) : decodeLe (load data o 2) = (Telem.getU16Le data o).toNat :=
    (getLe_toNat (by omega) ho).symm
  have hlong (o : ℕ) (ho : o + 4 ≤ data.length) : decodeLe (load data o 4) = (Telem.getU32Le data o).toNat :=
    (getLe_toNat (by omega) ho).symm
  have hne {n : ℕ} (a b : BitVec n) : (a.toNat != b.toNat) = (a != b) := by
    rw [Bool.eq_iff_iff, bne_iff_ne, bne_iff_ne, ne_eq, BitVec.toNat_inj]
  rw [load_sync_iff hword] at hsync
  rw [lookAt, if_neg (by omega), hsync, Bool.not_true, if_neg Bool.false_ne_true, Reading.turn, hfind]
  have hten : pos + Telem.kFrameOverhead - 4 = pos + 10 := by simp only [Telem.kFrameOverhead]; omega
  simp only [hten]
  by_cases hheader : data.length < pos + 10
  · simp only [if_pos hheader]
  · have hversion := hne (Telem.getU8 data (pos + 2)) Telem.kVersion
    simp only [if_neg hheader, hbyte (pos + 2) (by omega), hbyte (pos + 3) (by omega), hhalf (pos + 4) (by omega),
      hlong (pos + 6) (by omega)]
    generalize (Telem.getU16Le data (pos + 4)).toNat = plen
    have hstop : pos + Telem.kFrameOverhead + plen = pos + 10 + plen + 4 := by simp only [Telem.kFrameOverhead]; omega
    have hcovered : pos + 10 + plen + 4 - 4 - (pos + 2) = 8 + plen := by omega
    simp only [hstop, hcovered]
    rw [show Telem.kMaxPayload = 498 from rfl]
    by_cases hold : (Telem.getU8 data (pos + 2) != Telem.kVersion) = true
    · have hold' : ((Telem.getU8 data (pos + 2)).toNat != 1) = true := hversion.trans hold
      simp only [if_pos hold, if_pos hold']
      rfl
    · have hold' : ¬((Telem.getU8 data (pos + 2)).toNat != 1) = true := fun h => hold (hversion.symm.trans h)
      simp only [if_neg hold, if_neg hold']
      split
      · rfl
      · by_cases hend : data.length < pos + 10 + plen + 4
        · simp only [if_pos hend]
        · simp only [if_neg hend, hlong (pos + 10 + plen + 4 - 4) (by omega), hne]
          split <;> rfl

/-- At a sync word nothing is skipped. -/
theorem lookAt_ne_skip {pos : ℕ} (hword : pos + 2 ≤ data.length) (hsync : (load data pos 2 == [0x90, 0xEB]) = true) :
    lookAt crc data pos ≠ .skip := by
  rw [load_sync_iff hword] at hsync
  rw [lookAt, if_neg (by omega), hsync, Bool.not_true, if_neg Bool.false_ne_true]
  dsimp only
  repeat' split
  all_goals simp

/-- The size of an accepted frame. -/
theorem lookAt_size {pos plen size : ℕ} {type : U8} {seq : U32}
    (h : lookAt crc data pos = .accept (type, seq, plen) size) : size = Telem.kFrameOverhead + plen := by
  obtain ⟨f, hitem, rfl, -⟩ := Telem.startsAt_of_lookAt h
  obtain rfl : plen = f.payload.length := congrArg (fun x : U8 × U32 × ℕ => x.2.2) hitem
  rfl

/-! ## The two loops -/

/-- The Python decoder has noted what the vehicle's has, but for the wrap of one counter. -/
structure Same (data : Bytes) (t : Tally) (s : Reading) : Prop where
  ctr : t.ctr = { s.ctr with lost := s.ctr.lost % 2 ^ 64 }
  frames : s.frames = t.out.map (tupleOf data)
  expected : s.expected = t.expected.map BitVec.toNat
  consumed : s.consumed = t.consumed
  locked : s.locked = t.locked

variable {t : Tally} {s : Reading}

/-- Both step over a sync word that fails a check. -/
theorem Same.refuse (h : Same data t s) (pos : ℕ) (why : Telem.Refusal) :
    Same data (t.note (.refused why)) (s.refuse pos (why == .version) (why == .crc)) := by
  obtain ⟨hctr, hframes, hexpected, hconsumed, hlocked⟩ := h
  exact ⟨by simp only [Tally.note, Reading.refuse, hctr, hlocked], hframes, hexpected, hconsumed, rfl⟩

/-- Both count the gap before a frame. -/
theorem noteGap_eq (ctr : DecodeCounters) (expected : Option U32) (seq : U32) :
    DecodeCounters.noteGap { ctr with lost := ctr.lost % 2 ^ 64 } expected seq =
        { noteGap ctr (expected.map BitVec.toNat) seq.toNat with
          lost := (noteGap ctr (expected.map BitVec.toNat) seq.toNat).lost % 2 ^ 64 } ∧
      (noteGap ctr (expected.map BitVec.toNat) seq.toNat).lost = ctr.lost + lostFrom expected [seq] := by
  cases expected with
  | none => exact ⟨rfl, rfl⟩
  | some expected =>
    have hgap : ((seq.toNat : ℤ) - expected.toNat) % 2 ^ 32 = ((seq - expected).toNat : ℤ) := by
      have := seq.isLt
      have := expected.isLt
      rw [BitVec.toNat_sub]
      omega
    simp only [DecodeCounters.noteGap, noteGap, Option.map_some, hgap, lostFrom]
    generalize (seq - expected).toNat = gap
    have hone : decide (1 ≤ (gap : ℤ)) = decide (1 ≤ gap) := decide_eq_decide.mpr (by omega)
    have hahead : decide ((gap : ℤ) < 2 ^ 31) = decide (gap < 0x80000000) := decide_eq_decide.mpr (by omega)
    have hbehind : ((2 : ℤ) ^ 31 ≤ gap) = (0x80000000 ≤ gap) := propext (by omega)
    simp only [hone, hahead, hbehind]
    by_cases hzero : gap = 0
    · simp [hzero]
    · by_cases hfar : 0x80000000 ≤ gap
      · simp [hfar, Nat.not_lt.mpr hfar]
      · simp [Nat.lt_of_not_le hfar, Nat.one_le_iff_ne_zero.mpr hzero]

/-- Both accept a frame. -/
theorem Same.accept (h : Same data t s) (pos plen : ℕ) (type : U8) (seq : U32) :
    Same data (t.note (.accepted pos (type, seq, plen) (Telem.kFrameOverhead + plen)))
      (s.accept data pos type.toNat plen seq.toNat) ∧
      (s.accept data pos type.toNat plen seq.toNat).ctr.lost = s.ctr.lost + lostFrom t.expected [seq] := by
  obtain ⟨hctr, hframes, hexpected, hconsumed, -⟩ := h
  obtain ⟨hgap, hlost⟩ := noteGap_eq s.ctr t.expected seq
  have hpayload : pos + 10 + plen + 4 - 4 - (pos + 10) = plen := by omega
  have hsize : pos + 10 + plen + 4 - pos = Telem.kFrameOverhead + plen := by
    simp only [Telem.kFrameOverhead]
    omega
  refine ⟨⟨?_, ?_, ?_, ?_, rfl⟩, ?_⟩
  · simp only [Tally.note, Reading.accept, hctr, hexpected, hgap]
  · simp only [Tally.note, Reading.accept, hframes, List.map_append, List.map_cons, List.map_nil, tupleOf,
      DecodedFrame.payload, hpayload]
  · simp only [Tally.note, Reading.accept, Option.map_some, BitVec.toNat_add]
    rfl
  · simp only [Tally.note, Reading.accept, hconsumed, hsize]
  · simp only [Reading.accept, hexpected, hlost]

/-- The two loops note the same events, and the Python one ends at a `break`. -/
theorem loop_of_scan {events : List StreamEvent} (h : Scan (lookAt crc data) s.pos events) (hsame : Same data t s)
    {fuel : ℕ} (hfuel : data.length - s.pos < fuel) :
    Same data (events.foldl Tally.note t) (Reading.loop crc data fuel s) ∧
      (Reading.loop crc data fuel s).ctr.lost = s.ctr.lost + lostFrom t.expected (seqsOf (framesOf events)) ∧
      (Reading.loop crc data fuel s).turn crc data = none := by
  induction fuel generalizing s t events with
  | zero => omega
  | succ fuel ih =>
    have hfind := scan_findSync h
    cases hsync : findSync data s.pos with
    | none =>
      rw [hsync] at hfind
      obtain rfl : events = [] := hfind
      have hturn : s.turn crc data = none := by rw [Reading.turn, hsync]
      rw [Reading.loop, hturn]
      exact ⟨hsame, rfl, hturn⟩
    | some next =>
      rw [hsync] at hfind
      obtain ⟨hword, hbytes, hscan⟩ := hfind
      have hturn := turn_of_findSync crc hsync hword hbytes
      have hle : s.pos ≤ next := List.mem_range'_1.mp (List.mem_of_find?_eq_some hsync) |>.1
      cases hscan with
      | stop hlook =>
        rw [hlook] at hturn
        rw [Reading.loop, hturn]
        exact ⟨hsame, rfl, hturn⟩
      | skip hlook _ => exact absurd hlook (lookAt_ne_skip hword hbytes)
      | @refuse _ why events hlook hrest =>
        rw [hlook] at hturn
        rw [Reading.loop, hturn]
        exact ih (s := s.refuse next (why == .version) (why == .crc)) (t := t.note (.refused why)) hrest
          (hsame.refuse next why) (by simp only [Reading.refuse]; omega)
      | @accept _ size item events hlook hrest =>
        obtain ⟨type, seq, plen⟩ := item
        rw [hlook] at hturn
        rw [Reading.loop, hturn]
        obtain rfl : size = Telem.kFrameOverhead + plen := lookAt_size hlook
        obtain ⟨hnext, hlost⟩ := hsame.accept next plen type seq
        have hpos : (s.accept data next type.toNat plen seq.toNat).pos = next + (Telem.kFrameOverhead + plen) := by
          simp only [Reading.accept, Telem.kFrameOverhead]
          omega
        rw [← hpos] at hrest
        obtain ⟨hlast, hsum, hend⟩ := ih hrest hnext (by simp only [Reading.accept]; omega)
        refine ⟨hlast, ?_, hend⟩
        have hseqs : seqsOf (framesOf (.accepted next (type, seq, plen) (Telem.kFrameOverhead + plen) :: events)) =
            seq :: seqsOf (framesOf events) := rfl
        rw [hsum, hlost, hseqs, Telem.lostFrom_cons t.expected seq (seqsOf (framesOf events)), Nat.add_assoc]
        rfl

/-- The loop of the Python decoder ends. -/
theorem loop_ends (crc : Bytes → U32) (data : Bytes) :
    (Reading.loop crc data (data.length + 1) {}).turn crc data = none := by
  obtain ⟨events, hscan⟩ := Telem.scan_lookAt crc data
  have hsame : Same data {} {} := ⟨rfl, rfl, rfl, rfl, rfl⟩
  exact (loop_of_scan (s := {}) hscan hsame (by simp only; omega)).2.2

/-- The Python decoder returns the frames of the vehicle's decoder and its counters, but that the count of
the lost frames does not wrap. -/
theorem decodeStream_eq {events : List StreamEvent} (h : Scan (lookAt crc data) 0 events) :
    decodeStream crc data =
      ((framesOf events).map (tupleOf data),
        { (Telem.decodeStream crc data).2 with lost := lostFrom none (seqsOf (framesOf events)) }) := by
  have hfuel : data.length - 0 < data.length + 1 := by omega
  have hwalk := h.walk (Telem.bounded_lookAt crc data) Tally.note hfuel {}
  have hsame : Same data {} {} := ⟨rfl, rfl, rfl, rfl, rfl⟩
  obtain ⟨⟨hctr, hframes, -, hconsumed, -⟩, hlost, -⟩ :=
    loop_of_scan (s := {}) (t := {}) h hsame hfuel
  have hout := (Telem.Tally.adds (t := {}) (by decide) events).out
  rw [Nat.zero_add] at hlost
  rw [decodeStream, Telem.decodeStream, hwalk]
  simp only [hframes, hctr, hout, hconsumed, List.nil_append, ← hlost]

end Tvc.Wire
