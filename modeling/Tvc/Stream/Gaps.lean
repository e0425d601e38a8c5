import Tvc.Lib.SerialNumber
import Tvc.Stream.Agreement
import Tvc.Stream.Damage

/-!
# The count of lost frames

A frame whose number is ahead of the expected one tells how many are missing before it. Along a stream whose
frames are numbered modulo `2 ^ 32`, these add up to the numbers that are missing of the unwrapped sequence, as
long as no two neighbours are more than half the range apart. Bytes without a sync word between the frames do not
change the count.
-/

namespace Tvc.Telem

open ByteStore
open Resync (Scan)

variable {crc : Bytes → U32} {data : Bytes}

/-! ## Frames among other bytes -/

/-- The bytes hold no sync word. -/
def Unsynced (bytes : Bytes) : Prop := ∀ i : ℕ, bytes[i]? = some (0x90 : U8) → bytes[i + 1]? ≠ some (0xEB : U8)

/-- Frames with other bytes before each of them, and at the end. -/
def spaced (crc : Bytes → U32) (pieces : List (Bytes × WireFrame)) (tail : Bytes) : Bytes :=
  (pieces.flatMap fun p => p.1 ++ p.2.bytes crc) ++ tail

@[simp] theorem spaced_nil (tail : Bytes) : spaced crc [] tail = tail := rfl

@[simp] theorem spaced_cons (p : Bytes × WireFrame) (pieces : List (Bytes × WireFrame)) (tail : Bytes) :
    spaced crc (p :: pieces) tail = p.1 ++ (p.2.bytes crc ++ spaced crc pieces tail) := by
  simp [spaced]

/-- A position without a sync word is passed over, or ends the buffer. -/
theorem lookAt_unsynced {pos : ℕ} (h : data[pos]? = some (0x90 : U8) → data[pos + 1]? ≠ some (0xEB : U8)) :
    lookAt crc data pos = if data.length < pos + 2 then .stop else .skip := by
  refine Wire.lookAt_of_not_sync crc (beq_eq_false_iff_ne.mpr fun hsync => ?_)
  have hfirst := congrArg (·[0]?) hsync
  have hsecond := congrArg (·[1]?) hsync
  simp only [load, List.getElem?_take, List.getElem?_drop] at hfirst hsecond
  exact h (by simpa using hfirst) (by simpa using hsecond)

/-- The first byte of a frame begins its sync word. -/
theorem WireFrame.bytes_head (crc : Bytes → U32) (f : WireFrame) : (f.bytes crc)[0]? = some 0x90 := by
  have hsync : encodeLe 2 kSync.toNat = [0x90, 0xEB] := by decide
  simp [bytes, encodeFrameWith, frameHead, hsync]

/-- A byte behind a block. -/
theorem getElem?_behind (pre post : Bytes) (i : ℕ) : (pre ++ post)[pre.length + i]? = post[i]? := by
  rw [List.getElem?_append_right (by omega), Nat.add_sub_cancel_left]

/-- Bytes without a sync word in front of a frame are passed over. -/
theorem passed_unsynced {pre noise post : Bytes} (hnoise : Unsynced noise) (hpost : post[0]? = some 0x90)
    {events : List StreamEvent} (h : Scan (lookAt crc (pre ++ noise ++ post)) (pre ++ noise).length events) :
    ∃ passed, Scan (lookAt crc (pre ++ noise ++ post)) pre.length passed ∧ framesOf passed = framesOf events := by
  have hinside : 0 < post.length := (List.getElem?_eq_some_iff.mp hpost).1
  have hskip : ∀ pos, pre.length ≤ pos → pos < (pre ++ noise).length →
      lookAt crc (pre ++ noise ++ post) pos = .skip := by
    intro pos hle hlt
    obtain ⟨i, rfl⟩ := Nat.exists_eq_add_of_le hle
    rw [List.length_append] at hlt
    rw [lookAt_unsynced, if_neg (by simp only [List.length_append]; omega)]
    rw [List.append_assoc, Nat.add_assoc, getElem?_behind, getElem?_behind, List.getElem?_append_left (by omega)]
    intro hfirst
    by_cases hlast : i + 1 < noise.length
    · rw [List.getElem?_append_left hlast]
      exact hnoise i hfirst
    · rw [List.getElem?_append_right (by omega), show i + 1 - noise.length = 0 by omega, hpost]
      decide
  obtain ⟨passed, hscan, hitems⟩ := h.pass (List.length_append ▸ Nat.le_add_right ..) fun pos hle hlt => by
    rw [hskip pos hle hlt]
    exact ⟨by simp, by simp⟩
  exact ⟨passed, hscan, framesOf_congr hitems⟩

/-- Bytes without a sync word at the end hold no frame. -/
theorem scan_unsynced {pre tail : Bytes} (htail : Unsynced tail) :
    Scan (lookAt crc (pre ++ tail)) pre.length [] := by
  suffices h : ∀ left i, i + left = tail.length → Scan (lookAt crc (pre ++ tail)) (pre.length + i) [] from
    h tail.length 0 (Nat.zero_add _)
  intro left
  induction left with
  | zero =>
    intro i hi
    exact .stop (lookAt_end _ (by rw [List.length_append]; omega))
  | succ left ih =>
    intro i hi
    have hlook : lookAt crc (pre ++ tail) (pre.length + i) =
        if (pre ++ tail).length < pre.length + i + 2 then .stop else .skip := by
      refine lookAt_unsynced ?_
      rw [Nat.add_assoc, getElem?_behind, getElem?_behind]
      exact htail i
    split at hlook
    · exact .stop hlook
    · exact .skip hlook (ih (i + 1) (by omega))

/-- The decoders find the frames among the other bytes. -/
theorem scan_spaced (crc : Bytes → U32) (pre : Bytes) {pieces : List (Bytes × WireFrame)} {tail : Bytes} (hnoise : ∀ p ∈ pieces, Unsynced p.1)
    (htail : Unsynced tail) :
    ∃ events, Scan (lookAt crc (pre ++ spaced crc pieces tail)) pre.length events ∧
      seqsOf (framesOf events) = pieces.map fun p => p.2.seq := by
  induction pieces generalizing pre with
  | nil => exact ⟨[], scan_unsynced htail, rfl⟩
  | cons p pieces ih =>
    obtain ⟨noise, f⟩ := p
    rw [List.forall_mem_cons] at hnoise
    obtain ⟨events, hscan, hseqs⟩ := ih (pre ++ noise ++ f.bytes crc) hnoise.2
    have hshape : pre ++ spaced crc ((noise, f) :: pieces) tail =
        pre ++ noise ++ (f.bytes crc ++ spaced crc pieces tail) := by simp
    have hframe : Scan (lookAt crc (pre ++ noise ++ (f.bytes crc ++ spaced crc pieces tail))) (pre ++ noise).length
        (.accepted (pre ++ noise).length f.item f.size :: events) := by
      have hnext : (pre ++ noise).length + f.size = (pre ++ noise ++ f.bytes crc).length := by simp; omega
      refine .accept (lookAt_frame ?_) ?_
      · rw [← f.bytes_length crc, ← List.append_assoc]
        exact load_middle _ _ _
      · rw [hnext, ← List.append_assoc]
        exact hscan
    have hhead : (f.bytes crc ++ spaced crc pieces tail)[0]? = some 0x90 := by
      rw [List.getElem?_append_left (by rw [f.bytes_length]; have := f.size_bounds; omega)]
      exact f.bytes_head crc
    obtain ⟨passed, hpassed, hsame⟩ := passed_unsynced hnoise.1 hhead hframe
    rw [hshape]
    refine ⟨passed, hpassed, ?_⟩
    rw [hsame, WireFrame.item, framesOf_accepted, seqsOf_cons, hseqs]
    rfl

/-! ## The numbers that are missing -/

open SerialNumber (gap)

/-- A number within half the range ahead of the last one tells what is missing between them. -/
theorem gap_successor {m n : ℕ} (h : m < n) (hnear : n ≤ m + 2 ^ 31) :
    (BitVec.ofNat 32 n - (BitVec.ofNat 32 m + 1)).toNat = n - (m + 1) := by
  have hgap : gap (BitVec.ofNat 32 (m + 1)) (BitVec.ofNat 32 n) = n - (m + 1) :=
    SerialNumber.gap_ofNat h (by omega)
  rwa [gap, BitVec.ofNat_add] at hgap

/-- Along numbers that increase by no more than half the range, the gaps add up to what is missing. -/
theorem lostFrom_unwrapped (n : ℕ) {rest : List ℕ} (h : (n :: rest).IsChain fun a b => a < b ∧ b ≤ a + 2 ^ 31) :
    n + rest.length + lostFrom none ((n :: rest).map (BitVec.ofNat 32)) = (n :: rest).getLast (List.cons_ne_nil n rest) ∧
      jumpsFrom none ((n :: rest).map (BitVec.ofNat 32)) = 0 := by
  induction rest generalizing n with
  | nil => simp [lostFrom, jumpsFrom]
  | cons m rest ih =>
    obtain ⟨⟨hlt, hnear⟩, hrest⟩ := List.isChain_cons_cons.mp h
    obtain ⟨hlost, hjumps⟩ := ih m hrest
    have hgap := gap_successor hlt hnear
    have hsmall : m - (n + 1) < 0x80000000 := by omega
    simp only [List.map_cons, lostFrom, jumpsFrom] at hlost hjumps ⊢
    rw [hgap, if_pos hsmall, hjumps, List.getLast_cons (List.cons_ne_nil m rest), ← hlost, List.length_cons]
    refine ⟨by omega, ?_⟩
    rw [decide_eq_false (by omega)]
    rfl

/-- What one more frame adds to the counts. -/
theorem lostFrom_concat (expected : Option U32) (seqs : List U32) (last seq : U32) :
    lostFrom expected (seqs ++ [last, seq]) = lostFrom expected (seqs ++ [last]) + lostFrom (some (last + 1)) [seq] ∧
      jumpsFrom expected (seqs ++ [last, seq]) =
        jumpsFrom expected (seqs ++ [last]) + jumpsFrom (some (last + 1)) [seq] := by
  induction seqs generalizing expected with
  | nil =>
    rw [List.nil_append, List.nil_append, lostFrom_cons expected last [seq], jumpsFrom_cons expected last [seq]]
    exact ⟨rfl, rfl⟩
  | cons first seqs ih =>
    obtain ⟨hlost, hjumps⟩ := ih (some (first + 1))
    rw [List.cons_append, List.cons_append, lostFrom_cons _ first, jumpsFrom_cons _ first, hlost, hjumps,
      lostFrom_cons _ first (seqs ++ [last]), jumpsFrom_cons _ first (seqs ++ [last]), Nat.add_assoc, Nat.add_assoc]
    exact ⟨rfl, rfl⟩

/-- A frame is in its place, or ahead by what is lost, or behind by a jump. -/
theorem gap_cases (last seq : U32) :
    (seq = last + 1 ∧ lostFrom (some (last + 1)) [seq] = 0 ∧ jumpsFrom (some (last + 1)) [seq] = 0) ∨
      (seq ≠ last + 1 ∧ 0 < lostFrom (some (last + 1)) [seq] ∧ lostFrom (some (last + 1)) [seq] < 2 ^ 31 ∧
        jumpsFrom (some (last + 1)) [seq] = 0) ∨
      (seq ≠ last + 1 ∧ lostFrom (some (last + 1)) [seq] = 0 ∧ jumpsFrom (some (last + 1)) [seq] = 1) := by
  have hzero : (seq - (last + 1)).toNat = 0 ↔ seq = last + 1 := by
    rw [← sub_eq_zero (a := seq)]
    exact ⟨fun h => BitVec.eq_of_toNat_eq h, fun h => congrArg BitVec.toNat h⟩
  simp only [lostFrom, jumpsFrom, Nat.add_zero]
  by_cases hbehind : 0x80000000 ≤ (seq - (last + 1)).toNat
  · have hne : seq ≠ last + 1 := fun heq => by rw [hzero.mpr heq] at hbehind; omega
    exact .inr (.inr ⟨hne, by rw [if_neg (by omega)], by rw [decide_eq_true hbehind]; rfl⟩)
  · rw [if_pos (by omega), decide_eq_false hbehind]
    by_cases heq : seq = last + 1
    · exact .inl ⟨heq, hzero.mpr heq, rfl⟩
    · have hpositive := mt hzero.mp heq
      exact .inr (.inl ⟨heq, by omega, by omega, rfl⟩)

/-- What the decoders count in a stream of frames among other bytes. -/
theorem counts_spaced (crc : Bytes → U32) {pieces : List (Bytes × WireFrame)} {tail : Bytes} (hnoise : ∀ p ∈ pieces, Unsynced p.1)
    (htail : Unsynced tail) :
    let seqs := pieces.map fun p => p.2.seq
    let vehicle := (decodeStream crc (spaced crc pieces tail)).2
    let ground := (Wire.decodeStream crc (spaced crc pieces tail)).2
    vehicle.lost = lostFrom none seqs % 2 ^ 64 ∧ vehicle.seqDiscontinuities = jumpsFrom none seqs ∧
      ground.lost = lostFrom none seqs ∧ ground.seqDiscontinuities = jumpsFrom none seqs := by
  obtain ⟨events, hscan, hseqs⟩ := scan_spaced crc [] hnoise htail
  have hvehicle := decodeStream_eq hscan
  have hground := Wire.decodeStream_eq hscan
  rw [List.nil_append] at hvehicle hground
  rw [hvehicle, hseqs] at hground
  rw [hseqs] at hvehicle
  dsimp only
  rw [hvehicle, hground]
  exact ⟨rfl, rfl, rfl, rfl⟩

/-- How a frame behind another one changes the counts: in its place not at all, ahead by the frames that are lost,
and behind by one jump. -/
def Notes (wrap : ℕ → ℕ) (last seq : U32) (before after : DecodeCounters) : Prop :=
  (seq = last + 1 ∧ after.lost = before.lost ∧ after.seqDiscontinuities = before.seqDiscontinuities) ∨
    (seq ≠ last + 1 ∧ (∃ missing, 0 < missing ∧ missing < 2 ^ 31 ∧ after.lost = wrap (before.lost + missing)) ∧
      after.seqDiscontinuities = before.seqDiscontinuities) ∨
    (seq ≠ last + 1 ∧ after.lost = before.lost ∧ after.seqDiscontinuities = before.seqDiscontinuities + 1)

/-- The count of lost frames is right across any number of wraps. Where the numbers of the frames are those of an
increasing sequence modulo `2 ^ 32`, whose neighbours are at most half the range apart, the ground's decoder counts
the numbers missing between the first and the last, and the vehicle's counts them modulo `2 ^ 64`. Among any valid
frames, each but the first adds to one of the two counts at most, and to none exactly if its number is the next. -/
theorem lost_counted (crc : Bytes → U32) :
    (∀ (n : ℕ) (rest : List ℕ) (pieces : List (Bytes × WireFrame)) (tail : Bytes),
      (n :: rest).IsChain (fun a b => a < b ∧ b ≤ a + 2 ^ 31) → (∀ p ∈ pieces, Unsynced p.1) → Unsynced tail →
      pieces.map (fun p => p.2.seq) = (n :: rest).map (BitVec.ofNat 32) →
      let missing := (n :: rest).getLast (List.cons_ne_nil n rest) - n - rest.length
      let vehicle := (decodeStream crc (spaced crc pieces tail)).2
      let ground := (Wire.decodeStream crc (spaced crc pieces tail)).2
      ground.lost = missing ∧ ground.seqDiscontinuities = 0 ∧ vehicle.lost = missing % 2 ^ 64 ∧
        vehicle.seqDiscontinuities = 0) ∧
      ∀ (pieces : List (Bytes × WireFrame)) (last p : Bytes × WireFrame) (tail : Bytes),
        (∀ q ∈ pieces ++ [last, p], Unsynced q.1) → Unsynced tail →
        Notes id last.2.seq p.2.seq (Wire.decodeStream crc (spaced crc (pieces ++ [last]) tail)).2
            (Wire.decodeStream crc (spaced crc (pieces ++ [last, p]) tail)).2 ∧
          Notes (· % 2 ^ 64) last.2.seq p.2.seq (decodeStream crc (spaced crc (pieces ++ [last]) tail)).2
            (decodeStream crc (spaced crc (pieces ++ [last, p]) tail)).2 := by
  refine ⟨fun n rest pieces tail hchain hnoise htail hseqs => ?_, fun pieces last p tail hnoise htail => ?_⟩
  · obtain ⟨hlost, hjumps⟩ := lostFrom_unwrapped n hchain
    obtain ⟨hvehicle, hvehicle', hground, hground'⟩ := counts_spaced crc hnoise htail
    rw [hseqs] at hvehicle hvehicle' hground hground'
    have hmissing : lostFrom none ((n :: rest).map (BitVec.ofNat 32)) =
        (n :: rest).getLast (List.cons_ne_nil n rest) - n - rest.length := by omega
    dsimp only
    rw [hvehicle, hvehicle', hground, hground', hmissing, hjumps]
    exact ⟨rfl, rfl, rfl, rfl⟩
  · have hbefore : ∀ q ∈ pieces ++ [last], Unsynced q.1 := fun q hq =>
      hnoise q (by rcases List.mem_append.mp hq with hq | hq <;> simp_all)
    obtain ⟨hvehicle, hvehicle', hground, hground'⟩ := counts_spaced crc hbefore htail
    obtain ⟨hafter, hafter', hagain, hagain'⟩ := counts_spaced crc hnoise htail
    obtain ⟨hlost, hjumps⟩ := lostFrom_concat none (pieces.map fun q => q.2.seq) last.2.seq p.2.seq
    simp only [List.map_append, List.map_cons, List.map_nil] at hvehicle hvehicle' hground hground'
    simp only [List.map_append, List.map_cons, List.map_nil] at hafter hafter' hagain hagain'
    rw [hlost] at hafter hagain
    rw [hjumps] at hafter' hagain'
    unfold Notes
    rw [hvehicle, hvehicle', hground, hground', hafter, hafter', hagain, hagain']
    rcases gap_cases last.2.seq p.2.seq with ⟨heq, hnone, hin⟩ | ⟨hne, hpositive, hnear, hin⟩ | ⟨hne, hnone, hjump⟩
    · rw [hnone, hin]
      exact ⟨.inl ⟨heq, rfl, rfl⟩, .inl ⟨heq, rfl, rfl⟩⟩
    · rw [hin]
      exact ⟨.inr (.inl ⟨hne, ⟨_, hpositive, hnear, rfl⟩, rfl⟩),
        .inr (.inl ⟨hne, ⟨_, hpositive, hnear, (Nat.mod_add_mod ..).symm⟩, rfl⟩)⟩
    · rw [hnone, hjump]
      exact ⟨.inr (.inr ⟨hne, rfl, rfl⟩), .inr (.inr ⟨hne, rfl, rfl⟩)⟩

/-! ## A count that leaves 64 bits -/

/-- The unwrapped numbers of a sparse recording. -/
def sparseNumbers : ℕ → ℕ → List ℕ
  | 0, _ => []
  | n + 1, seq => seq :: sparseNumbers n (seq + 0x40000001)

/-- The numbers of a sparse recording increase by less than half the range, and its frames have them modulo the
range. -/
theorem sparseNumbers_numbers (n seq : ℕ) :
    (seq :: sparseNumbers n (seq + 0x40000001)).IsChain (fun a b => a < b ∧ b ≤ a + 2 ^ 31) ∧
      (sparse (n + 1) (BitVec.ofNat 32 seq)).map WireFrame.seq =
        (seq :: sparseNumbers n (seq + 0x40000001)).map (BitVec.ofNat 32) := by
  induction n generalizing seq with
  | zero => exact ⟨.singleton _, rfl⟩
  | succ n ih =>
    obtain ⟨hchain, hnumbers⟩ := ih (seq + 0x40000001)
    rw [BitVec.ofNat_add] at hnumbers
    rw [sparseNumbers]
    refine ⟨List.isChain_cons_cons.mpr ⟨⟨by omega, by omega⟩, hchain⟩, ?_⟩
    rw [sparse, List.map_cons, List.map_cons, ← hnumbers]
    rfl

/-- What a sparse recording lacks, and what the vehicle's decoder counts of it. -/
theorem sparse_lost (crc : Bytes → U32) (n : ℕ) : ∃ rest, (0 :: rest).IsChain (fun a b => a < b ∧ b ≤ a + 2 ^ 31) ∧
    (sparse (n + 1) 0).map WireFrame.seq = (0 :: rest).map (BitVec.ofNat 32) ∧
    (0 :: rest).getLast (List.cons_ne_nil 0 rest) - 0 - rest.length = n * 2 ^ 30 ∧
    (decodeStream crc (joined crc (sparse (n + 1) 0))).2.lost = n * 2 ^ 30 % 2 ^ 64 := by
  obtain ⟨hchain, hnumbers⟩ := sparseNumbers_numbers n 0
  obtain ⟨hlost, -⟩ := sparse_gaps n 0
  obtain ⟨hvehicle, -⟩ := decoders_joined crc (sparse (n + 1) 0)
  have hmissing := (lostFrom_unwrapped 0 hchain).1
  rw [← hnumbers, show BitVec.ofNat 32 0 = 0 from rfl, hlost] at hmissing
  refine ⟨_, hchain, hnumbers, by omega, ?_⟩
  rw [hvehicle, hlost]

/-- A recording of `2 ^ 34 + 1` frames lacks `2 ^ 64` of its numbers, and the vehicle's decoder counts none. -/
theorem lost_count_wraps : ∃ (n : ℕ) (rest : List ℕ) (frames : List WireFrame),
    (n :: rest).IsChain (fun a b => a < b ∧ b ≤ a + 2 ^ 31) ∧
      frames.map WireFrame.seq = (n :: rest).map (BitVec.ofNat 32) ∧
      (n :: rest).getLast (List.cons_ne_nil n rest) - n - rest.length = 2 ^ 64 ∧
      (decodeStream crc32c (joined crc32c frames)).2.lost = 0 := by
  obtain ⟨rest, hchain, hnumbers, hmissing, hcount⟩ := sparse_lost crc32c (2 ^ 34)
  exact ⟨0, rest, _, hchain, hnumbers, hmissing.trans (by decide), hcount.trans (by decide)⟩

end Tvc.Telem
