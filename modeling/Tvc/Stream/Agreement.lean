import Tvc.Stream.Clean

/-!
# The decoders of the vehicle and of the ground agree

Both frame decoders are run on the same bytes. On a stream they return the same frames and the same
counters, but that the vehicle's count of lost frames wraps at `2 ^ 64` and the Python one does not. On a
datagram they accept the same frame or refuse with the same class of error.
-/

namespace Tvc.Wire

open ByteStore
open Telem (DatagramError DecodeCounters lostFrom jumpsFrom seqsOf decoders_joined)

/-- The class of a refused datagram, as the text of the exception names it. -/
def errorClass : Failure → Option DatagramError
  | .valueError "bad_sync" => some .badSync
  | .valueError "bad_version" => some .badVersion
  | .valueError "bad_type" => some .badType
  | .valueError "bad_length" => some .badLength
  | .valueError "bad_length: truncated datagram" => some .badLength
  | .valueError "bad_crc" => some .badCrc
  | _ => none

/-- The types with a payload size are the types from 1 to 6. -/
theorem payloadSizes_isNone (type : U8) :
    (payloadSizes type.toNat).isNone = (decide (type.toNat < 1) || decide (6 < type.toNat)) := by
  by_cases h : 1 ≤ type.toNat ∧ type.toNat ≤ 6
  · rw [payloadSizes_eq h, Option.isNone_some, eq_comm, Bool.or_eq_false_iff]
    exact ⟨decide_eq_false (by omega), decide_eq_false (by omega)⟩
  · have houtside : payloadSizes type.toNat = none := by
      unfold payloadSizes
      split <;> first | rfl | omega
    rw [houtside, Option.isNone_none, eq_comm, Bool.or_eq_true, decide_eq_true_eq, decide_eq_true_eq]
    omega

/-- Two verdicts on a datagram: the same frame, or the same class of error. -/
def SameVerdict (data : Bytes) (verdict : Except DatagramError Telem.DecodedFrame)
    (verdict' : Except Failure (ℕ × ℕ × Bytes)) : Prop :=
  match verdict with
  | .ok frame => verdict' = .ok (tupleOf data frame)
  | .error why => ∃ failure, verdict' = .error failure ∧ errorClass failure = some why

/-- A check both decoders make. -/
theorem SameVerdict.check {data : Bytes} {verdict : Except DatagramError Telem.DecodedFrame}
    {verdict' : Except Failure (ℕ × ℕ × Bytes)} {why : DatagramError} {failure : Failure} {c c' : Prop}
    [Decidable c] [Decidable c'] (hsame : c ↔ c') (hclass : errorClass failure = some why)
    (hrest : ¬c → SameVerdict data verdict verdict') :
    SameVerdict data (if c then .error why else verdict) (if c' then .error failure else verdict') := by
  by_cases h : c
  · rw [if_pos h, if_pos (hsame.mp h)]
    exact ⟨failure, rfl, hclass⟩
  · rw [if_neg h, if_neg (mt hsame.mpr h)]
    exact hrest h

/-- A datagram is accepted by both decoders or refused by both for the same reason. -/
theorem decodeDatagram_agrees (data : Bytes) (types : List U8) :
    SameVerdict data (Telem.decodeDatagram data types) (decodeDatagram data (types.map BitVec.toNat)) := by
  have hne {n width : ℕ} (hwidth : n = 8 * width) (o m : ℕ) (b : BitVec n) (ho : o + width ≤ data.length)
      (hm : m = b.toNat) : getLe n width data o != b ↔ decodeLe (load data o width) != m := by
    rw [bne_iff_ne, bne_iff_ne, ne_eq, ne_eq, ← BitVec.toNat_inj, getLe_toNat hwidth ho, hm]
  have hmember (type : U8) : (types.map BitVec.toNat).contains type.toNat = types.contains type := by
    rw [Bool.eq_iff_iff, List.contains_iff_mem, List.contains_iff_mem, List.mem_map]
    exact ⟨fun ⟨_, hmem, heq⟩ => BitVec.eq_of_toNat_eq heq ▸ hmem, fun hmem => ⟨type, hmem, rfl⟩⟩
  rw [Telem.decodeDatagram, decodeDatagram]
  refine .check Iff.rfl rfl fun hlong => ?_
  have hlong : 14 ≤ data.length := Nat.le_of_not_lt hlong
  have htype : decodeLe (load data 3 1) = (Telem.getU8 data 3).toNat := (getLe_toNat (by omega) (by omega)).symm
  have hlength : decodeLe (load data 4 2) = (Telem.getU16Le data 4).toNat := (getLe_toNat (by omega) (by omega)).symm
  have hseq : decodeLe (load data 6 4) = (Telem.getU32Le data 6).toNat := (getLe_toNat (by omega) (by omega)).symm
  simp only [htype, hlength, hseq, hmember, payloadSizes_isNone]
  generalize (Telem.getU16Le data 4).toNat = size
  refine .check (hne rfl 0 _ _ (by omega) rfl) rfl fun _ => .check (hne rfl 2 _ _ (by omega) rfl) rfl fun _ =>
    .check Iff.rfl rfl fun hknown => ?_
  simp only [Bool.or_eq_true, decide_eq_true_eq, not_or] at hknown
  rw [payloadSizes_eq (by omega)]
  refine .check ?_ rfl fun hsize => ?_
  · have htotal : Telem.kFrameOverhead + size = 10 + size + 4 := by
      simp only [Telem.kFrameOverhead]
      omega
    simp only [Bool.or_eq_true, bne_iff_ne, ne_eq, Option.some.injEq, eq_comm (a := size), htotal]
  · simp only [Bool.or_eq_true, bne_iff_ne, ne_eq, not_or, not_not, Telem.kFrameOverhead] at hsize
    have hcovered : data.length - 6 = 8 + size := by omega
    have hpayload : data.length - 14 = size := by omega
    rw [hcovered, hpayload]
    exact .check (hne rfl _ _ _ (by omega) rfl) rfl fun _ => rfl

/-- The counters and the frames of the two stream decoders. -/
theorem decodeStream_agrees (crc : Bytes → U32) (data : Bytes) :
    (decodeStream crc data).1 = (Telem.decodeStream crc data).1.map (tupleOf data) ∧
      (Telem.decodeStream crc data).2 =
        { (decodeStream crc data).2 with lost := (decodeStream crc data).2.lost % 2 ^ 64 } ∧
      (data.length < 14 * 2 ^ 33 → (decodeStream crc data).2.lost < 2 ^ 64) := by
  obtain ⟨events, hscan⟩ := Telem.scan_lookAt crc data
  have hvehicle := Telem.decodeStream_eq hscan
  have hground := decodeStream_eq hscan
  rw [hvehicle] at hground ⊢
  rw [hground]
  refine ⟨rfl, rfl, fun hshort => ?_⟩
  have hlost := Telem.lostFrom_le none (seqsOf (Telem.framesOf events))
  have hcount := Telem.framesOf_length_le hscan
  simp only [seqsOf, List.length_map] at hlost
  simp only [seqsOf]
  omega

/-- The vehicle's decoders and those of the ground tools agree on every input, but that the vehicle counts the
lost frames modulo `2 ^ 64`; no buffer shorter than `14 * 2 ^ 33` bytes has that many. -/
theorem decoders_agree :
    (∀ data : Bytes,
      (decodeStream Telem.crc32c data).1 = (Telem.decodeStream Telem.crc32c data).1.map (tupleOf data) ∧
        (Telem.decodeStream Telem.crc32c data).2 =
          { (decodeStream Telem.crc32c data).2 with lost := (decodeStream Telem.crc32c data).2.lost % 2 ^ 64 } ∧
        (data.length < 14 * 2 ^ 33 →
          (Telem.decodeStream Telem.crc32c data).2 = (decodeStream Telem.crc32c data).2)) ∧
      ∀ (data : Bytes) (types : List U8),
        SameVerdict data (Telem.decodeDatagram data types) (decodeDatagram data (types.map BitVec.toNat)) := by
  refine ⟨fun data => ?_, decodeDatagram_agrees⟩
  obtain ⟨hframes, hctr, hlost⟩ := decodeStream_agrees Telem.crc32c data
  refine ⟨hframes, hctr, fun hshort => ?_⟩
  rw [hctr, Nat.mod_eq_of_lt (hlost hshort)]

/-- The counters of the lost frames differ on a recording of `2 ^ 34 + 1` frames with `2 ^ 30` missing before each
but the first. -/
theorem lost_counters_differ :
    (Telem.decodeStream Telem.crc32c (Telem.joined Telem.crc32c (Telem.sparse (2 ^ 34 + 1) 0))).2.lost = 0 ∧
      (decodeStream Telem.crc32c (Telem.joined Telem.crc32c (Telem.sparse (2 ^ 34 + 1) 0))).2.lost = 2 ^ 64 := by
  obtain ⟨hlost, -⟩ := Telem.sparse_gaps (2 ^ 34) 0
  obtain ⟨hvehicle, hground⟩ := decoders_joined Telem.crc32c (Telem.sparse (2 ^ 34 + 1) 0)
  rw [hvehicle, hground, hlost]
  exact ⟨by decide, by decide⟩

end Tvc.Wire
