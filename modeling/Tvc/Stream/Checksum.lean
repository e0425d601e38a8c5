import Tvc.Stream.Burst

/-!
# The checksum is CRC-32C

The table of `src/telemetry.cpp` takes in a byte at a time what the bit-by-bit code takes in a bit at a time. The code
is linear but for its initial register and its final mask, which three messages of one length bring back.
-/

namespace Tvc.Telem

/-- Adding bytes adds their bits. -/
theorem byteBits_xor (p q : U8) : byteBits (p ^^^ q) = (byteBits p).zipWith xor (byteBits q) := by
  unfold byteBits
  rw [List.zipWith_map, List.zipWith_self]
  exact List.map_congr_left fun i _ => BitVec.getLsbD_xor

/-- Adding messages of one length adds their bits. -/
theorem serialBits_xor {x y : Bytes} (h : x.length = y.length) :
    serialBits (x.zipWith (· ^^^ ·) y) = (serialBits x).zipWith xor (serialBits y) := by
  induction x generalizing y with
  | nil => rfl
  | cons p x ih =>
    cases y with
    | nil => nomatch h
    | cons q y =>
      show byteBits (p ^^^ q) ++ serialBits (x.zipWith (· ^^^ ·) y) =
        (byteBits p ++ serialBits x).zipWith xor (byteBits q ++ serialBits y)
      rw [byteBits_xor, ih (Nat.succ.inj h), List.zipWith_append (by simp)]

/-- The table computes the bit-by-bit code. -/
theorem crc32c_code (data : Bytes) : crc32c data = Crc.code kCrcPoly 0xFFFFFFFF 0xFFFFFFFF (serialBits data) := by
  rw [crc32c, foldl_crcByte]
  rfl

/-- `crc32c` is the reflected code of the Castagnoli generator, bit by bit, with all ones as initial register and final
mask; and of three messages of one length it adds up. -/
theorem crc32c_castagnoli (data : Bytes) :
    crc32c data = Crc.code 0x82F63B78#32 0xFFFFFFFF 0xFFFFFFFF (serialBits data) ∧
      ∀ a b c : Bytes, a.length = b.length → a.length = c.length →
        crc32c (a.zipWith (· ^^^ ·) (b.zipWith (· ^^^ ·) c)) = crc32c a ^^^ crc32c b ^^^ crc32c c := by
  refine ⟨crc32c_code data, fun a b c hb hc => ?_⟩
  have hinner : a.length = (b.zipWith (· ^^^ ·) c).length := by
    rw [List.length_zipWith, ← hb, ← hc, Nat.min_self]
  rw [crc32c_code, crc32c_code, crc32c_code, crc32c_code, serialBits_xor hinner, serialBits_xor (hb.symm.trans hc),
    Crc.code_xor _ _ _ (by simp [hb]) (by simp [hc]), BitVec.xor_assoc]

end Tvc.Telem
