import Mathlib.Data.List.Basic
import Mathlib.Tactic.Ring
import Mathlib.Tactic.NormNum

/-!
# Little-endian scalars and fixed-offset byte stores

A scalar of a given width is its list of bytes, least significant first. A store writes a
block of bytes at an offset of a buffer and changes nothing else; a load reads a block back.
The two composition rules below, reading the block just written and reading beside it, are
all a fixed-offset codec needs: its fields are disjoint blocks of one buffer.
-/

namespace ByteStore

/-- The `width` low bytes of a natural number, least significant first. -/
def encodeLe : (width : ℕ) → ℕ → List (BitVec 8)
  | 0, _ => []
  | width + 1, value => BitVec.ofNat 8 value :: encodeLe width (value / 256)

/-- The natural number written by a list of bytes, least significant first. -/
def decodeLe : List (BitVec 8) → ℕ
  | [] => 0
  | byte :: rest => byte.toNat + 256 * decodeLe rest

/-- A scalar occupies exactly its declared width. -/
@[simp] theorem encodeLe_length (width value : ℕ) : (encodeLe width value).length = width := by
  induction width generalizing value with
  | zero => rfl
  | succ width ih => simp [encodeLe, ih]

/-- The bytes of a scalar, one by one. -/
theorem encodeLe_getElem? (width value i : ℕ) :
    (encodeLe width value)[i]? = if i < width then some (BitVec.ofNat 8 (value / 256 ^ i)) else none := by
  induction width generalizing value i with
  | zero => simp [encodeLe]
  | succ width ih =>
    cases i with
    | zero => simp [encodeLe]
    | succ i =>
      rw [encodeLe, List.getElem?_cons_succ, ih, pow_succ, mul_comm, ← Nat.div_div_eq_div_mul]
      simp

/-- Reading the bytes of a scalar returns it modulo the width. -/
theorem decodeLe_encodeLe (width value : ℕ) :
    decodeLe (encodeLe width value) = value % 256 ^ width := by
  induction width generalizing value with
  | zero => simp [encodeLe, decodeLe, Nat.mod_one]
  | succ width ih =>
    have hbyte : (BitVec.ofNat 8 value).toNat = value % 256 := by simp
    rw [encodeLe, decodeLe, ih, hbyte, pow_succ, mul_comm (256 ^ width), Nat.mod_mul]

/-- A scalar that fits its width survives the round trip. -/
theorem decodeLe_encodeLe_of_lt {width value : ℕ} (h : value < 256 ^ width) :
    decodeLe (encodeLe width value) = value := by
  rw [decodeLe_encodeLe, Nat.mod_eq_of_lt h]

/-- A list of bytes denotes a number below the bound of its length. -/
theorem decodeLe_lt (bytes : List (BitVec 8)) : decodeLe bytes < 256 ^ bytes.length := by
  induction bytes with
  | nil => simp [decodeLe]
  | cons byte rest ih =>
    have hbyte : byte.toNat < 256 := byte.isLt
    rw [decodeLe, List.length_cons, pow_succ]
    omega

/-- Writing back the number that a list of bytes denotes returns the bytes. -/
theorem encodeLe_decodeLe (bytes : List (BitVec 8)) : encodeLe bytes.length (decodeLe bytes) = bytes := by
  induction bytes with
  | nil => rfl
  | cons byte rest ih =>
    have hbyte : byte.toNat < 256 := byte.isLt
    have hdiv : (byte.toNat + 256 * decodeLe rest) / 256 = decodeLe rest := by omega
    have hhead : BitVec.ofNat 8 (byte.toNat + 256 * decodeLe rest) = byte := by
      apply BitVec.eq_of_toNat_eq
      simp only [BitVec.toNat_ofNat]
      omega
    rw [decodeLe, List.length_cons, encodeLe, hdiv, ih, hhead]

/-- Read `width` bytes at an offset. -/
def load (buffer : List (BitVec 8)) (offset width : ℕ) : List (BitVec 8) :=
  (buffer.drop offset).take width

/-- Overwrite the bytes at an offset; bytes past the end of the buffer are not written. -/
def store (buffer : List (BitVec 8)) (offset : ℕ) (block : List (BitVec 8)) : List (BitVec 8) :=
  buffer.mapIdx fun i byte => if offset ≤ i then block[i - offset]?.getD byte else byte

/-- A store keeps the length of the buffer. -/
@[simp] theorem store_length (buffer block : List (BitVec 8)) (offset : ℕ) :
    (store buffer offset block).length = buffer.length := by
  simp [store]

/-- The byte at each position after a store inside the buffer. -/
theorem store_getElem? {buffer block : List (BitVec 8)} {offset : ℕ}
    (h : offset + block.length ≤ buffer.length) (i : ℕ) :
    (store buffer offset block)[i]? =
      if offset ≤ i ∧ i < offset + block.length then block[i - offset]? else buffer[i]? := by
  rw [store, List.getElem?_mapIdx]
  by_cases hi : offset ≤ i ∧ i < offset + block.length
  · rw [if_pos hi, List.getElem?_eq_getElem (by omega : i < buffer.length),
      List.getElem?_eq_getElem (by omega : i - offset < block.length)]
    simp [hi.1]
  · rw [if_neg hi]
    cases buffer[i]? with
    | none => rfl
    | some byte =>
      by_cases hle : offset ≤ i
      · simp [hle, List.getElem?_eq_none (by omega : block.length ≤ i - offset)]
      · simp [hle]

/-- The byte at each position of a loaded block. -/
theorem load_getElem? (buffer : List (BitVec 8)) (offset width i : ℕ) :
    (load buffer offset width)[i]? = if i < width then buffer[offset + i]? else none := by
  unfold load
  split
  · rw [List.getElem?_take_of_lt (by assumption), List.getElem?_drop]
  · rw [List.getElem?_eq_none]
    rw [List.length_take]
    omega

/-- A load inside the buffer has the requested length. -/
theorem load_length {buffer : List (BitVec 8)} {offset width : ℕ}
    (h : offset + width ≤ buffer.length) : (load buffer offset width).length = width := by
  simp only [load, List.length_take, List.length_drop]
  omega

/-- A load of a part of a loaded block. -/
theorem load_load {buffer : List (BitVec 8)} {offset width inner part : ℕ} (h : inner + part ≤ width) :
    load (load buffer offset width) inner part = load buffer (offset + inner) part := by
  apply List.ext_getElem?
  intro i
  simp only [load_getElem?]
  by_cases hi : i < part
  · rw [if_pos hi, if_pos hi, if_pos (by omega), Nat.add_assoc]
  · rw [if_neg hi, if_neg hi]

/-- Two adjacent blocks are loaded as one. -/
theorem load_add (buffer : List (BitVec 8)) (offset first second : ℕ) :
    load buffer offset (first + second) = load buffer offset first ++ load buffer (offset + first) second := by
  rw [load, load, load, List.take_add, List.drop_drop]

/-- The whole buffer as one block. -/
theorem load_all (buffer : List (BitVec 8)) : load buffer 0 buffer.length = buffer := by
  rw [load, List.drop_zero, List.take_length]

/-- Reading the block just written returns it. -/
theorem load_store_same {buffer block : List (BitVec 8)} {offset width : ℕ}
    (h : offset + block.length ≤ buffer.length) (hwidth : width = block.length) :
    load (store buffer offset block) offset width = block := by
  subst hwidth
  apply List.ext_getElem?
  intro i
  rw [load_getElem?, store_getElem? h]
  by_cases hi : i < block.length
  · rw [if_pos hi, if_pos (by omega), Nat.add_sub_cancel_left]
  · rw [if_neg hi, List.getElem?_eq_none (by omega)]

/-- A store leaves every disjoint block as it was. -/
theorem load_store_of_disjoint {buffer block : List (BitVec 8)} {offset other width : ℕ}
    (hdisjoint : other + width ≤ offset ∨ offset + block.length ≤ other) :
    load (store buffer offset block) other width = load buffer other width := by
  apply List.ext_getElem?
  intro i
  simp only [load_getElem?]
  by_cases hi : i < width
  · rw [if_pos hi, if_pos hi, store, List.getElem?_mapIdx]
    cases buffer[other + i]? with
    | none => rfl
    | some byte =>
      by_cases hle : offset ≤ other + i
      · have hout : block.length ≤ other + i - offset := by omega
        simp [hle, List.getElem?_eq_none hout]
      · simp [hle]
  · rw [if_neg hi, if_neg hi]

/-- A block that ends a concatenation is loaded back whole. -/
theorem load_append_right (front block : List (BitVec 8)) :
    load (front ++ block) front.length block.length = block := by
  simp [load]

/-- A load that ends before an appended tail does not see it. -/
theorem load_append_left {front tail : List (BitVec 8)} {offset width : ℕ}
    (h : offset + width ≤ front.length) :
    load (front ++ tail) offset width = load front offset width := by
  apply List.ext_getElem?
  intro i
  simp only [load_getElem?]
  split
  · rw [List.getElem?_append_left (by omega)]
  · rfl

/-- Write a scalar of `width` bytes at an offset. -/
def putLe {n : ℕ} (width : ℕ) (p : List (BitVec 8)) (o : ℕ) (v : BitVec n) : List (BitVec 8) :=
  store p o (encodeLe width v.toNat)

/-- Read a scalar of `width` bytes at an offset. -/
def getLe (n width : ℕ) (p : List (BitVec 8)) (o : ℕ) : BitVec n :=
  BitVec.ofNat n (decodeLe (load p o width))

/-- Writing a scalar keeps the buffer's length. -/
@[simp] theorem putLe_length {n : ℕ} (width : ℕ) (p : List (BitVec 8)) (o : ℕ) (v : BitVec n) :
    (putLe width p o v).length = p.length := store_length _ _ _

/-- The eight-bit bytes of a word of that width denote the word. -/
theorem ofNat_decodeLe_encodeLe {n width : ℕ} (hwidth : n = 8 * width) (v : BitVec n) :
    BitVec.ofNat n (decodeLe (encodeLe width v.toNat)) = v := by
  have hv : v.toNat < 256 ^ width := by
    have hpow : (2 : ℕ) ^ n = 256 ^ width := by rw [hwidth, pow_mul]; norm_num
    exact hpow ▸ v.isLt
  rw [decodeLe_encodeLe_of_lt hv, BitVec.ofNat_toNat, BitVec.setWidth_eq]

/-- A word is told by its bytes. -/
theorem encodeLe_toNat_inj {n width : ℕ} (hwidth : n = 8 * width) {v v' : BitVec n} :
    encodeLe width v.toNat = encodeLe width v'.toNat ↔ v = v' := by
  refine ⟨fun h => ?_, fun h => h ▸ rfl⟩
  rw [← ofNat_decodeLe_encodeLe hwidth v, h, ofNat_decodeLe_encodeLe hwidth v']

/-- Reading a scalar where it was written returns it. -/
theorem getLe_putLe_same {n width : ℕ} (p : List (BitVec 8)) (o : ℕ) (v : BitVec n)
    (hwidth : n = 8 * width) (h : o + width ≤ p.length) :
    getLe n width (putLe width p o v) o = v := by
  rw [getLe, putLe, load_store_same (by simpa using h) (by simp), ofNat_decodeLe_encodeLe hwidth]

/-- Writing a scalar leaves the scalars beside it. -/
theorem getLe_putLe_of_disjoint {n m width other : ℕ} (p : List (BitVec 8)) (o i : ℕ) (v : BitVec m)
    (h : i + other ≤ o ∨ o + width ≤ i) :
    getLe n other (putLe width p o v) i = getLe n other p i := by
  rw [getLe, putLe, load_store_of_disjoint (by simpa using h), getLe]

/-- A scalar is read back from wherever its bytes lie. -/
theorem getLe_of_load {n width o : ℕ} {p : List (BitVec 8)} {v : BitVec n} (hwidth : n = 8 * width)
    (h : load p o width = encodeLe width v.toNat) : getLe n width p o = v := by
  rw [getLe, h, ofNat_decodeLe_encodeLe hwidth]

/-- A scalar that lies inside the buffer denotes the number its bytes write. -/
theorem getLe_toNat {n width o : ℕ} {p : List (BitVec 8)} (hwidth : n = 8 * width)
    (h : o + width ≤ p.length) : (getLe n width p o).toNat = decodeLe (load p o width) := by
  have hlt := decodeLe_lt (load p o width)
  have hpow : (2 : ℕ) ^ n = 256 ^ width := by rw [hwidth, pow_mul]; norm_num
  rw [load_length h] at hlt
  rw [getLe, BitVec.toNat_ofNat, hpow, Nat.mod_eq_of_lt hlt]

/-- A block inside the buffer is the bytes of the scalar that is read there. -/
theorem load_eq_encodeLe {n width o : ℕ} {p : List (BitVec 8)} (hwidth : n = 8 * width)
    (h : o + width ≤ p.length) : load p o width = encodeLe width (getLe n width p o).toNat := by
  have hblock := encodeLe_decodeLe (load p o width)
  rw [load_length h] at hblock
  rw [getLe_toNat hwidth h, hblock]

/-- A scalar read in a loaded block. -/
theorem getLe_load {n part offset width inner : ℕ} (p : List (BitVec 8)) (h : inner + part ≤ width) :
    getLe n part (load p offset width) inner = getLe n part p (offset + inner) := by
  rw [getLe, getLe, load_load h]

end ByteStore
