import Tvc.Lib.ByteStore

/-!
# Blocks without gaps

A fixed layout whose fields leave no gap is a list of widths. Storing blocks of these widths one behind
the other writes their concatenation, whatever the buffer held, and cutting a buffer along the widths
gives the blocks back.
-/

namespace ByteStore

/-- Store blocks one behind the other, from an offset on. -/
def storeAll (buffer : List (BitVec 8)) : ℕ → List (List (BitVec 8)) → List (BitVec 8)
  | _, [] => buffer
  | offset, block :: rest => storeAll (store buffer offset block) (offset + block.length) rest

/-- Cut a buffer along a list of widths, from an offset on. -/
def slices (buffer : List (BitVec 8)) : ℕ → List ℕ → List (List (BitVec 8))
  | _, [] => []
  | offset, width :: rest => load buffer offset width :: slices buffer (offset + width) rest

/-- What a store leaves up to the end of its block. -/
theorem take_store {buffer block : List (BitVec 8)} {offset : ℕ} (h : offset + block.length ≤ buffer.length) :
    (store buffer offset block).take (offset + block.length) = buffer.take offset ++ block := by
  apply List.ext_getElem?
  intro i
  have hoffset : (buffer.take offset).length = offset := by
    rw [List.length_take]
    omega
  rw [List.getElem?_take, store_getElem? h]
  by_cases hfront : i < offset
  · rw [if_pos (by omega), if_neg (by omega), List.getElem?_append_left (by omega), List.getElem?_take_of_lt hfront]
  · rw [List.getElem?_append_right (by omega), hoffset]
    by_cases hinside : i < offset + block.length
    · rw [if_pos hinside, if_pos (by omega)]
    · rw [if_neg hinside, List.getElem?_eq_none (by omega)]

/-- Blocks stored up to the end of a buffer are written as their concatenation. -/
theorem storeAll_eq {buffer : List (BitVec 8)} {offset : ℕ} {blocks : List (List (BitVec 8))}
    (h : offset + blocks.flatten.length = buffer.length) :
    storeAll buffer offset blocks = buffer.take offset ++ blocks.flatten := by
  induction blocks generalizing buffer offset with
  | nil =>
    rw [List.flatten_nil, List.length_nil, Nat.add_zero] at h
    rw [storeAll, List.flatten_nil, List.append_nil, h, List.take_length]
  | cons block blocks ih =>
    rw [List.flatten_cons, List.length_append] at h
    rw [storeAll, ih (by rw [store_length]; omega), take_store (by omega), List.flatten_cons, List.append_assoc]

/-- Blocks that fill a buffer replace it. -/
theorem storeAll_flatten {buffer : List (BitVec 8)} {blocks : List (List (BitVec 8))}
    (h : blocks.flatten.length = buffer.length) : storeAll buffer 0 blocks = blocks.flatten := by
  rw [storeAll_eq (by omega), List.take_zero, List.nil_append]

/-- The slices of a buffer are its bytes. -/
theorem slices_flatten (buffer : List (BitVec 8)) (offset : ℕ) (widths : List ℕ) :
    (slices buffer offset widths).flatten = load buffer offset widths.sum := by
  induction widths generalizing offset with
  | nil => simp [slices, load]
  | cons width widths ih => rw [slices, List.flatten_cons, ih, List.sum_cons, load_add]

/-- The slices of blocks one behind the other are the blocks. -/
theorem slices_append (front : List (BitVec 8)) (blocks : List (List (BitVec 8))) :
    slices (front ++ blocks.flatten) front.length (blocks.map List.length) = blocks := by
  induction blocks generalizing front with
  | nil => rfl
  | cons block blocks ih =>
    have hrest := ih (front ++ block)
    rw [List.append_assoc, List.length_append] at hrest
    have hblock : load (front ++ block ++ blocks.flatten) front.length block.length = block := by
      rw [load_append_left (by simp), load_append_right]
    rw [List.map_cons, slices, List.flatten_cons, hrest, ← List.append_assoc, hblock]

end ByteStore
