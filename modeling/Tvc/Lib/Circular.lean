import Mathlib.Data.Fin.Basic
import Mathlib.Data.List.Basic
import Mathlib.Data.Nat.ModEq
import Mathlib.Logic.Function.Basic

/-!
# Sequences in a circular store

A store of fixed capacity holds the newest elements of a growing sequence, each in the cell of its
number modulo the capacity. As long as no more elements are kept than there are cells, the cell of
the next element is free: whatever is written there disturbs none of those kept.
-/

namespace Circular

variable {α : Type*} {capacity : ℕ} [NeZero capacity]

/-- The cell of the element with a number. -/
def cell (capacity : ℕ) [NeZero capacity] (n : ℕ) : Fin capacity := Fin.ofNat capacity n

/-- Elements less than a capacity apart have cells of their own. -/
theorem cell_ne {m n : ℕ} (h : m < n) (hnear : n < m + capacity) : cell capacity m ≠ cell capacity n := by
  intro hsame
  have hmod : m % capacity = n % capacity := congrArg Fin.val hsame
  have hdvd : capacity ∣ n - m := (Nat.modEq_iff_dvd' h.le).mp hmod
  have hle := Nat.le_of_dvd (by omega) hdvd
  omega

/-- The cells hold the elements of a sequence from a number on. -/
def Holds (cells : Fin capacity → α) (sequence : List α) (first : ℕ) : Prop :=
  ∀ (n : ℕ) (a : α), first ≤ n → sequence[n]? = some a → cells (cell capacity n) = a

variable {cells : Fin capacity → α} {sequence : List α} {first : ℕ}

/-- The cell of the next element may be written. -/
theorem Holds.write (h : Holds cells sequence first) (hroom : sequence.length < first + capacity) (a : α) :
    Holds (Function.update cells (cell capacity sequence.length) a) sequence first := by
  intro n b hn hb
  have hlt := (List.getElem?_eq_some_iff.mp hb).1
  rw [Function.update_of_ne (cell_ne hlt (by omega))]
  exact h n b hn hb

/-- The sequence grows by the element in the cell of its number. -/
theorem Holds.push (h : Holds cells sequence first) {a : α} (ha : cells (cell capacity sequence.length) = a) :
    Holds cells (sequence ++ [a]) first := by
  intro n b hn hb
  rcases Nat.lt_or_ge n sequence.length with hlt | hge
  · rw [List.getElem?_append_left hlt] at hb
    exact h n b hn hb
  · have hlast : n = sequence.length := by
      have hlt := (List.getElem?_eq_some_iff.mp hb).1
      simp only [List.length_append, List.length_singleton] at hlt
      omega
    subst hlast
    obtain rfl : a = b := by simpa using hb
    exact ha

/-- Fewer elements are held too. -/
theorem Holds.release (h : Holds cells sequence first) {later : ℕ} (hlater : first ≤ later) :
    Holds cells sequence later :=
  fun n a hn ha => h n a (hlater.trans hn) ha

end Circular
