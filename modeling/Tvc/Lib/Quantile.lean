import Mathlib.Algebra.GroupWithZero.Nat
import Mathlib.Data.List.Sort
import Mathlib.Order.Monotone.Basic

/-!
# Order statistics by counting

The values of a list are counted by the bucket that a monotone map gives them. The bucket in which the running count
first reaches a rank is that of the value of this rank in the sorted list, however many values are equal.
-/

namespace Quantile

/-- The first bucket, from one on and among so many, in which the running count reaches the rank. -/
def walk (count : ℕ → ℕ) (rank : ℕ) : ℕ → ℕ → ℕ → Option ℕ
  | 0, _, _ => none
  | fuel + 1, i, total => if rank ≤ total + count i then some i else walk count rank fuel (i + 1) (total + count i)

/-- The running count up to a bucket. -/
def upTo (count : ℕ → ℕ) (i : ℕ) : ℕ := ((List.range i).map count).sum

theorem upTo_succ (count : ℕ → ℕ) (i : ℕ) : upTo count (i + 1) = upTo count i + count i := by
  simp [upTo, List.range_succ]

/-- The walk stops in the one bucket in which the running count reaches the rank. -/
theorem walk_eq {count : ℕ → ℕ} {rank j : ℕ} (hreach : ∀ i, rank ≤ upTo count (i + 1) ↔ j ≤ i) {fuel i : ℕ}
    (hi : i ≤ j) (hj : j < i + fuel) : walk count rank fuel i (upTo count i) = some j := by
  induction fuel generalizing i with
  | zero => omega
  | succ fuel ih =>
    rw [walk, ← upTo_succ]
    by_cases hlast : j ≤ i
    · rw [if_pos ((hreach i).mpr hlast), Nat.le_antisymm hi hlast]
    · rw [if_neg fun hrank => hlast ((hreach i).mp hrank)]
      exact ih (by omega) (by omega)

section Sorted

variable {α : Type} [LinearOrder α]

/-- In a sorted list so many values are no greater than a bound as stand before the first that is. -/
theorem lt_countP_iff {l : List α} (hsorted : l.Pairwise (· ≤ ·)) (t : α) {k : ℕ} {v : α} (hv : l[k]? = some v) :
    k < l.countP (· ≤ t) ↔ v ≤ t := by
  induction l generalizing k with
  | nil => nomatch hv
  | cons a l ih =>
    obtain ⟨hleast, hsorted⟩ := List.pairwise_cons.mp hsorted
    by_cases ha : a ≤ t
    · rw [List.countP_cons_of_pos (by simpa using ha)]
      cases k with
      | zero =>
        obtain rfl := Option.some.inj hv
        exact iff_of_true (Nat.succ_pos _) ha
      | succ k =>
        rw [Nat.succ_lt_succ_iff]
        exact ih hsorted hv
    · have hnone : (a :: l).countP (· ≤ t) = 0 := by
        rw [List.countP_eq_zero]
        intro b hb
        rcases List.mem_cons.mp hb with rfl | hb
        · simpa using ha
        · simpa using lt_of_lt_of_le (not_le.mp ha) (hleast b hb)
      have hlarge : t < v := by
        refine lt_of_lt_of_le (not_le.mp ha) ?_
        cases k with
        | zero => exact (Option.some.inj hv).le
        | succ k => exact hleast v (List.mem_of_getElem? hv)
      rw [hnone]
      exact iff_of_false (Nat.not_lt_zero k) (not_le.mpr hlarge)

/-- The sorted list is sorted. -/
theorem pairwise_sorted (l : List α) : (l.mergeSort (· ≤ ·)).Pairwise (· ≤ ·) := by
  have h : (l.mergeSort (· ≤ ·)).Pairwise fun a b => decide (a ≤ b) = true := List.pairwise_mergeSort
    (fun a b c hab hbc => by simpa using le_trans (of_decide_eq_true hab) (of_decide_eq_true hbc))
    (fun a b => by simpa using le_total a b) l
  exact h.imp fun hle => of_decide_eq_true hle

variable {index : α → ℕ}

omit [LinearOrder α] in
/-- The values up to the next bucket are those up to this one and those of the next. -/
theorem countP_succ (l : List α) (i : ℕ) : (l.countP fun v => index v ≤ i) + (l.countP fun v => index v = i + 1) =
    l.countP fun v => index v ≤ i + 1 := by
  induction l with
  | nil => rfl
  | cons v l ih =>
    have hsplit : ((if index v ≤ i then 1 else 0) + if index v = i + 1 then 1 else 0) =
        if index v ≤ i + 1 then 1 else 0 := by
      split <;> split <;> split <;> omega
    simp only [List.countP_cons, decide_eq_true_eq]
    omega

omit [LinearOrder α] in
/-- The running count of the buckets counts the values up to a bucket. -/
theorem upTo_countP (l : List α) (i : ℕ) :
    upTo (fun i => l.countP fun v => index v = i) (i + 1) = l.countP fun v => index v ≤ i := by
  induction i with
  | zero => simp [upTo]
  | succ i ih => rw [upTo_succ, ih, countP_succ]

/-- The walk over the counts of monotone buckets stops in the bucket of the value of the rank. -/
theorem walk_rank (hmono : Monotone index) (l : List α) {fuel rank : ℕ} (hrank : 0 < rank) {v : α}
    (hv : (l.mergeSort (· ≤ ·))[rank - 1]? = some v) (hfuel : index v < fuel) :
    walk (fun i => l.countP fun v => index v = i) rank fuel 0 0 = some (index v) := by
  refine walk_eq (i := 0) (fun i => ?_) (Nat.zero_le _) (by omega)
  have hsorted : ((l.mergeSort (· ≤ ·)).map index).Pairwise (· ≤ ·) :=
    List.pairwise_map.mpr ((pairwise_sorted l).imp fun h => hmono h)
  have hplace : ((l.mergeSort (· ≤ ·)).map index)[rank - 1]? = some (index v) := by
    rw [List.getElem?_map, hv]
    rfl
  have hcount : (l.countP fun v => index v ≤ i) = ((l.mergeSort (· ≤ ·)).map index).countP (· ≤ i) := by
    rw [List.countP_map]
    exact ((List.mergeSort_perm l _).countP_eq _).symm
  rw [upTo_countP, hcount, ← lt_countP_iff hsorted i hplace]
  omega

end Sorted

end Quantile
