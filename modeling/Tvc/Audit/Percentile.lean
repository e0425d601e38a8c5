import Mathlib.Data.Nat.Size
import Mathlib.Tactic.Ring
import Tvc.Freerun.Measurement
import Tvc.Lib.Quantile

/-!
# The recorded percentiles of `scripts/latency.py`

The vehicle counts each latency in a bucket of a histogram and reads a percentile off the counts; the audit sorts the
recorded latencies and takes the bucket of the value of the rank. The buckets are one wide below 2048, and from there on
every next 1024 of them are twice as wide.
-/

namespace Tvc.Latency

/-! ## The audit -/

/-- `shift` of `reported`: the bits below the first eleven. -/
def bucketShift (value : ℕ) : ℕ := value.size - 11

/-- `high` of `reported`. -/
def bucketHigh (value : ℕ) : ℕ := ((value >>> bucketShift value) + 1) * 1 <<< bucketShift value - 1

/-- `ordered[rank-1]`, as it is reported in nanoseconds. -/
def reportedAt (values : List ℕ) (rank : ℕ) : Option ℕ := (values.mergeSort (· ≤ ·))[rank - 1]?.map bucketHigh

/-! ## The histogram -/

/-- The number of buckets up to the highest trackable value. -/
def bucketsTotal : ℕ := 25600

/-- The width of a bucket. -/
def bucketWidth (i : ℕ) : ℕ := if i < 2048 then 1 else 2 ^ (i / 1024 - 1)

/-- The lowest value of a bucket. -/
def bucketLow (i : ℕ) : ℕ := if i < 2048 then i else (1024 + i % 1024) * 2 ^ (i / 1024 - 1)

/-- The values that a bucket counts. -/
def bucketCount (values : List ℕ) (i : ℕ) : ℕ :=
  values.countP fun v => bucketLow i ≤ v ∧ v < bucketLow i + bucketWidth i

/-- The highest value of the first bucket in which the running count reaches the rank. -/
def valueAtRank (values : List ℕ) (rank : ℕ) : Option ℕ :=
  (Quantile.walk (bucketCount values) rank bucketsTotal 0 0).map fun i => bucketLow i + bucketWidth i - 1

/-- The buckets follow each other without a gap. -/
theorem bucketLow_succ (i : ℕ) : bucketLow (i + 1) = bucketLow i + bucketWidth i := by
  unfold bucketLow bucketWidth
  by_cases hsmall : i + 1 < 2048
  · rw [if_pos hsmall, if_pos (by omega), if_pos (by omega)]
  by_cases hlast : i = 2047
  · subst hlast
    rfl
  rw [if_neg hsmall, if_neg (by omega), if_neg (by omega)]
  by_cases hcarry : i % 1024 = 1023
  · have hdiv : (i + 1) / 1024 = i / 1024 + 1 := by omega
    have hpower : 2 ^ (i / 1024 + 1 - 1) = 2 * 2 ^ (i / 1024 - 1) := by
      rw [← pow_succ']
      congr 1
      omega
    rw [hdiv, hpower, hcarry, show (i + 1) % 1024 = 0 by omega]
    ring
  · rw [show (i + 1) / 1024 = i / 1024 by omega, show (i + 1) % 1024 = i % 1024 + 1 by omega]
    ring

/-! ## The bucket of a value -/

/-- The bucket of a value. -/
def bucketOf (value : ℕ) : ℕ := bucketShift value * 1024 + value >>> bucketShift value

/-- The first bits of a value that has more than eleven. -/
theorem leading_bits {v : ℕ} (h : 0 < bucketShift v) : 1024 ≤ v >>> bucketShift v ∧ v >>> bucketShift v < 2048 := by
  unfold bucketShift at h ⊢
  have hlow : 2 ^ (v.size - 1) ≤ v := Nat.lt_size.mp (by omega)
  have hhigh : v < 2 ^ v.size := Nat.lt_size_self v
  rw [Nat.shiftRight_eq_div_pow]
  have hpower : 0 < 2 ^ (v.size - 11) := Nat.two_pow_pos _
  have hfirst : 2 ^ (v.size - 1) = 1024 * 2 ^ (v.size - 11) := by
    rw [show (1024 : ℕ) = 2 ^ 10 by rfl, ← pow_add]
    congr 1
    omega
  have hsecond : 2 ^ v.size = 2048 * 2 ^ (v.size - 11) := by
    rw [show (2048 : ℕ) = 2 ^ 11 by rfl, ← pow_add]
    congr 1
    omega
  exact ⟨(Nat.le_div_iff_mul_le hpower).mpr (hfirst ▸ hlow), (Nat.div_lt_iff_lt_mul hpower).mpr (hsecond ▸ hhigh)⟩

/-- A value of at most eleven bits. -/
theorem lt_of_shift_zero {v : ℕ} (h : bucketShift v = 0) : v < 2048 := by
  have hsize : v.size ≤ 11 := by
    unfold bucketShift at h
    omega
  exact Nat.size_le.mp hsize

/-- The bucket of a value lies among those of its width. -/
theorem bucketOf_lt (v : ℕ) : bucketOf v < (bucketShift v + 2) * 1024 := by
  unfold bucketOf
  by_cases h : 0 < bucketShift v
  · have := leading_bits h
    omega
  · have hzero : bucketShift v = 0 := by omega
    have := lt_of_shift_zero hzero
    rw [hzero, Nat.shiftRight_zero]
    omega

/-- Larger values have later buckets. -/
theorem bucketOf_mono : Monotone bucketOf := by
  intro v w h
  have hsize : bucketShift v ≤ bucketShift w := Nat.sub_le_sub_right (Nat.size_le_size h) 11
  rcases hsize.eq_or_lt with hsame | hless
  · unfold bucketOf
    rw [hsame, Nat.shiftRight_eq_div_pow, Nat.shiftRight_eq_div_pow]
    exact Nat.add_le_add_left (Nat.div_le_div_right h) _
  · have hbefore := bucketOf_lt v
    have hafter := leading_bits (v := w) (by omega)
    unfold bucketOf at hbefore ⊢
    omega

/-- The bucket of a value begins with its first bits, and is as wide as the others. -/
theorem bucket_bounds (v : ℕ) : bucketLow (bucketOf v) = v >>> bucketShift v * 2 ^ bucketShift v ∧
    bucketWidth (bucketOf v) = 2 ^ bucketShift v := by
  unfold bucketLow bucketWidth bucketOf
  by_cases h : 0 < bucketShift v
  · have hbits := leading_bits h
    rw [if_neg (by omega), if_neg (by omega),
      show (bucketShift v * 1024 + v >>> bucketShift v) / 1024 - 1 = bucketShift v by omega,
      show 1024 + (bucketShift v * 1024 + v >>> bucketShift v) % 1024 = v >>> bucketShift v by omega]
    exact ⟨rfl, rfl⟩
  · have hzero : bucketShift v = 0 := by omega
    have hsmall := lt_of_shift_zero hzero
    rw [hzero, Nat.shiftRight_zero, Nat.zero_mul, Nat.zero_add, if_pos hsmall, if_pos hsmall, pow_zero, mul_one]
    exact ⟨rfl, rfl⟩

/-- What lies in a wide bucket has as many more bits than eleven as its width says, and begins as it does. -/
theorem shift_of_bounds {v s m : ℕ} (hs : 0 < s) (hm : 1024 ≤ m ∧ m < 2048) (hlow : m * 2 ^ s ≤ v)
    (hhigh : v < (m + 1) * 2 ^ s) : bucketShift v = s ∧ v >>> s = m := by
  have hfirst : 2 ^ (s + 10) ≤ v := by
    calc 2 ^ (s + 10) = 1024 * 2 ^ s := by rw [pow_add]; ring
      _ ≤ m * 2 ^ s := Nat.mul_le_mul_right _ hm.1
      _ ≤ v := hlow
  have hlast : v < 2 ^ (s + 11) := by
    calc v < (m + 1) * 2 ^ s := hhigh
      _ ≤ 2048 * 2 ^ s := Nat.mul_le_mul_right _ hm.2
      _ = 2 ^ (s + 11) := by rw [pow_add]; ring
  have hsize : v.size = s + 11 := le_antisymm (Nat.size_le.mpr hlast) (Nat.lt_size.mpr hfirst)
  refine ⟨by unfold bucketShift; omega, ?_⟩
  rw [Nat.shiftRight_eq_div_pow]
  exact (Nat.div_eq_iff (Nat.two_pow_pos s)).mpr ⟨hlow, by rw [add_mul, one_mul] at hhigh; omega⟩

/-- A value lies in one bucket, its own. -/
theorem bucketOf_eq_iff (v i : ℕ) : bucketLow i ≤ v ∧ v < bucketLow i + bucketWidth i ↔ bucketOf v = i := by
  constructor
  · rintro ⟨hlow, hhigh⟩
    unfold bucketLow at hlow hhigh
    unfold bucketWidth at hhigh
    by_cases hsmall : i < 2048
    · rw [if_pos hsmall] at hlow hhigh
      rw [if_pos hsmall] at hhigh
      obtain rfl : v = i := by omega
      have hsize : v.size ≤ 11 := Nat.size_le.mpr hsmall
      have hzero : bucketShift v = 0 := by
        unfold bucketShift
        omega
      rw [bucketOf, hzero, Nat.shiftRight_zero, Nat.zero_mul, Nat.zero_add]
    · rw [if_neg hsmall] at hlow hhigh
      rw [if_neg hsmall] at hhigh
      obtain ⟨hshift, hbits⟩ := shift_of_bounds (v := v) (s := i / 1024 - 1) (m := 1024 + i % 1024) (by omega)
        (by omega) hlow (by rw [add_mul, one_mul]; exact hhigh)
      rw [bucketOf, hshift, hbits]
      omega
  · rintro rfl
    obtain ⟨hlow, hwidth⟩ := bucket_bounds v
    rw [hlow, hwidth, Nat.shiftRight_eq_div_pow]
    exact ⟨Nat.div_mul_le_self _ _, Nat.lt_div_mul_add (Nat.two_pow_pos _)⟩

/-- The highest value of the bucket of a value. -/
theorem bucketHigh_eq (v : ℕ) : bucketHigh v = bucketLow (bucketOf v) + bucketWidth (bucketOf v) - 1 := by
  obtain ⟨hlow, hwidth⟩ := bucket_bounds v
  rw [hlow, hwidth, bucketHigh, Nat.one_shiftLeft, add_mul, one_mul]

/-- The values up to the highest trackable one have their buckets. -/
theorem bucketOf_lt_total {v : ℕ} (h : (v : ℤ) ≤ Freerun.kHighest) : bucketOf v < bucketsTotal := by
  have hsize : v.size ≤ 34 := by
    apply Nat.size_le.mpr
    unfold Freerun.kHighest at h
    omega
  have hshift : bucketShift v ≤ 23 := by
    unfold bucketShift
    omega
  have := bucketOf_lt v
  unfold bucketsTotal
  omega

/-- Of recorded latencies in the range of the histogram, the audit reports for every rank the value that the histogram
gives for it. -/
theorem reportedAt_eq_valueAtRank (values : List ℕ) (hrange : ∀ v ∈ values, (v : ℤ) ≤ Freerun.kHighest) (rank : ℕ)
    (hrank : 1 ≤ rank ∧ rank ≤ values.length) :
    ∃ value, reportedAt values rank = some value ∧ valueAtRank values rank = some value := by
  have hplace : rank - 1 < (values.mergeSort (· ≤ ·)).length := by
    rw [List.length_mergeSort]
    omega
  have hv := List.getElem?_eq_getElem hplace
  generalize (values.mergeSort (· ≤ ·))[rank - 1] = v at hv
  have hmem : v ∈ values := List.mem_mergeSort.mp (List.mem_of_getElem? hv)
  have hcounts : bucketCount values = fun i => values.countP fun v => bucketOf v = i :=
    funext fun i => List.countP_congr fun v _ => by simp only [decide_eq_true_eq, bucketOf_eq_iff]
  refine ⟨bucketHigh v, ?_, ?_⟩
  · rw [reportedAt, hv]
    rfl
  · rw [valueAtRank, hcounts, Quantile.walk_rank bucketOf_mono values hrank.1 hv (bucketOf_lt_total (hrange v hmem)),
      bucketHigh_eq]
    rfl

/-- Three latencies, two of them equal. -/
theorem reportedAt_eq_valueAtRank_three : ∃ value, reportedAt [5000, 3, 5000] 2 = some value ∧
    valueAtRank [5000, 3, 5000] 2 = some value :=
  reportedAt_eq_valueAtRank [5000, 3, 5000] (by decide) 2 (by decide)

end Tvc.Latency
