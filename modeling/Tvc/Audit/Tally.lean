import Tvc.Audit.Latency
import Tvc.Freerun.Bookkeeping
import Tvc.Freerun.Receipt

/-!
# The counters of a window and its records

The audit recomputes every counter of a window from the records of the window alone. Both windows of a run
count the same way, so one tally relates the counters of the admission and of the sends to a list of records,
and one more cycle adds one record to the list and the same facts to the counters.
-/

namespace Tvc.Latency

open Freerun (AdmissionCounts Window Link counters)
open Freerun.Admission (refused discarded)
open Wire (Fields FieldName controlDict)

/-! ## Sums over records -/

/-- The sum of a field with one more record. -/
@[simp] theorem total_concat (rows : List Fields) (r : Fields) (name : FieldName) :
    total (rows ++ [r]) name = total rows name + r.int name := by
  simp [total]

/-- A list without its first entries, with one more entry. -/
theorem drop_concat {α : Type} (l : List α) (a : α) (k : ℕ) :
    (l ++ [a]).drop k = l.drop k ++ if k ≤ l.length then [a] else [] := by
  rw [List.drop_append]
  by_cases hk : k ≤ l.length
  · rw [if_pos hk, Nat.sub_eq_zero_of_le hk, List.drop_zero]
  · rw [if_neg hk, List.drop_of_length_le (l := [a]) (by rw [List.length_singleton]; omega)]

/-- The ladder has four rungs. -/
theorem rung_lt (r : Fields) : rung r < 4 := by
  unfold rung
  split
  · decide
  · split
    · decide
    · split <;> decide

/-- Every record is on one rung. -/
theorem ladder_sum (rows : List Fields) :
    ((List.range 4).map fun k => rows.countP fun r => rung r == k).sum = rows.length := by
  have hsum (f : ℕ → ℕ) : ((List.range 4).map f).sum = f 0 + f 1 + f 2 + f 3 := by
    simp [List.range_succ, Nat.add_assoc]
  rw [hsum]
  induction rows with
  | nil => rfl
  | cons r rest ih =>
    have hrung := rung_lt r
    have hcases : rung r = 0 ∨ rung r = 1 ∨ rung r = 2 ∨ rung r = 3 := by omega
    simp only [List.countP_cons, List.length_cons] at ih ⊢
    rcases hcases with h | h | h | h <;> simp [h] <;> omega

/-- The commands of the records that do not end the episode were sent or not. -/
theorem ordinary_sum (rows : List Fields) :
    (rows.countP fun r => !terminated r && sent r) + (rows.countP fun r => !terminated r && !sent r) +
      rows.countP terminated = rows.length := by
  induction rows with
  | nil => rfl
  | cons r rest ih =>
    simp only [List.countP_cons, List.length_cons]
    cases terminated r <;> cases sent r <;> simp <;> omega

/-! ## The tally -/

/-- The record tells what its cycle counted. -/
structure Counts (r : Fields) (c : AdmissionCounts) (k : ℕ) (ends success admitted : Bool) (raw : ℕ) : Prop where
  rung : rung r = k
  fresh : fresh r = admitted
  sent : sent r = success
  served : served r = (admitted && success)
  terminated : terminated r = ends
  consumed : c.consumed = admitted.toNat
  old : r.int .discardedOld = c.old
  superseded : r.int .discardedSuperseded = c.superseded
  other : r.int .discardedOther = c.nonfinite + c.skewExcess
  taken : r.int .rxCount = c.received + refused c + raw

/-- The counters of a window are those of its records. -/
structure Tally (rows : List Fields) (c : AdmissionCounts) (w : Window) (raw : ℕ) : Prop where
  ladder : ∀ k, w.ladder k = rows.countP fun r => Latency.rung r == k
  consumed : c.consumed = rows.countP Latency.fresh
  served : w.served = rows.countP Latency.served
  sent : w.sent = rows.countP fun r => !Latency.terminated r && Latency.sent r
  failed : w.failed = rows.countP fun r => !Latency.terminated r && !Latency.sent r
  old : (c.old : ℤ) = total rows .discardedOld
  superseded : (c.superseded : ℤ) = total rows .discardedSuperseded
  other : (c.nonfinite + c.skewExcess : ℤ) = total rows .discardedOther
  taken : total rows .rxCount = c.received + refused c + raw

/-- A window that has not begun. -/
theorem Tally.nil : Tally [] {} {} 0 := ⟨fun _ => rfl, rfl, rfl, rfl, rfl, rfl, rfl, rfl, rfl⟩

variable {rows : List Fields} {c c' : AdmissionCounts} {w : Window} {raw raw' : ℕ}

/-- One more cycle. -/
theorem Tally.concat (h : Tally rows c w raw) {r : Fields} {k : ℕ} {ends success admitted : Bool}
    (hr : Counts r c' k ends success admitted raw') :
    Tally (rows ++ [r]) (c.add c') (w.record k ends success admitted) (raw + raw') where
  ladder j := by
    simp only [Window.record, List.countP_append, List.countP_singleton, hr.rung, ← h.ladder j]
    by_cases hj : j = k
    · subst hj
      simp
    · simp [Function.update_of_ne hj, Ne.symm hj]
  consumed := by
    simp only [AdmissionCounts.add, h.consumed, hr.consumed, List.countP_append, List.countP_singleton, hr.fresh]
    cases admitted <;> rfl
  served := by
    simp only [Window.record, h.served, List.countP_append, List.countP_singleton, hr.served]
    cases admitted && success <;> rfl
  sent := by
    simp only [Window.record, h.sent, List.countP_append, List.countP_singleton, hr.sent, hr.terminated]
    cases !ends && success <;> rfl
  failed := by
    simp only [Window.record, h.failed, List.countP_append, List.countP_singleton, hr.sent, hr.terminated]
    cases !ends && !success <;> rfl
  old := by rw [total_concat, ← h.old, hr.old]; rfl
  superseded := by rw [total_concat, ← h.superseded, hr.superseded]; rfl
  other := by
    rw [total_concat, ← h.other, hr.other]
    simp only [AdmissionCounts.add]
    omega
  taken := by
    rw [total_concat, h.taken, hr.taken]
    have hrefused := Freerun.Admission.refused_add c c'
    have hreceived : (c.add c').received = c.received + c'.received := rfl
    omega

/-- The ladder of a tallied window adds up to its cycles. -/
theorem Tally.ladder_sum (h : Tally rows c w raw) : (Latency.ladder (counters c w)).sum = rows.length := by
  rw [← Latency.ladder_sum rows]
  simp only [Latency.ladder, counters, h.ladder]
  rfl

/-- The commands of a tallied window, sent or not, are those of its records that do not end the episode. -/
theorem Tally.ordinary_sum (h : Tally rows c w raw) : w.sent + w.failed + rows.countP terminated = rows.length := by
  rw [h.sent, h.failed, Latency.ordinary_sum]

/-- The audit finds a tallied window right. -/
theorem Tally.holds (h : Tally rows c w raw) (name : String) :
    ∀ step ∈ tallySteps name (counters c w) rows raw, Holds step := by
  have hladder : ((List.range 4).map fun k => rows.countP fun r => Latency.rung r == k) =
      Latency.ladder (counters c w) := by
    simp only [Latency.ladder, counters, h.ladder]
    rfl
  simp only [tallySteps, List.forall_mem_cons, holds_check, beq_iff_eq]
  refine ⟨hladder, h.consumed, h.served, h.sent, h.failed, h.old, h.superseded, h.other, h.taken,
    List.forall_mem_nil _⟩

end Tvc.Latency
