import Tvc.Freerun.Process

/-!
# The measurements of `src/loop_stats.cpp` and the summary of a free run

The scheduled cycles record intervals in four distributions and the wake-ups in the loop statistics. Of a
histogram only the values that it takes matter here: `hdr` says which ones `hdr_record_value` accepts. The
summary holds the fields that the measurement audit reads.
-/

namespace Tvc.Freerun

/-- `kHighest`: the histograms are made for values up to 10 s. -/
def kHighest : ℤ := 10 * 1000 * 1000 * 1000

/-- `Distribution`, without its histogram. -/
structure Distribution where
  count : ℕ := 0
  dropped : ℕ := 0
  sum : ℕ := 0
  deriving DecidableEq, Repr

/-- `Distribution::record_interval`. -/
def Distribution.recordInterval (hdr : ℤ → Bool) (d : Distribution) (start finish : ℤ) : Distribution :=
  let d := { d with count := d.count + 1 }
  if start < 0 || finish < start then { d with dropped := d.dropped + 1 }
  else
    let ns := finish - start
    if kHighest < ns || !hdr ns || UINT64_MAX - d.sum < ns.toNat then { d with dropped := d.dropped + 1 }
    else { d with sum := d.sum + ns.toNat }

/-- A distribution of intervals, as the runtime collects them. -/
def distribution (hdr : ℤ → Bool) (intervals : List (U64 × U64)) : Distribution :=
  intervals.foldl (fun d i => d.recordInterval hdr i.1.toInt i.2.toInt) {}

/-- `LoopStats`: the calls of `record`, the values that a histogram could not take, and the totals of the
histograms of jitter and execution. -/
structure LoopStats where
  recorded : ℕ := 0
  dropped : ℕ := 0
  jitterCount : ℕ := 0
  execCount : ℕ := 0
  deriving DecidableEq, Repr

/-- The floor of a value: the histograms hold no negatives. -/
def clamped (ns : ℤ) : ℤ := if ns < 1 then 1 else ns

/-- `LoopStats::record`. -/
def LoopStats.record (hdr : ℤ → Bool) (s : LoopStats) (jitter naive exec : ℤ) : LoopStats where
  recorded := s.recorded + 1
  dropped :=
    s.dropped + (!hdr (clamped jitter)).toNat + (!hdr (clamped naive)).toNat + (!hdr (clamped exec)).toNat
  jitterCount := s.jitterCount + (hdr (clamped jitter)).toNat
  execCount := s.execCount + (hdr (clamped exec)).toNat

/-- The loop statistics of a list of wake-ups. -/
def loopStats (hdr : ℤ → Bool) (wakeups : List (ℤ × ℤ × ℤ)) : LoopStats :=
  wakeups.foldl (fun s w => s.record hdr w.1 w.2.1 w.2.2) {}

/-- What `counters` writes. -/
structure Link where
  received : ℕ
  consumed : ℕ
  discardedOld : ℕ
  discardedSuperseded : ℕ
  discardedNonfinite : ℕ
  discardedSkewExcess : ℕ
  discardedDuplicate : ℕ
  discardedTickConflict : ℕ
  discardedInvalid : ℕ
  futureExpired : ℕ
  badSync : ℕ
  badVersion : ℕ
  badType : ℕ
  badLength : ℕ
  badCrc : ℕ
  fresh : ℕ
  coast : ℕ
  neutral : ℕ
  lost : ℕ
  actuatorTransmitted : ℕ
  actuatorTxFail : ℕ
  served : ℕ
  deriving DecidableEq, Repr

/-- `counters`. -/
def counters (c : AdmissionCounts) (window : Window) : Link where
  received := c.received
  consumed := c.consumed
  discardedOld := c.old
  discardedSuperseded := c.superseded
  discardedNonfinite := c.nonfinite
  discardedSkewExcess := c.skewExcess
  discardedDuplicate := c.duplicate
  discardedTickConflict := c.conflict
  discardedInvalid := c.invalid
  futureExpired := c.futureExpired
  badSync := c.badSync
  badVersion := c.badVersion
  badType := c.badType
  badLength := c.badLength
  badCrc := c.badCrc
  fresh := window.ladder 0
  coast := window.ladder 1
  neutral := window.ladder 2
  lost := window.ladder 3
  actuatorTransmitted := window.sent
  actuatorTxFail := window.failed
  served := window.served

/-- `telemetry` of the summary: what the drain wrote, and what the ring could not take. -/
structure TelemetrySummary where
  records : ℕ
  dropped : ℕ
  deriving DecidableEq, Repr

/-- `events` of the summary. -/
structure EventSummary where
  episodeTransitions : ℕ
  recordAttempts : ℕ
  recordsPushed : ℕ
  deriving DecidableEq, Repr

/-- `terminal` of the summary. -/
structure TerminalSummary where
  cycle : ℕ
  downAttempts : ℕ
  downTransmitted : ℕ
  downTxFail : ℕ
  firstTxOk : Option Bool
  upReceivedRaw : ℕ
  upReceivedRawRecorded : ℕ
  deriving DecidableEq, Repr

/-- `actuator` of the summary. -/
structure ActuatorSummary where
  generated : ℕ
  transmitted : ℕ
  txFail : ℕ
  deriving DecidableEq, Repr

/-- The summary of a free run, as far as the measurement audit reads it. -/
structure Summary where
  mode : String
  totalCycles : ℕ
  warmup : ℕ
  cycles : ℕ
  telemetry : TelemetrySummary
  events : EventSummary
  link : Link
  linkRecorded : Link
  futureParkedAtEnd : ℕ
  futureParkedAtWarmup : Option ℕ
  terminal : TerminalSummary
  actuator : ActuatorSummary
  tickBase : ℕ
  originNs : ℤ
  latency : Distribution
  uplinkWait : Distribution
  vehicleCompute : Distribution
  discardAge : Distribution
  jitterCount : ℕ
  execCount : ℕ
  droppedSamples : ℕ
  deriving DecidableEq, Repr

/-- The summary that `run` writes of a runtime and the wake-ups of its cycles. -/
def Runtime.summary (r : Runtime) (hdr : ℤ → Bool) (warmup : ℕ) (wakeups : List (ℤ × ℤ × ℤ))
    (telemetry : TelemetrySummary) : Summary where
  mode := "freerun"
  totalCycles := r.cycles
  warmup
  cycles := (loopStats hdr wakeups).recorded
  telemetry
  events := ⟨r.cycles, r.cycles, r.pushed⟩
  link := counters r.admission.episode r.episodeWindow
  linkRecorded := counters r.admission.recorded r.recordedWindow
  futureParkedAtEnd := r.admission.futureParked
  futureParkedAtWarmup := r.admission.warmupOccupancy
  terminal :=
    { cycle := r.terminalCycle
      downAttempts := r.termAttempts
      downTransmitted := r.termSent
      downTxFail := r.termFailed
      firstTxOk := if r.terminalCycle != 0 then some r.firstTerminalTxOk else none
      upReceivedRaw := r.admission.terminalCounts.receivedRaw
      upReceivedRawRecorded := r.terminalReceivedRecorded }
  actuator := ⟨r.cycles - r.terminalCycle, r.normalSent, r.normalFailed⟩
  tickBase := r.tickBase
  originNs := r.origin
  latency := distribution hdr r.served
  uplinkWait := distribution hdr r.uplinkWait
  vehicleCompute := distribution hdr r.compute
  discardAge := distribution hdr r.discarded
  jitterCount := (loopStats hdr wakeups).jitterCount
  execCount := (loopStats hdr wakeups).execCount
  droppedSamples := (loopStats hdr wakeups).dropped

namespace Environment

variable {w : ℕ} {β : Type} [Arith F64]

/-- The wake-ups of the recorded cycles. -/
def wakeups (env : Environment w β) (cfg : RunConfig) : List (ℤ × ℤ × ℤ) :=
  ((env.origin cfg).map fun o => (env.loop cfg o).wakeups).getD []

/-- The summary of a process. -/
def summary (env : Environment w β) (hdr : ℤ → Bool) (cfg : RunConfig) (telemetry : TelemetrySummary) : Summary :=
  (env.runtime cfg).summary hdr cfg.warmup (env.wakeups cfg) telemetry

end Environment

/-! ## Intervals and wake-ups that fit -/

/-- The length of an interval. -/
def span (i : U64 × U64) : ℤ := i.2.toInt - i.1.toInt

/-- The interval begins at no negative time, and ends no earlier. -/
def Forward (i : U64 × U64) : Prop := 0 ≤ i.1.toInt ∧ i.1.toInt ≤ i.2.toInt

/-- Every histogram takes 0 and the values up to 10 s. -/
def Covers (hdr : ℤ → Bool) : Prop := ∀ ns, 0 ≤ ns → ns ≤ kHighest → hdr ns = true

/-- The wake-up's jitter, naive jitter and execution time are in the range of the histograms. -/
def WakeupFits (wakeup : ℤ × ℤ × ℤ) : Prop :=
  wakeup.1 ≤ kHighest ∧ wakeup.2.1 ≤ kHighest ∧ wakeup.2.2 ≤ kHighest

variable {hdr : ℤ → Bool}

/-- Forward intervals that fit, and whose sum fits 64 bits, are all taken. -/
theorem distribution_of_fits (hhdr : Covers hdr) {intervals : List (U64 × U64)}
    (hforward : ∀ i ∈ intervals, Forward i) (hrange : ∀ i ∈ intervals, span i ≤ kHighest)
    (htotal : (intervals.map span).sum ≤ UINT64_MAX) :
    (distribution hdr intervals).count = intervals.length ∧ (distribution hdr intervals).dropped = 0 ∧
      ((distribution hdr intervals).sum : ℤ) = (intervals.map span).sum := by
  induction intervals using List.reverseRecOn with
  | nil => exact ⟨rfl, rfl, rfl⟩
  | append_singleton before i ih =>
    have hbegin := hforward i (by simp)
    have hlength := hrange i (by simp)
    rw [List.map_append, List.sum_append, List.map_singleton, List.sum_singleton] at htotal ⊢
    have hspan : 0 ≤ span i := by unfold span; have := hbegin.2; omega
    obtain ⟨hcount, hdropped, hsum⟩ := ih (fun j hj => hforward j (List.mem_append_left _ hj))
      (fun j hj => hrange j (List.mem_append_left _ hj)) (by omega)
    have hstep : distribution hdr (before ++ [i]) =
        (distribution hdr before).recordInterval hdr i.1.toInt i.2.toInt := by
      rw [distribution, List.foldl_append]
      rfl
    have hstart : (decide (i.1.toInt < 0) || decide (i.2.toInt < i.1.toInt)) = false := by
      have := hbegin.1
      have := hbegin.2
      simp only [Bool.or_eq_false_iff, decide_eq_false_iff_not, not_lt]
      omega
    have htaken : (decide (kHighest < i.2.toInt - i.1.toInt) || !hdr (i.2.toInt - i.1.toInt) ||
        decide (UINT64_MAX - (distribution hdr before).sum < (i.2.toInt - i.1.toInt).toNat)) = false := by
      unfold span at hspan hlength htotal hsum
      have hhigh : ¬kHighest < i.2.toInt - i.1.toInt := not_lt.mpr hlength
      have hroom : ¬UINT64_MAX - (distribution hdr before).sum < (i.2.toInt - i.1.toInt).toNat := by omega
      rw [hhdr _ hspan hlength, decide_eq_false hhigh, decide_eq_false hroom]
      rfl
    rw [hstep, Distribution.recordInterval]
    dsimp only
    rw [hstart, if_neg Bool.false_ne_true, htaken, if_neg Bool.false_ne_true]
    refine ⟨?_, hdropped, ?_⟩
    · rw [hcount, List.length_append, List.length_singleton]
    · rw [Nat.cast_add, hsum]
      exact congrArg (_ + ·) (Int.toNat_of_nonneg hspan)

/-- Intervals that were all taken have a sum that fits 64 bits. -/
theorem distribution_total (hdr : ℤ → Bool) {intervals : List (U64 × U64)}
    (hnone : (distribution hdr intervals).dropped = 0) :
    ((distribution hdr intervals).sum : ℤ) = (intervals.map span).sum ∧ (intervals.map span).sum ≤ UINT64_MAX := by
  induction intervals using List.reverseRecOn with
  | nil => exact ⟨rfl, by decide⟩
  | append_singleton before i ih =>
    have hstep : distribution hdr (before ++ [i]) =
        (distribution hdr before).recordInterval hdr i.1.toInt i.2.toInt := by
      rw [distribution, List.foldl_append]
      rfl
    rw [hstep] at hnone ⊢
    rw [List.map_append, List.sum_append, List.map_singleton, List.sum_singleton]
    unfold Distribution.recordInterval at hnone ⊢
    dsimp only at hnone ⊢
    split at hnone
    · exact absurd hnone (Nat.succ_ne_zero _)
    · rename_i hstart
      split at hnone
      · exact absurd hnone (Nat.succ_ne_zero _)
      · rename_i htaken
        rw [if_neg hstart, if_neg htaken]
        obtain ⟨hsum, hbound⟩ := ih hnone
        simp only [Bool.or_eq_true, decide_eq_true_eq, not_or, not_lt] at hstart htaken
        have hroom := htaken.2
        dsimp only [span] at hroom ⊢
        omega

/-- Statistics without a dropped sample have taken every jitter. -/
theorem loopStats_taken (hdr : ℤ → Bool) {wakeups : List (ℤ × ℤ × ℤ)} (hnone : (loopStats hdr wakeups).dropped = 0) :
    ∀ v ∈ wakeups, hdr (clamped v.1) = true := by
  induction wakeups using List.reverseRecOn with
  | nil => exact fun v hv => absurd hv List.not_mem_nil
  | append_singleton before w ih =>
    rw [loopStats, List.foldl_append] at hnone
    have hsum : (loopStats hdr before).dropped + (!hdr (clamped w.1)).toNat + (!hdr (clamped w.2.1)).toNat +
        (!hdr (clamped w.2.2)).toNat = 0 := hnone
    intro v hv
    rcases List.mem_append.mp hv with hv | hv
    · exact ih (by omega) v hv
    · rw [List.mem_singleton.mp hv]
      by_contra hrefused
      rw [Bool.eq_false_of_not_eq_true hrefused] at hsum
      simp at hsum

/-- Every wake-up is counted, and those that fit are in every histogram. -/
theorem loopStats_of_fits (hhdr : Covers hdr) {wakeups : List (ℤ × ℤ × ℤ)} (hfits : ∀ w ∈ wakeups, WakeupFits w) :
    loopStats hdr wakeups = ⟨wakeups.length, 0, wakeups.length, wakeups.length⟩ := by
  have hclamped {ns : ℤ} (hns : ns ≤ kHighest) : hdr (clamped ns) = true := by
    have hhigh : (1 : ℤ) ≤ kHighest := by decide
    refine hhdr _ ?_ ?_ <;> · unfold clamped; split <;> omega
  induction wakeups using List.reverseRecOn with
  | nil => rfl
  | append_singleton before w ih =>
    obtain ⟨hjitter, hnaive, hexec⟩ := hfits w (by simp)
    rw [loopStats, List.foldl_append]
    change LoopStats.record hdr (loopStats hdr before) w.1 w.2.1 w.2.2 = _
    rw [ih fun v hv => hfits v (List.mem_append_left _ hv), LoopStats.record, hclamped hjitter, hclamped hnaive,
      hclamped hexec, List.length_append]
    rfl

end Tvc.Freerun
