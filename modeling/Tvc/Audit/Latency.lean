import Tvc.Freerun.Measurement
import Tvc.Payload.Ground

/-!
# The measurement audit of `scripts/latency.py`

`validate` compares the counters of a summary with each other and with the control records, which it reads
again on its own. It makes its checks in order until one raises an exception. The counters of a summary are
natural numbers by their type, and a record has the fields of its schema, so the exceptions left are another
mode, an occupancy that was never noted, and the last record of none.
-/

namespace Tvc.Latency

open Freerun (Summary Link Distribution)
open Wire (Fields FieldName)

/-! ## Checks -/

/-- An identity by its name; `none` is one that does not apply. -/
abbrev Identity := String × Option Bool

/-- `check`, or the exception that is raised in its place. -/
abbrev Step := Except String Identity

/-- `check`. -/
def check (name : String) (condition : Bool) : Step := .ok (name, some condition)

/-- The identities up to the first exception, and the exception. -/
def settle : List Step → List Identity × Option String
  | [] => ([], none)
  | .error e :: _ => ([], some e)
  | .ok i :: rest => (i :: (settle rest).1, (settle rest).2)

/-! ## The control records -/

/-- `r['flags']`. -/
def flags (r : Fields) : ℕ := (r.int .flags).toNat

/-- The record admitted a sample. -/
def fresh (r : Fields) : Bool := flags r &&& 1 != 0

/-- The command of the record was sent. -/
def sent (r : Fields) : Bool := flags r &&& 2 != 0

/-- The record admitted a sample and its command was sent. -/
def served (r : Fields) : Bool := flags r &&& 3 == 3

/-- The record ends the episode. -/
def terminated (r : Fields) : Bool := r.int .state == 3

/-- The rung of the ladder that the flags and the staleness of a record give. -/
def rung (r : Fields) : ℕ :=
  if 21 ≤ r.int .staleness then 3 else if fresh r then 0 else if r.int .staleness ≤ 8 then 1 else 2

/-- The sum of a field over the records. -/
def total (rows : List Fields) (name : FieldName) : ℤ := (rows.map fun r => r.int name).sum

/-- The loop of `validate` over the admitted observations. -/
structure History where
  n : ℕ := 0
  heldTick : Option ℤ := none
  heldStamp : ℤ := 0
  ok : Bool := true

/-- One turn of the loop over the admitted observations. -/
def History.step (h : History) (r : Fields) : History :=
  let newer :=
    !fresh r || (h.heldTick.all fun held => decide (held < r.int .sensorTick)) && decide (r.int .sensorTick ≤ r.int .tick)
  let heldTick := if fresh r then some (r.int .sensorTick) else h.heldTick
  let heldStamp := if fresh r then r.int .sensorSendNs else h.heldStamp
  let age := heldTick.elim (h.n + 1 : ℤ) fun held => r.int .tick - held
  { n := h.n + 1
    heldTick
    heldStamp
    ok := h.ok && newer && (r.int .staleness == min 0xffffffff age &&
      r.int .sensorTick == heldTick.getD 0xffffffffffffffff && r.int .sensorSendNs == heldStamp) }

/-! ## The summary -/

/-- The sum over `DISPOSITIONS`. -/
def dispositions (c : Link) : ℕ :=
  c.consumed + c.discardedOld + c.discardedSuperseded + c.discardedNonfinite + c.discardedSkewExcess +
    c.discardedDuplicate + c.discardedTickConflict + c.discardedInvalid + c.futureExpired

/-- The sum over `BAD`. -/
def bad (c : Link) : ℕ := c.badSync + c.badVersion + c.badType + c.badLength + c.badCrc

/-- The counters of the ladder. -/
def ladder (c : Link) : List ℕ := [c.fresh, c.coast, c.neutral, c.lost]

/-- The counters of `COUNTERS`. -/
def counts (c : Link) : List ℕ :=
  [c.received, c.consumed, c.discardedOld, c.discardedSuperseded, c.discardedNonfinite, c.discardedSkewExcess,
    c.discardedDuplicate, c.discardedTickConflict, c.discardedInvalid, c.futureExpired, c.badSync, c.badVersion,
    c.badType, c.badLength, c.badCrc] ++ ladder c ++ [c.actuatorTransmitted, c.actuatorTxFail, c.served]

/-- `count`: the recorded cycles. -/
def recorded (s : Summary) : ℕ := s.totalCycles - s.warmup

/-- The checks of the populations, up to the ledgers. -/
def populationSteps (s : Summary) (controls : List Fields) : List Step :=
  [check "actual recorded window" (s.cycles == recorded s),
    check "recording count" (controls.length == s.totalCycles && s.totalCycles == s.telemetry.records),
    check "recording drops" (s.telemetry.dropped == 0 && controls.all fun r => r.int .drops == 0),
    check "record ownership" (s.events.episodeTransitions == s.totalCycles &&
      s.events.recordAttempts == s.totalCycles && s.events.recordsPushed == s.totalCycles)]

/-- The checks of the recorded ledger: whether the recorded window was opened at all decides which. -/
def windowSteps (s : Summary) : List Step :=
  if recorded s != 0 then
    match s.futureParkedAtWarmup with
    | none => [.error "invalid nonnegative counter"]
    | some initial =>
      [check "T4" (s.linkRecorded.received + initial == dispositions s.linkRecorded + s.futureParkedAtEnd)]
  else
    [.ok ("T4", none),
      check "unopened window" (s.futureParkedAtWarmup == none && (counts s.linkRecorded).all (· == 0))]

/-- The checks of the ledgers and of the ladder's sums. -/
def ledgerSteps (s : Summary) : List Step :=
  windowSteps s ++
    [check "E3" (s.link.received == dispositions s.link + s.futureParkedAtEnd),
      check "E2" ((ladder s.link).sum == s.totalCycles),
      check "recorded ladder" ((ladder s.linkRecorded).sum == recorded s)]

/-- The first send of the terminal reply, against the last record. -/
def firstSendStep (s : Summary) (controls : List Fields) : Step :=
  if s.terminal.cycle != 0 then
    match s.terminal.firstTxOk with
    | none => check "terminal first send" false
    | some ok =>
      match controls.getLast? with
      | none => .error "list index out of range"
      | some r =>
        check "terminal first send"
          (ok == sent r && decide (ok.toNat ≤ s.terminal.downTransmitted) && decide ((!ok).toNat ≤ s.terminal.downTxFail))
  else check "terminal first send" (s.terminal.firstTxOk == none)

/-- The checks of the terminal and actuator partitions. -/
def terminalSteps (s : Summary) (controls : List Fields) : List Step :=
  [check "terminal cycle" (s.terminal.cycle == controls.countP terminated && decide (s.terminal.cycle ≤ 1)),
    check "terminal partition" (s.terminal.downAttempts == s.terminal.downTransmitted + s.terminal.downTxFail &&
      if s.terminal.cycle != 0 then decide (1 ≤ s.terminal.downAttempts) else s.terminal.downAttempts == 0),
    firstSendStep s controls,
    check "E1" ((s.link.actuatorTransmitted + s.link.actuatorTxFail : ℤ) == s.totalCycles - s.terminal.cycle),
    check "actuator totals" ((s.actuator.generated : ℤ) == s.totalCycles - s.terminal.cycle &&
      s.actuator.transmitted == s.link.actuatorTransmitted && s.actuator.txFail == s.link.actuatorTxFail)]

/-- The checks of each record on its own, by its place. -/
def recordSteps (s : Summary) (controls : List Fields) : List Step :=
  [check "record ticks" (controls.zipIdx.all fun x => x.1.int .tick == s.tickBase + x.2 &&
      x.1.int .deadlineNs == s.originNs + x.2 * 2000000),
    check "timestamp order" (controls.all fun r => decide (0 ≤ r.int .wokeNs) && decide (r.int .wokeNs ≤ r.int .rxNs) &&
      decide (r.int .rxNs ≤ r.int .txNs) && decide (r.int .txNs ≤ r.int .doneNs)),
    check "receive bounds" (controls.zipIdx.all fun x => decide (0 ≤ x.1.int .rxCount) &&
      decide (x.1.int .rxCount ≤ if x.2 == 0 then 9 else 8)),
    check "admitted observation history" (controls.foldl History.step {}).ok]

/-- The checks of the counters of one window against its records. -/
def tallySteps (name : String) (c : Link) (rows : List Fields) (terminalRx : ℕ) : List Step :=
  [check (name ++ " ladder flags") (((List.range 4).map fun k => rows.countP fun r => rung r == k) == ladder c),
    check (name ++ " consumption") (c.consumed == rows.countP fresh),
    check (name ++ " served") (c.served == rows.countP served),
    check (name ++ " ordinary send") (c.actuatorTransmitted == rows.countP fun r => !terminated r && sent r),
    check (name ++ " ordinary failure") (c.actuatorTxFail == rows.countP fun r => !terminated r && !sent r),
    check (name ++ " discarded_old") ((c.discardedOld : ℤ) == total rows .discardedOld),
    check (name ++ " discarded_superseded") ((c.discardedSuperseded : ℤ) == total rows .discardedSuperseded),
    check (name ++ " discarded_other")
      ((c.discardedNonfinite + c.discardedSkewExcess : ℤ) == total rows .discardedOther),
    check (name ++ " raw receipt") (total rows .rxCount == c.received + bad c + terminalRx)]

/-- The checks of a distribution against the served records. -/
def distributionSteps (key : String) (d : Distribution) (rows : List Fields) (finish start : FieldName) : List Step :=
  let values := rows.map fun r => r.int finish - r.int start
  [check (key ++ " population") (d.count == rows.length),
    check (key ++ " formula") ((d.sum : ℤ) == values.sum && values.all fun v => decide (0 ≤ v) && decide (v ≤ 10000000000)),
    check (key ++ " drops") (d.dropped == 0)]

/-- The served records of the recorded window. -/
def servedRows (s : Summary) (controls : List Fields) : List Fields := (controls.drop s.warmup).filter served

/-- The checks of the recorded populations. -/
def histogramSteps (s : Summary) : List Step :=
  [check "T1" (s.jitterCount == s.execCount && s.execCount == s.cycles && s.cycles == recorded s && s.droppedSamples == 0),
    check "T2" (s.latency.count == s.linkRecorded.served),
    check "T3" (s.discardAge.count == s.linkRecorded.discardedOld + s.linkRecorded.discardedSuperseded +
      s.linkRecorded.discardedNonfinite + s.linkRecorded.discardedSkewExcess),
    check "discard histogram drops" (s.discardAge.dropped == 0)] ++
    if recorded s != 0 then [] else [check "empty discard population" (s.discardAge.sum == 0)]

/-- The checks of `validate`, in order. -/
def steps (s : Summary) (controls : List Fields) : List Step :=
  (if s.mode != "freerun" then [.error "freerun mode required"] else []) ++ populationSteps s controls ++
    ledgerSteps s ++ terminalSteps s controls ++ recordSteps s controls ++
    tallySteps "episode" s.link controls s.terminal.upReceivedRaw ++
    tallySteps "recorded" s.linkRecorded (controls.drop s.warmup) s.terminal.upReceivedRawRecorded ++
    distributionSteps "latency_us" s.latency (servedRows s controls) .txNs .sensorSendNs ++
    distributionSteps "uplink_wait_us" s.uplinkWait (servedRows s controls) .rxNs .sensorSendNs ++
    distributionSteps "vehicle_compute_us" s.vehicleCompute (servedRows s controls) .txNs .rxNs ++ histogramSteps s

/-- The result of `validate`; a coverage is the ratio of its two numbers. -/
structure Validation where
  errors : List String
  identities : List Identity
  servedNs : List ℤ := []
  observationCoverage : Option (ℕ × ℕ) := none
  servedCoverage : Option (ℕ × ℕ) := none
  valid : Bool
  deriving DecidableEq, Repr

/-- The names of the identities that do not hold. -/
def failed (identities : List Identity) : List String :=
  (identities.filter fun i => i.2 == some false).map Prod.fst

/-- `validate`. -/
def validate (s : Summary) (controls : List Fields) : Validation :=
  let settled := settle (steps s controls)
  match settled.2 with
  | some e =>
    { errors := failed settled.1 ++ ["incomplete or invalid measurement evidence: " ++ e]
      identities := settled.1
      valid := false }
  | none =>
    { errors := failed settled.1
      identities := settled.1
      servedNs := (servedRows s controls).map fun r => r.int .txNs - r.int .sensorSendNs
      observationCoverage := if recorded s != 0 then some (s.linkRecorded.consumed, recorded s) else none
      servedCoverage := if recorded s != 0 then some (s.linkRecorded.served, recorded s) else none
      valid := (failed settled.1).isEmpty }

/-! ## What an audit without errors means -/

/-- The step raises no exception and its identity, where it applies, holds. -/
def Holds (step : Step) : Prop := ∃ name value, step = .ok (name, value) ∧ value ≠ some false

/-- A check holds if its condition does. -/
@[simp] theorem holds_check (name : String) (condition : Bool) : Holds (check name condition) ↔ condition = true := by
  constructor
  · rintro ⟨name, value, heq, hvalue⟩
    obtain rfl : some condition = value := congrArg Prod.snd (Except.ok.inj heq)
    simpa using hvalue
  · rintro rfl
    exact ⟨name, _, rfl, by simp⟩

/-- Steps settle without an exception or a failed identity if each of them holds. -/
theorem settle_iff (steps : List Step) :
    (settle steps).2 = none ∧ failed (settle steps).1 = [] ↔ ∀ step ∈ steps, Holds step := by
  induction steps with
  | nil => simp [settle, failed]
  | cons step rest ih =>
    cases step with
    | error e => simp [settle, Holds]
    | ok i =>
      obtain ⟨name, value⟩ := i
      have hhead : Holds (.ok (name, value)) ↔ value ≠ some false := by
        constructor
        · rintro ⟨name', value', heq, hvalue⟩
          obtain rfl : value = value' := congrArg Prod.snd (Except.ok.inj heq)
          exact hvalue
        · exact fun hvalue => ⟨name, value, rfl, hvalue⟩
      rw [List.forall_mem_cons, ← ih, hhead]
      by_cases hvalue : value = some false
      · simp [settle, failed, hvalue]
      · simp [settle, failed, hvalue]

/-- The audit finds nothing exactly if every step holds. -/
theorem validate_errors_iff (s : Summary) (controls : List Fields) :
    (validate s controls).errors = [] ↔ ∀ step ∈ steps s controls, Holds step := by
  rw [← settle_iff, validate]
  cases hsettled : (settle (steps s controls)).2 with
  | none => simp
  | some e => simp

/-- An audit without errors found no dropped sample and no dropped latency. -/
theorem undropped_of_accepted {s : Summary} {controls : List Fields} (h : (validate s controls).errors = []) :
    s.droppedSamples = 0 ∧ s.latency.dropped = 0 := by
  rw [validate_errors_iff] at h
  have hsamples := h (check "T1" (s.jitterCount == s.execCount && s.execCount == s.cycles && s.cycles == recorded s &&
    s.droppedSamples == 0)) (by simp [steps, histogramSteps])
  have hlatency := h (check "latency_us drops" (s.latency.dropped == 0)) (by simp [steps, distributionSteps])
  rw [holds_check] at hsamples hlatency
  simp only [Bool.and_eq_true, beq_iff_eq] at hsamples hlatency
  exact ⟨hsamples.2, hlatency⟩

end Tvc.Latency
