import Tvc.Audit.Measured

/-!
# The measurement audit accepts honest runs

The checks of `validate`, one group after another, on the summary and the records of a run. The counters are
what the cycles left; the clock is asked for an order of its readings, and the intervals for room in the
histograms and in their sums.
-/

namespace Tvc.Latency

open Freerun (AdmissionCounts Window Link counters Loop Config BodyEvent Scheduled Sample kPeriodNs Runtime Summary
  TelemetrySummary RunConfig Origin Covers Forward WakeupFits INT64_MAX UINT64_MAX distribution span kHighest
  loopStats)
open Wire (Fields FieldName controlDict)
open Telem (ControlRecord)

/-- The clock readings of a body that its record keeps, in their order. -/
structure Clocked (e : BodyEvent) : Prop where
  woke : 0 ≤ e.wokeNs
  rx : e.wokeNs ≤ e.rxNs
  tx : e.rxNs ≤ e.txNs
  done : e.txNs ≤ e.doneNs
  fits : e.doneNs ≤ INT64_MAX

/-- A clock reading is kept by its pattern. -/
theorem toInt_ofInt {ns : ℤ} (hlow : 0 ≤ ns) (hhigh : ns ≤ INT64_MAX) : (BitVec.ofInt 64 ns).toInt = ns := by
  unfold INT64_MAX at hhigh
  rw [BitVec.toInt_ofInt]
  exact Int.bmod_eq_of_le (by omega) (by omega)

variable {cfg : Config} {tickBase : ℕ} {origin : ℤ} {events : List BodyEvent} {x : Loop} {r : Runtime}
  {hdr : ℤ → Bool} {telemetry : TelemetrySummary}

/-- A runtime that differs from the loop's by copies of the terminal reply only. -/
structure Resent (x : Loop) (r : Runtime) : Prop where
  answered : Answered r
  keeps : ∃ attempts last sent failed,
    r = { x.r with termAttempts := attempts, termLast := last, termSent := sent, termFailed := failed }

/-- The rows of a loop are its cycles. -/
theorem Audited.rows_length (h : Audited cfg tickBase origin events x) : (rows x).length = x.n :=
  (List.length_map ..).trans h.tallied.length

/-- The recorded window has the cycles after the warmup. -/
theorem Audited.recorded_length (h : Audited cfg tickBase origin events x) :
    ((rows x).drop cfg.warmup).length = x.n - cfg.warmup := by
  rw [List.length_drop, h.rows_length]

/-- The populations are those of the cycles. -/
theorem population_holds (h : Audited cfg tickBase origin events x) (hr : Resent x r)
    (hdrops : ∀ r ∈ x.records, r.drops = 0) (hnone : x.drops = 0) (htelemetry : telemetry = ⟨x.n, 0⟩)
    (hhdr : Covers hdr) (hwakeups : ∀ w ∈ x.wakeups, WakeupFits w) :
    ∀ step ∈ populationSteps (r.summary hdr cfg.warmup x.wakeups telemetry) (rows x), Holds step := by
  obtain ⟨attempts, last, sent, failed, rfl⟩ := hr.keeps
  have hcycles := h.tallied.cycles
  have hpushed := h.tallied.pushed
  rw [hnone, Nat.add_zero] at hpushed
  have hstats : (loopStats hdr x.wakeups).recorded = x.n - cfg.warmup := by
    rw [Freerun.loopStats_of_fits hhdr hwakeups]
    exact h.tallied.wakeups
  subst htelemetry
  simp only [populationSteps, List.forall_mem_cons, holds_check, Runtime.summary, recorded, hcycles, hpushed, hstats,
    h.rows_length, beq_self_eq_true, Bool.and_self, Bool.true_and, List.all_eq_true, true_and]
  refine ⟨fun row hrow => ?_, List.forall_mem_nil _⟩
  obtain ⟨record, hrecord, rfl⟩ := List.mem_map.mp hrow
  have hvalue : (controlDict record).int .drops = (record.drops.toNat : ℤ) := rfl
  rw [hvalue, hdrops record hrecord]
  rfl

/-- The ledgers close, whether the recorded window was opened or not. -/
theorem ledger_holds (h : Audited cfg tickBase origin events x) (hr : Resent x r)
    (hreach : x.r.admission.Reachable) (hclosed : x.r.admission.isOpen = false) (hcycles : x.r.admission.cycles = x.n) :
    ∀ step ∈ ledgerSteps (r.summary hdr cfg.warmup x.wakeups telemetry), Holds step := by
  obtain ⟨attempts, last, sent, failed, rfl⟩ := hr.keeps
  have hledger := hreach.ledger
  have htotal := h.tallied.cycles
  have hwarmup := h.tallied.warmup
  have hrecorded := h.tallied.recorded.ladder_sum
  rw [h.recorded_length] at hrecorded
  have hepisode := h.tallied.episode.ladder_sum
  rw [h.rows_length] at hepisode
  rw [ledgerSteps, List.forall_mem_append]
  refine ⟨?_, ?_⟩
  · unfold windowSteps
    simp only [Runtime.summary, recorded, htotal]
    by_cases hopened : x.n - cfg.warmup = 0
    · have hbefore : x.r.admission.cycles ≤ x.r.admission.warmup := by omega
      have hblank : x.r.admission.recorded = {} := hledger.blank hbefore
      have hnoted := hreach.unnoted.between hclosed hbefore
      have hnone : (rows x).drop cfg.warmup = [] := List.length_eq_zero_iff.mp (h.recorded_length.trans hopened)
      have htally := h.tallied.recorded
      rw [hnone] at htally
      simp only [hopened, bne_self_eq_false, Bool.false_eq_true, if_false, List.forall_mem_cons, holds_check]
      refine ⟨⟨_, none, rfl, by simp⟩, ?_, List.forall_mem_nil _⟩
      simp only [hnoted, hblank, counts, ladder, counters, htally.ladder, htally.sent, htally.failed, htally.served,
        List.countP_nil]
      rfl
    · obtain ⟨initial, hinitial, hbooks⟩ := hledger.closedRecorded hclosed (by omega)
      simp only [bne_iff_ne, ne_eq, hopened, not_false_eq_true, if_true, hinitial, List.forall_mem_cons, holds_check,
        beq_iff_eq]
      exact ⟨hbooks, List.forall_mem_nil _⟩
  · have hclose := hledger.closedEpisode hclosed
    simp only [Runtime.summary, List.forall_mem_cons, holds_check, beq_iff_eq, recorded, htotal]
    exact ⟨hclose, hepisode, hrecorded, List.forall_mem_nil _⟩

/-- The terminal reply and the actuator commands are partitioned. -/
theorem terminal_holds (h : Audited cfg tickBase origin events x) (hr : Resent x r) :
    ∀ step ∈ terminalSteps (r.summary hdr cfg.warmup x.wakeups telemetry) (rows x), Holds step := by
  have hanswered := hr.answered
  obtain ⟨attempts, last, sent, failed, rfl⟩ := hr.keeps
  have hcycles := h.tallied.cycles
  have hordinary := h.tallied.episode.ordinary_sum
  rw [h.rows_length] at hordinary
  have hcycle := h.ending.cycle
  have hsingle := h.ending.single
  have hpartition := hanswered.partition
  simp only [terminalSteps, List.forall_mem_cons, holds_check, Runtime.summary, hcycles]
  refine ⟨?_, ?_, ?_, ?_, ?_, List.forall_mem_nil _⟩
  · simpa using ⟨hcycle, hsingle⟩
  · by_cases hended : x.r.terminalCycle = 0
    · have hidle := hanswered.idle hended
      dsimp only at hidle hpartition
      simp [hended, ← hpartition, hidle]
    · have hfirst := (hanswered.first hended).1
      dsimp only at hfirst hpartition
      simp [hended, ← hpartition, hfirst]
  · unfold firstSendStep
    by_cases hended : x.r.terminalCycle = 0
    · simp [hended]
    · obtain ⟨-, hsent, hfailed⟩ := hanswered.first hended
      obtain ⟨record, hlast, hflag⟩ := h.ending.last hended
      have hrow : (rows x).getLast? = some (controlDict record) := by
        rw [rows, List.getLast?_map, hlast]
        rfl
      dsimp only at hsent hfailed
      simp [hended, hrow, hflag, hsent, hfailed]
  · have hsum : x.r.episodeWindow.sent + x.r.episodeWindow.failed + x.r.terminalCycle = x.n := by
      rw [hcycle]
      exact hordinary
    simp only [counters, beq_iff_eq]
    omega
  · have hsum : x.r.terminalCycle ≤ x.n := by
      rw [hcycle, ← h.rows_length]
      exact List.countP_le_length
    have hsent := h.tallied.sent
    have hfailed := h.tallied.failed
    simp only [counters, hsent, hfailed, beq_self_eq_true, Bool.and_true, beq_iff_eq]
    omega

/-- Each record is in its place and keeps the order of the clock. -/
theorem record_holds (h : Audited cfg tickBase origin events x) (hr : Resent x r) (hbase : x.r.tickBase = tickBase)
    (hroom : tickBase + x.n ≤ 2 ^ 64) (horigin : 0 ≤ origin)
    (hdeadlines : ∀ k < x.n, origin + k * kPeriodNs ≤ INT64_MAX) (hclock : ∀ e ∈ events, Clocked e) :
    ∀ step ∈ recordSteps (r.summary hdr cfg.warmup x.wakeups telemetry) (rows x), Holds step := by
  obtain ⟨attempts, last, sent, failed, rfl⟩ := hr.keeps
  have hplaced {row : Fields} {k : ℕ} (hrow : (row, k) ∈ (rows x).zipIdx) :
      ∃ record, row = controlDict record ∧ k < x.n ∧ Placed tickBase origin events k record := by
    have hget : (x.records.map controlDict)[k]? = some row := List.mk_mem_zipIdx_iff_getElem?.mp hrow
    rw [List.getElem?_map] at hget
    obtain ⟨record, hrecord, hrow⟩ := Option.map_eq_some_iff.mp hget
    have hk : k < x.records.length := (List.getElem?_eq_some_iff.mp hrecord).1
    exact ⟨record, hrow.symm, h.tallied.length ▸ hk, h.told.placed k record hrecord⟩
  simp only [recordSteps, List.forall_mem_cons, holds_check, Runtime.summary, List.all_eq_true]
  refine ⟨fun place hrow => ?_, fun row hrow => ?_, fun place hrow => ?_, ?_, List.forall_mem_nil _⟩
  · obtain ⟨row, k⟩ := place
    obtain ⟨record, rfl, hk, hplace⟩ := hplaced hrow
    have htick : (controlDict record).int .tick = (tickBase + k : ℤ) := by
      have hvalue : (controlDict record).int .tick = (record.tick.toNat : ℤ) := rfl
      rw [hvalue, hplace.tick, BitVec.toNat_ofNat, Nat.mod_eq_of_lt (by omega)]
      exact Nat.cast_add _ _
    have hdeadline : (controlDict record).int .deadlineNs = origin + k * 2000000 := by
      have hvalue : (controlDict record).int .deadlineNs = record.deadlineNs.toInt := rfl
      have hstart : 0 ≤ origin + k * kPeriodNs := by unfold kPeriodNs; omega
      rw [hvalue, hplace.deadline, toInt_ofInt hstart (hdeadlines k hk)]
      rfl
    dsimp only
    rw [htick, hdeadline, hbase, h.told.since]
    simp
  · obtain ⟨k, hk, hget⟩ := List.mem_iff_getElem.mp hrow
    have hmem : (row, k) ∈ (rows x).zipIdx :=
      List.mk_mem_zipIdx_iff_getElem?.mpr (List.getElem?_eq_some_iff.mpr ⟨hk, hget⟩)
    obtain ⟨record, rfl, -, hplace⟩ := hplaced hmem
    obtain ⟨e, he, hwoke, hrx, htx, hdone⟩ := hplace.stamps
    obtain ⟨hstart, hbefore, hsend, hend, hfits⟩ := hclock e he
    have hwoken : (controlDict record).int .wokeNs = e.wokeNs :=
      (congrArg BitVec.toInt hwoke).trans (toInt_ofInt (by omega) (by omega))
    have hreceived : (controlDict record).int .rxNs = e.rxNs :=
      (congrArg BitVec.toInt hrx).trans (toInt_ofInt (by omega) (by omega))
    have hsent : (controlDict record).int .txNs = e.txNs :=
      (congrArg BitVec.toInt htx).trans (toInt_ofInt (by omega) (by omega))
    have hover : (controlDict record).int .doneNs = e.doneNs :=
      (congrArg BitVec.toInt hdone).trans (toInt_ofInt (by omega) hfits)
    rw [hwoken, hreceived, hsent, hover]
    simp [hstart, hbefore, hsend, hend]
  · obtain ⟨row, k⟩ := place
    obtain ⟨record, rfl, -, hplace⟩ := hplaced hrow
    have hvalue : (controlDict record).int .rxCount = (record.rxCount.toNat : ℤ) := rfl
    have hrx := hplace.rx
    dsimp only
    rw [hvalue]
    simp only [Nat.cast_nonneg, decide_true, Bool.true_and, decide_eq_true_eq, beq_iff_eq]
    by_cases hk : k = 0
    · simp only [hk, if_true] at hrx ⊢
      omega
    · simp only [hk, if_false] at hrx ⊢
      omega
  · rw [h.told.held]

/-- The distribution of the served records, from the intervals that they tell. -/
theorem distribution_holds (hhdr : Covers hdr) (key : String) {records : List ControlRecord} {finish start : FieldName}
    {interval : ControlRecord → U64 × U64}
    (hfields : ∀ r, (controlDict r).int finish - (controlDict r).int start = span (interval r))
    (hforward : ∀ r ∈ records, Forward (interval r)) (hrange : ∀ r ∈ records, span (interval r) ≤ kHighest)
    (htotal : ((records.map interval).map span).sum ≤ UINT64_MAX) :
    ∀ step ∈ distributionSteps key (distribution hdr (records.map interval)) (records.map controlDict) finish start,
      Holds step := by
  obtain ⟨hcount, hdropped, hsum⟩ := Freerun.distribution_of_fits hhdr (List.forall_mem_map.mpr hforward)
    (List.forall_mem_map.mpr hrange) htotal
  have hvalues : ((records.map controlDict).map fun r => r.int finish - r.int start) =
      (records.map interval).map span := by
    rw [List.map_map, List.map_map]
    exact List.map_congr_left fun r _ => hfields r
  simp only [distributionSteps, List.forall_mem_cons, holds_check, hvalues, hcount, hdropped, hsum, List.length_map,
    beq_self_eq_true, Bool.true_and, List.all_eq_true, List.forall_mem_map, true_and]
  refine ⟨fun r hr => ?_, nofun⟩
  have hspan : 0 ≤ span (interval r) := Int.sub_nonneg.mpr (hforward r hr).2
  have hhigh : span (interval r) ≤ 10000000000 := hrange r hr
  simp [hspan, hhigh]

/-- The recorded populations are those of the recorded cycles. -/
theorem histogram_holds (h : Audited cfg tickBase origin events x) (hr : Resent x r) (hhdr : Covers hdr)
    (hreach : x.r.admission.Reachable) (hcycles : x.r.admission.cycles = x.n)
    (hwakeups : ∀ w ∈ x.wakeups, WakeupFits w) (hserved : (distribution hdr x.r.served).count = x.r.served.length)
    (hdiscarded : (distribution hdr x.r.discarded).count = x.r.discarded.length)
    (hnone : (distribution hdr x.r.discarded).dropped = 0) :
    ∀ step ∈ histogramSteps (r.summary hdr cfg.warmup x.wakeups telemetry), Holds step := by
  obtain ⟨attempts, last, sent, failed, rfl⟩ := hr.keeps
  have htotal := h.tallied.cycles
  have hwindow := h.tallied.wakeups
  have hdiscards := h.tallied.discards
  have hcount : x.r.served.length = x.r.recordedWindow.served := by
    rw [h.measured.served, List.length_map, h.tallied.recorded.served, servedRecords, ← List.countP_eq_length_filter, rows,
      List.map_drop.symm, List.countP_map]
    rfl
  rw [histogramSteps, List.forall_mem_append]
  refine ⟨?_, ?_⟩
  · simp only [Runtime.summary, Freerun.loopStats_of_fits hhdr hwakeups, List.forall_mem_cons, holds_check, recorded, htotal,
      hwindow, hserved, hdiscarded, hcount, hdiscards, hnone, counters]
    simp [Freerun.Admission.discarded]
  · simp only [Runtime.summary, recorded, htotal]
    by_cases hopened : x.n - cfg.warmup = 0
    · have hwarmup := h.tallied.warmup
      have hblank : x.r.admission.recorded = {} := hreach.ledger.blank (by omega)
      rw [hblank] at hdiscards
      have hempty : x.r.discarded = [] := List.length_eq_zero_iff.mp hdiscards
      simp [hopened, hempty, distribution]
    · simp [hopened]

/-- From a stamp before its receipt, the three intervals of a served record go forward. -/
theorem intervals_forward (h : Audited cfg tickBase origin events x) (hclock : ∀ e ∈ events, Clocked e)
    (hadmitted : ∀ i ∈ x.r.uplinkWait, Forward i) :
    ∀ r ∈ servedRecords cfg x, Forward (r.sensorSendNs, r.txNs) ∧ Forward (r.sensorSendNs, r.rxNs) ∧
      Forward (r.rxNs, r.txNs) := by
  intro r hr
  have hwait : Forward (r.sensorSendNs, r.rxNs) := by
    refine hadmitted _ ?_
    rw [h.measured.uplinkWait]
    exact List.mem_map_of_mem hr
  obtain ⟨k, hk, hget⟩ := List.mem_iff_getElem.mp (List.mem_of_mem_drop (List.mem_filter.mp hr).1)
  obtain ⟨e, he, -, hrx, htx, -⟩ := (h.told.placed k r (List.getElem?_eq_some_iff.mpr ⟨hk, hget⟩)).stamps
  obtain ⟨hwoke, hreceived, hsent, hdone, hlimit⟩ := hclock e he
  have hrx : r.rxNs.toInt = e.rxNs := (congrArg BitVec.toInt hrx).trans (toInt_ofInt (by omega) (by omega))
  have htx : r.txNs.toInt = e.txNs := (congrArg BitVec.toInt htx).trans (toInt_ofInt (by omega) (by omega))
  obtain ⟨hstart, hbefore⟩ := hwait
  dsimp only at hstart hbefore
  refine ⟨⟨hstart, ?_⟩, ⟨hstart, hbefore⟩, ?_, ?_⟩ <;> dsimp only <;> omega

/-- The parts of forward intervals add up to no more than the whole ones. -/
theorem sum_span_le {records : List ControlRecord} (part : ControlRecord → U64 × U64) {whole : ControlRecord → U64 × U64}
    (hle : ∀ r ∈ records, span (part r) ≤ span (whole r)) :
    ((records.map part).map span).sum ≤ ((records.map whole).map span).sum := by
  rw [List.map_map, List.map_map]
  exact List.sum_le_sum hle

/-- The intervals of a runtime go forward from their stamps, are in the range of the histograms, and the longest of
them have sums that fit 64 bits. -/
structure Measurable (r : Runtime) : Prop where
  admitted : ∀ i ∈ r.uplinkWait, Forward i
  discarded : ∀ i ∈ r.discarded, Forward i
  range : ∀ i ∈ r.served ++ r.uplinkWait ++ r.compute ++ r.discarded, span i ≤ kHighest
  latencies : (r.served.map span).sum ≤ UINT64_MAX
  ages : (r.discarded.map span).sum ≤ UINT64_MAX

/-- The audit reads the served records that the loop measured. -/
theorem servedRows_eq (hr : Resent x r) :
    servedRows (r.summary hdr cfg.warmup x.wakeups telemetry) (rows x) = (servedRecords cfg x).map controlDict := by
  obtain ⟨attempts, last, sent, failed, rfl⟩ := hr.keeps
  rw [servedRows, servedRecords, rows, ← List.map_drop, List.filter_map]
  rfl

/-- The three distributions of the served records are right. -/
theorem served_holds (telemetry : TelemetrySummary) (h : Audited cfg tickBase origin events x) (hr : Resent x r)
    (hhdr : Covers hdr) (hclock : ∀ e ∈ events, Clocked e) (hfits : Measurable x.r) :
    let s := r.summary hdr cfg.warmup x.wakeups telemetry
    let served := (servedRecords cfg x).map controlDict
    (∀ step ∈ distributionSteps "latency_us" s.latency served .txNs .sensorSendNs, Holds step) ∧
      (∀ step ∈ distributionSteps "uplink_wait_us" s.uplinkWait served .rxNs .sensorSendNs, Holds step) ∧
      (∀ step ∈ distributionSteps "vehicle_compute_us" s.vehicleCompute served .txNs .rxNs, Holds step) ∧
      (distribution hdr x.r.served).count = x.r.served.length := by
  intro s served
  obtain ⟨attempts, last, sent, failed, rfl⟩ := hr.keeps
  have hforward := intervals_forward h hclock hfits.admitted
  have hrange := hfits.range
  have hlatencies := hfits.latencies
  simp only [h.measured.served, h.measured.uplinkWait, h.measured.compute, List.forall_mem_append, List.forall_mem_map]
    at hrange hlatencies
  obtain ⟨⟨⟨hlatency, hwait⟩, hcompute⟩, -⟩ := hrange
  have hwaits := (sum_span_le (fun r => (r.sensorSendNs, r.rxNs)) fun r hr => by
    have hlater := (hforward r hr).2.2.2
    unfold span
    dsimp only at hlater ⊢
    omega).trans hlatencies
  have hcomputes := (sum_span_le (fun r => (r.rxNs, r.txNs)) fun r hr => by
    have hearlier := (hforward r hr).2.1.2
    unfold span
    dsimp only at hearlier ⊢
    omega).trans hlatencies
  simp only [s, Runtime.summary, h.measured.served, h.measured.uplinkWait, h.measured.compute]
  refine ⟨?_, ?_, ?_, ?_⟩
  · exact distribution_holds hhdr _ (fun _ => rfl) (fun r hr => (hforward r hr).1) hlatency hlatencies
  · exact distribution_holds hhdr _ (fun _ => rfl) (fun r hr => (hforward r hr).2.1) hwait hwaits
  · exact distribution_holds hhdr _ (fun _ => rfl) (fun r hr => (hforward r hr).2.2) hcompute hcomputes
  · exact (Freerun.distribution_of_fits hhdr (List.forall_mem_map.mpr fun r hr => (hforward r hr).1)
      (List.forall_mem_map.mpr hlatency) hlatencies).1

/-- Every check holds of a loop whose records were all pushed and written. -/
theorem steps_hold [Arith F64] {history : List (EpisodeInput F64)} (h : Audited cfg tickBase origin events x)
    (hr : Resent x r) (hscheduled : Scheduled cfg tickBase history x) (hdrops : ∀ r ∈ x.records, r.drops = 0)
    (hnone : x.drops = 0) (hroom : tickBase + x.n ≤ 2 ^ 64) (horigin : 0 ≤ origin)
    (hdeadlines : ∀ k < x.n, origin + k * kPeriodNs ≤ INT64_MAX) (hclock : ∀ e ∈ events, Clocked e) (hhdr : Covers hdr)
    (hwakeups : ∀ w ∈ x.wakeups, WakeupFits w) (hfits : Measurable x.r) :
    ∀ step ∈ steps (r.summary hdr cfg.warmup x.wakeups ⟨x.n, 0⟩) (rows x), Holds step := by
  have hbetween := hscheduled.between
  obtain ⟨hlatency, hwait, hcompute, hcount⟩ := served_holds ⟨x.n, 0⟩ h hr hhdr hclock hfits
  have hages := Freerun.distribution_of_fits hhdr hfits.discarded
    (fun i hi => hfits.range i (List.mem_append_right _ hi)) hfits.ages
  have hepisode := h.tallied.episode.holds "episode"
  have hrecorded := h.tallied.recorded.holds "recorded"
  obtain ⟨attempts, last, sent, failed, hkeeps⟩ := hr.keeps
  simp only [steps, List.forall_mem_append, servedRows_eq hr]
  refine ⟨⟨⟨⟨⟨⟨⟨⟨⟨⟨List.forall_mem_nil _, ?_⟩, ?_⟩, ?_⟩, ?_⟩, ?_⟩, ?_⟩, hlatency⟩, hwait⟩, hcompute⟩, ?_⟩
  · exact population_holds h hr hdrops hnone rfl hhdr hwakeups
  · exact ledger_holds h hr hbetween.reachable hbetween.closed hbetween.cycles
  · exact terminal_holds h hr
  · exact record_holds h hr hscheduled.base hroom horigin hdeadlines hclock
  · rw [hkeeps]
    exact hepisode
  · rw [hkeeps]
    exact hrecorded
  · exact histogram_holds h hr hhdr hbetween.reachable hbetween.cycles hwakeups hcount hages.1 hages.2.1

/-! ## A process -/

variable [Arith F64] {width : ℕ} {β : Type}

/-- The records of a process that were pushed, as the audit reads them. -/
def controls (env : Freerun.Environment width β) (cfg : RunConfig) : List Fields :=
  (Recorder.pushedRecords (env.records cfg) (env.pushed cfg)).map controlDict

/-- An honest run from an origin: nothing was dropped, the clock never goes back, and the intervals from the
stamp of an admitted or discarded frame go forward and fit the histograms. -/
structure Honest (env : Freerun.Environment width β) (cfg : RunConfig) (o : Origin) : Prop where
  origin : env.origin cfg = some o
  undropped : env.drops cfg = 0
  arrival : 0 ≤ env.arrival
  phase : 0 < cfg.phaseUs
  clocked : ∀ n < cfg.total, Clocked (env.bodies n)
  admitted : ∀ i ∈ (env.runtime cfg).uplinkWait, Forward i
  discarded : ∀ i ∈ (env.runtime cfg).discarded, Forward i
  range : ∀ i ∈ (env.runtime cfg).served ++ (env.runtime cfg).uplinkWait ++ (env.runtime cfg).compute ++
    (env.runtime cfg).discarded, span i ≤ kHighest

variable {env : Freerun.Environment width β} {cfg : RunConfig} {o : Origin}

/-- The runtime of a run with an origin, from that of its loop. -/
theorem runtime_resent (horigin : env.origin cfg = some o) (hanswered : Answered (env.loop cfg o).r) :
    Resent (env.loop cfg o) (env.runtime cfg) := by
  have hruntime : env.runtime cfg =
      if (env.loop cfg o).r.terminalCycle != 0 then
        Freerun.resendTerminal env.copies (cfg.terminalCopies - 1) 1 (env.loop cfg o).r
      else (env.loop cfg o).r := by
    unfold Freerun.Environment.runtime
    rw [horigin]
  obtain ⟨attempts, last, sent, failed, hkeeps, -⟩ := Freerun.Environment.runtime_of_origin horigin
  refine ⟨?_, attempts, last, sent, failed, hkeeps⟩
  by_cases hended : (env.loop cfg o).r.terminalCycle = 0
  · rw [hruntime, if_neg (by simpa using hended)]
    exact hanswered
  · rw [hruntime, if_pos (by simpa using hended)]
    exact hanswered.resent hended _ _ _

/-- The origin of a run, and with it every deadline, is a time of the clock. -/
theorem deadlines_fit (h : Honest env cfg o) :
    0 ≤ o.origin ∧ ∀ k < cfg.total, o.origin + k * kPeriodNs ≤ INT64_MAX := by
  obtain ⟨hfirst, hfits⟩ := Option.filter_eq_some_iff.mp h.origin
  have hstart : 0 ≤ o.origin := by
    unfold Freerun.Environment.firstOrigin Freerun.originOf at hfirst
    have harrival := h.arrival
    have hphase := h.phase
    repeat' split at hfirst
    all_goals first | contradiction | skip
    obtain rfl := Option.some.inj hfirst
    dsimp only
    omega
  refine ⟨hstart, fun k hk => ?_⟩
  have hroom := of_decide_eq_true (Bool.and_eq_true_iff.mp hfits).2
  have hquotient : (k : ℤ) ≤ (INT64_MAX - o.origin) / kPeriodNs := by
    have hpositive : cfg.total ≤ ((INT64_MAX - o.origin) / kPeriodNs).toNat := by omega
    omega
  have hproduct := Int.mul_le_of_le_ediv (by decide) hquotient
  omega

/-- When nothing is dropped and the drain finds no failure, the audit reads every record of the loop, and as many are
reported. -/
theorem controls_of_undropped [Inhabited β] {image : Recorder.Image width β} (horigin : env.origin cfg = some o)
    (hnone : env.drops cfg = 0) (hfinished : (env.recorder image cfg).drain.phase = .finished)
    (hanswered : (env.recorder image cfg).answers = env.pushed cfg)
    (hwritten : (env.recorder image cfg).drain.writeFailed = false) :
    controls env cfg = rows (env.loop cfg o) ∧
      (env.recorder image cfg).drain.records = (env.loop cfg o).records.length ∧
      (env.loop cfg o).drops = 0 ∧ ∀ r ∈ (env.loop cfg o).records, r.drops = 0 := by
  obtain ⟨history, hkept⟩ := env.served cfg o
  have hrecords : env.records cfg = (env.loop cfg o).records := by rw [Freerun.Environment.records, horigin]; rfl
  have hpushed : env.pushed cfg = (env.executed cfg o).map BodyEvent.pushed := by
    rw [Freerun.Environment.pushed, horigin]; rfl
  have hdropped : env.drops cfg = (env.loop cfg o).drops := by rw [Freerun.Environment.drops, horigin]; rfl
  have hnone : (env.loop cfg o).drops = 0 := hdropped.symm.trans hnone
  have hundropped := hkept.undropped hnone
  have hcount : (env.pushed cfg).count false = 0 := by rw [hpushed, ← hkept.dropped, hnone]
  have hfits : ∀ r ∈ env.records cfg, Telem.FittingCounts r := hrecords ▸ hkept.scheduled.fitting
  obtain ⟨-, hlength, htotal⟩ := Recorder.recording_of_undropped hfits (hrecords ▸ hundropped) rfl hfinished hwritten
    (hanswered ▸ hcount)
  have hall := Recorder.pushedRecords_of_undropped (hanswered ▸ hlength) hcount (hrecords ▸ hundropped)
  refine ⟨?_, hrecords ▸ htotal, hnone, hundropped⟩
  rw [controls, hall, hrecords]
  rfl

/-- The audit accepts every honest run, however it ends: with a drain that wrote every record, wake-ups and
executions that fit the histograms, and latencies and discard ages whose sums fit 64 bits, `validate` reports no
error on the summary and the pushed records. -/
theorem honest_run_accepted [Inhabited β] (image : Recorder.Image width β) (env : Freerun.Environment width β)
    (cfg : RunConfig) (hdr : ℤ → Bool) (hhdr : Covers hdr) {o : Origin} (h : Honest env cfg o)
    (hfinished : (env.recorder image cfg).drain.phase = .finished)
    (hanswered : (env.recorder image cfg).answers = env.pushed cfg)
    (hwritten : (env.recorder image cfg).drain.writeFailed = false)
    (hwakeups : ∀ v ∈ env.wakeups cfg, WakeupFits v)
    (hlatencies : ((env.runtime cfg).served.map span).sum ≤ UINT64_MAX)
    (hages : ((env.runtime cfg).discarded.map span).sum ≤ UINT64_MAX) :
    (validate (env.summary hdr cfg ⟨(env.recorder image cfg).drain.records, env.drops cfg⟩) (controls env cfg)).errors =
      [] := by
  have hroom := env.room h.origin
  have haudited : Audited cfg.toConfig o.tickBase o.origin (env.events cfg) (env.loop cfg o) :=
    audited_run cfg.toConfig hroom o.origin o.carry (env.events cfg)
  have hresent := runtime_resent h.origin haudited.ending.answered
  obtain ⟨hstart, hdeadlines⟩ := deadlines_fit h
  have hn : (env.loop cfg o).n ≤ cfg.total := by
    have hle := Loop.n_le cfg.toConfig o.tickBase o.origin o.carry (env.events cfg)
    rwa [Freerun.Environment.events, List.length_map, List.length_range] at hle
  have hclock : ∀ e ∈ env.events cfg, Clocked e := by
    intro e he
    obtain ⟨n, hn, rfl⟩ := List.mem_map.mp he
    exact h.clocked n (List.mem_range.mp hn)
  obtain ⟨hcontrols, hwrote, hnone, hdrops⟩ := controls_of_undropped h.origin h.undropped hfinished hanswered hwritten
  have hawake : env.wakeups cfg = (env.loop cfg o).wakeups := by rw [Freerun.Environment.wakeups, h.origin]; rfl
  have hfits : Measurable (env.loop cfg o).r := by
    obtain ⟨attempts, last, sent, failed, hkeeps⟩ := hresent.keeps
    have hadmitted := h.admitted
    have hdiscarded := h.discarded
    have hrange := h.range
    rw [hkeeps] at hadmitted hdiscarded hrange hlatencies hages
    exact ⟨hadmitted, hdiscarded, hrange, hlatencies, hages⟩
  rw [validate_errors_iff, hcontrols, Freerun.Environment.summary, hawake, hwrote, haudited.tallied.length, h.undropped]
  rw [hawake] at hwakeups
  have hscheduled := Freerun.scheduled_run cfg.toConfig o.tickBase o.origin o.carry (env.events cfg)
  exact steps_hold haudited hresent hscheduled hdrops hnone (by omega) hstart (fun k hk => hdeadlines k (by omega)) hclock
    hhdr hwakeups hfits

end Tvc.Latency
