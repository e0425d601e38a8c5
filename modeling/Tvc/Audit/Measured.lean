import Tvc.Audit.Tally
import Tvc.Freerun.Serving

/-!
# What the scheduled cycles leave for the audit

Each scheduled cycle adds one record, and to every counter what the record tells. So after any number of
cycles the counters of both windows are those of their records, the history that the audit follows is that of
the held sample, and each list of intervals is read off the served records.
-/

namespace Tvc.Latency

open Freerun (AdmissionCounts Window Link counters Loop Config BodyEvent Scheduled Sample kPeriodNs Runtime)
open Freerun.Admission (refused discarded Admitted Receipt)
open Wire (Fields FieldName controlDict)
open Telem (ControlRecord)
open Lockstep (rungOf)

/-! ## The record of a cycle -/

/-- The flags of a record, from the facts that set them. -/
theorem flags_table : ∀ fresh coast neutral full nonfinite success : Bool,
    let base : U8 := (if fresh then 1 else 0) ||| (if coast then 8 else 0) ||| (if neutral then 16 else 0) |||
      (if full then 32 else 0) ||| (if nonfinite then 128 else 0)
    let flags : U8 := if success then base ||| 2 else base
    (flags.toNat &&& 1 != 0) = fresh ∧ (flags.toNat &&& 2 != 0) = success ∧
      (flags.toNat &&& 3 == 3) = (fresh && success) ∧ (flags &&& 3 == 3) = (fresh && success) := by
  decide

variable [Arith F64] {cfg : Config} {tickBase : ℕ} {history : List (EpisodeInput F64)} {x : Loop}

/-- The flags of a cycle's record. -/
theorem record_flags (cfg : Config) (carry : Datagram) (x : Loop) (e : BodyEvent) :
    let r := x.record cfg carry e
    let admitted := (x.admitted carry e).cycle.fresh.isSome
    fresh (controlDict r) = admitted ∧ sent (controlDict r) = e.sent ∧ served (controlDict r) = (admitted && e.sent) ∧
      (r.flags &&& 3 == 3) = (admitted && e.sent) :=
  flags_table _ _ _ _ _ _

/-- The record of a cycle ends the episode if the cycle does. -/
theorem record_terminated (cfg : Config) (carry : Datagram) (x : Loop) (e : BodyEvent) :
    terminated (controlDict (x.record cfg carry e)) = x.ends cfg carry e := by
  have hstate (mode : Mode) : (((BitVec.ofNat 8 mode.toNat).toNat : ℤ) == 3) = (mode == .terminated) := by
    cases mode <;> rfl
  exact hstate _

/-- What the admission of a body admits. -/
theorem admitted_of_scheduled (h : Scheduled cfg tickBase history x) (carry : Datagram) (e : BodyEvent) :
    Admitted (x.r.tickBase + x.n) x.n x.r.admission (x.admitted carry e) := by
  obtain ⟨-, hadmitted⟩ := h.between.cycle (Freerun.datagramsOf x.n carry e)
  rw [← h.base] at hadmitted
  exact hadmitted

/-- What the admission of a body counts. -/
theorem receipt_of_scheduled (h : Scheduled cfg tickBase history x) (carry : Datagram) (e : BodyEvent) :
    Receipt x.n x.r.admission (x.admitted carry e) := by
  have hreceipt := h.between.receipt (Freerun.datagramsOf x.n carry e)
  rw [← h.base] at hreceipt
  exact hreceipt

/-- The staleness of a cycle's record. -/
theorem record_staleness (h : Scheduled cfg tickBase history x) (carry : Datagram) (e : BodyEvent) :
    (controlDict (x.record cfg carry e)).int .staleness = (x.admitted carry e).cycle.staleness := by
  have hadmitted := admitted_of_scheduled h carry e
  have hbound : (x.admitted carry e).cycle.staleness < 2 ^ 32 := by
    rw [hadmitted.staleness]
    omega
  have hvalue : (controlDict (x.record cfg carry e)).int .staleness =
      ((BitVec.ofNat 32 (x.admitted carry e).cycle.staleness).toNat : ℤ) := rfl
  rw [hvalue, BitVec.toNat_ofNat, Nat.mod_eq_of_lt hbound]

/-- The record of a cycle tells what the cycle counted. -/
theorem record_counts (h : Scheduled cfg tickBase history x) (carry : Datagram) (e : BodyEvent) :
    let t := x.admitted carry e
    Counts (controlDict (x.record cfg carry e)) t.cycle.counts (rungOf t.cycle.staleness t.cycle.fresh.isSome)
      (x.ends cfg carry e) e.sent t.cycle.fresh.isSome
      (t.terminalCounts.receivedRaw - x.r.admission.terminalCounts.receivedRaw) := by
  intro t
  have hadmitted := admitted_of_scheduled h carry e
  have hreceipt : Receipt x.n x.r.admission t := receipt_of_scheduled h carry e
  obtain ⟨hfresh, hsent, hserved, -⟩ := record_flags cfg carry x e
  have hcounted : Freerun.Counted t.cycle (x.record cfg carry e) := Freerun.counted_record hadmitted ..
  refine ⟨?_, hfresh, hsent, hserved, record_terminated cfg carry x e, hreceipt.consumed, ?_, ?_, ?_, ?_⟩
  · have hstale := record_staleness h carry e
    unfold rung rungOf
    rw [hstale, hfresh]
    simp only [Nat.ofNat_le_cast, Nat.cast_le_ofNat]
    rfl
  · exact congrArg Int.ofNat hcounted.old
  · exact congrArg Int.ofNat hcounted.superseded
  · exact (congrArg Int.ofNat hcounted.other).trans (Nat.cast_add _ _)
  · have hrx : (controlDict (x.record cfg carry e)).int .rxCount = (t.cycle.rxCount : ℤ) := congrArg Int.ofNat hcounted.rx
    have htaken := hreceipt.taken
    have hgrown : x.r.admission.terminalCounts.receivedRaw ≤ t.terminalCounts.receivedRaw := hreceipt.raw
    rw [hrx]
    omega

/-! ## Over a run -/

/-- The records of a loop, as the audit reads them. -/
def rows (x : Loop) : List Fields := x.records.map controlDict

/-- The windows of a loop are those of its records. -/
structure Tallied (cfg : Config) (x : Loop) : Prop where
  length : x.records.length = x.n
  warmup : x.r.admission.warmup = cfg.warmup
  episode : Tally (rows x) x.r.admission.episode x.r.episodeWindow x.r.admission.terminalCounts.receivedRaw
  recorded : Tally ((rows x).drop cfg.warmup) x.r.admission.recorded x.r.recordedWindow x.r.terminalReceivedRecorded
  sent : x.r.normalSent = x.r.episodeWindow.sent
  failed : x.r.normalFailed = x.r.episodeWindow.failed
  pushed : x.r.pushed + x.drops = x.n
  cycles : x.r.cycles = x.n
  wakeups : x.wakeups.length = x.n - cfg.warmup
  discards : x.r.discarded.length = discarded x.r.admission.recorded

/-- A cycle keeps the windows. -/
theorem Tallied.run_turn (h : Tallied cfg x) (hscheduled : Scheduled cfg tickBase history x) (carry : Datagram)
    {e : BodyEvent} (hruns : x.Runs cfg e) : Tallied cfg (x.body cfg carry e) := by
  have hcounts := record_counts hscheduled carry e
  have hreceipt := receipt_of_scheduled hscheduled carry e
  obtain ⟨errors, errno, refused, hbody⟩ := Loop.body_eq carry hruns
  have hepisode := h.episode.concat hcounts
  have hraw : x.r.admission.terminalCounts.receivedRaw +
      ((x.admitted carry e).terminalCounts.receivedRaw - x.r.admission.terminalCounts.receivedRaw) =
        (x.admitted carry e).terminalCounts.receivedRaw := by
    have hgrown := hreceipt.raw
    omega
  have hrecorded := hreceipt.recorded
  rw [h.warmup] at hrecorded
  have hrows : rows (x.cycled cfg carry e errors errno refused) =
      rows x ++ [controlDict (x.record cfg carry e)] := List.map_append
  have hlength : (rows x).length = x.n := List.length_map .. |>.trans h.length
  rw [hbody]
  refine ⟨?_, hreceipt.warmup.trans h.warmup, ?_, ?_, ?_, ?_, ?_, congrArg (· + 1) h.cycles, ?_, ?_⟩
  · exact List.length_append.trans (congrArg (· + 1) h.length)
  · rw [hrows]
    rw [hraw] at hepisode
    exact hreceipt.episode ▸ hepisode
  · rw [hrows, drop_concat, hlength]
    by_cases hwarm : cfg.warmup ≤ x.n
    · have hconcat := h.recorded.concat hcounts
      simp only [Loop.cycled, hwarm, decide_true, if_true] at hrecorded ⊢
      rw [hrecorded]
      exact hconcat
    · simp only [Loop.cycled, hwarm, decide_false, Bool.false_eq_true, if_false, List.append_nil,
        Nat.add_zero] at hrecorded ⊢
      rw [hrecorded]
      exact h.recorded
  · exact congrArg (· + _) h.sent
  · exact congrArg (· + _) h.failed
  · have hpushed := h.pushed
    simp only [Loop.cycled]
    cases e.pushed <;> simp <;> omega
  · simp only [Loop.cycled, List.length_append, h.wakeups]
    by_cases hwarm : cfg.warmup ≤ x.n
    · simp only [hwarm, decide_true, if_true, List.length_singleton]
      omega
    · simp only [hwarm, decide_false, Bool.false_eq_true, if_false, List.length_nil]
      omega
  · simp only [Loop.cycled, List.length_append, h.discards]
    by_cases hwarm : cfg.warmup ≤ x.n
    · simp only [hwarm, decide_true, if_true, List.length_map] at hrecorded ⊢
      rw [hrecorded, Freerun.Admission.discarded_add, hreceipt.discards]
    · simp only [hwarm, decide_false, Bool.false_eq_true, if_false, List.length_nil, Nat.add_zero] at hrecorded ⊢
      rw [hrecorded]

/-- The served records of the recorded window. -/
def servedRecords (cfg : Config) (x : Loop) : List ControlRecord :=
  (x.records.drop cfg.warmup).filter fun r => served (controlDict r)

/-- The intervals of a loop are those of its served records. -/
structure Measured (cfg : Config) (x : Loop) : Prop where
  served : x.r.served = (servedRecords cfg x).map fun r => (r.sensorSendNs, r.txNs)
  uplinkWait : x.r.uplinkWait = (servedRecords cfg x).map fun r => (r.sensorSendNs, r.rxNs)
  compute : x.r.compute = (servedRecords cfg x).map fun r => (r.rxNs, r.txNs)

/-- A cycle keeps the intervals. -/
theorem Measured.run_turn (h : Measured cfg x) (hlength : x.records.length = x.n) (carry : Datagram) {e : BodyEvent}
    (hruns : x.Runs cfg e) : Measured cfg (x.body cfg carry e) := by
  obtain ⟨errors, errno, refused, hbody⟩ := Loop.body_eq carry hruns
  obtain ⟨-, -, hserved, hflags⟩ := record_flags cfg carry x e
  rw [hbody]
  have hrecords : servedRecords cfg (x.cycled cfg carry e errors errno refused) = servedRecords cfg x ++
      if decide (cfg.warmup ≤ x.n) && (x.record cfg carry e).flags &&& 3 == 3 then [x.record cfg carry e] else [] := by
    have hconcat : (x.cycled cfg carry e errors errno refused).records = x.records ++ [x.record cfg carry e] := rfl
    rw [servedRecords, hconcat, drop_concat, List.filter_append, hlength, hflags, ← hserved]
    by_cases hwarm : cfg.warmup ≤ x.n
    · by_cases hserved : Latency.served (controlDict (x.record cfg carry e)) = true <;> simp [hwarm, hserved, servedRecords]
    · simp [hwarm, servedRecords]
  constructor
  all_goals
    rw [hrecords, List.map_append]
    simp only [Loop.cycled, h.served, h.uplinkWait, h.compute]
    split <;> rfl

/-- The place and the stamps of a cycle's record. -/
structure Placed (tickBase : ℕ) (origin : ℤ) (events : List BodyEvent) (k : ℕ) (r : ControlRecord) : Prop where
  tick : r.tick = BitVec.ofNat 64 (tickBase + k)
  deadline : r.deadlineNs = BitVec.ofInt 64 (origin + k * kPeriodNs)
  rx : r.rxCount.toNat ≤ if k = 0 then 9 else 8
  stamps : ∃ e ∈ events, r.wokeNs = BitVec.ofInt 64 e.wokeNs ∧ r.rxNs = BitVec.ofInt 64 e.rxNs ∧
    r.txNs = BitVec.ofInt 64 e.txNs ∧ r.doneNs = BitVec.ofInt 64 e.doneNs

/-- What the records of a loop tell: their places, and the samples that were held. -/
structure Told (tickBase : ℕ) (origin : ℤ) (events : List BodyEvent) (x : Loop) : Prop where
  since : x.r.origin = origin
  placed : ∀ k r, x.records[k]? = some r → Placed tickBase origin events k r
  held : (rows x).foldl History.step {} =
    { n := x.n
      heldTick := x.r.admission.held.map fun y => (y.tick : ℤ)
      heldStamp := x.r.admission.held.elim 0 fun y => y.sendNs.toInt
      ok := true }

/-- The audit follows the sample that a cycle holds. -/
theorem held_step (h : Scheduled cfg tickBase history x) (hroom : tickBase + x.n < 2 ^ 64) (carry : Datagram)
    (e : BodyEvent) :
    let held (y : Option Sample) : Option ℤ := y.map fun y => (y.tick : ℤ)
    let stamp (y : Option Sample) : ℤ := y.elim 0 fun y => y.sendNs.toInt
    History.step ⟨x.n, held x.r.admission.held, stamp x.r.admission.held, true⟩ (controlDict (x.record cfg carry e)) =
      ⟨x.n + 1, held (x.admitted carry e).held, stamp (x.admitted carry e).held, true⟩ := by
  intro held stamp
  have hadmitted := admitted_of_scheduled h carry e
  have hnewer := (receipt_of_scheduled h carry e).newer
  obtain ⟨hfresh, -, -, -⟩ := record_flags cfg carry x e
  have hstale := record_staleness h carry e
  rw [h.base] at hadmitted
  have htick : (controlDict (x.record cfg carry e)).int .tick = (tickBase + x.n : ℕ) := by
    have hvalue : (controlDict (x.record cfg carry e)).int .tick =
        ((BitVec.ofNat 64 (x.r.tickBase + x.n)).toNat : ℤ) := rfl
    rw [hvalue, BitVec.toNat_ofNat, h.base, Nat.mod_eq_of_lt hroom]
  have hsensor : (controlDict (x.record cfg carry e)).int .sensorTick =
      (held (x.admitted carry e).held).getD 0xffffffffffffffff := by
    have hvalue : (controlDict (x.record cfg carry e)).int .sensorTick =
        ((((x.admitted carry e).held.map Freerun.observation).elim (BitVec.allOnes 64) fun o =>
          BitVec.ofNat 64 o.tick).toNat : ℤ) := rfl
    rw [hvalue]
    cases hheld : (x.admitted carry e).held with
    | none => rfl
    | some y =>
      have hpast := hadmitted.past y hheld
      change ((BitVec.ofNat 64 y.tick).toNat : ℤ) = (y.tick : ℤ)
      rw [BitVec.toNat_ofNat, Nat.mod_eq_of_lt (by omega)]
  have hstamp : (controlDict (x.record cfg carry e)).int .sensorSendNs = stamp (x.admitted carry e).held := by
    have hvalue : (controlDict (x.record cfg carry e)).int .sensorSendNs =
        ((x.admitted carry e).held.elim 0 Sample.sendNs).toInt := rfl
    rw [hvalue]
    cases (x.admitted carry e).held <;> rfl
  generalize controlDict (x.record cfg carry e) = r at *
  generalize x.admitted carry e = t at *
  generalize x.r.admission = s at *
  have hage : ((held t.held).elim (x.n + 1 : ℤ) fun y => ((tickBase + x.n : ℕ) : ℤ) - y) =
      ((t.held.elim (x.n + 1) fun y => tickBase + x.n - y.tick : ℕ) : ℤ) := by
    cases hheld : t.held with
    | none => rfl
    | some y =>
      have hpast := hadmitted.past y hheld
      exact (Int.ofNat_sub hpast).symm
  have hold : (if fresh r then some (r.int .sensorTick) else held s.held) = held t.held ∧
      (if fresh r then r.int .sensorSendNs else stamp s.held) = stamp t.held ∧
      (!fresh r || ((held s.held).all fun y => decide (y < r.int .sensorTick)) &&
        decide (r.int .sensorTick ≤ r.int .tick)) = true := by
    rw [hfresh, hstamp, hsensor, htick]
    cases hcycle : t.cycle.fresh with
    | none => rw [hadmitted.kept hcycle]; exact ⟨rfl, rfl, rfl⟩
    | some y =>
      have hheld := hadmitted.fresh y hcycle
      have hpast := hadmitted.past y hheld
      rw [hheld]
      refine ⟨rfl, rfl, ?_⟩
      have hbound : ((y.tick : ℤ) ≤ ((tickBase + x.n : ℕ) : ℤ)) := by omega
      cases hbefore : s.held with
      | none => simpa [held] using hbound
      | some z =>
        have hlater := hnewer y hcycle z hbefore
        simp [held, hlater]
        omega
  unfold History.step
  dsimp only
  rw [hold.1, hold.2.1, hold.2.2, htick, hage, hstale, hadmitted.staleness, hsensor, hstamp]
  simp [min_comm]

/-- A cycle keeps what the records tell. -/
theorem Told.run_turn {origin : ℤ} {events : List BodyEvent} (h : Told tickBase origin events x)
    (hscheduled : Scheduled cfg tickBase history x) (hlength : x.records.length = x.n) (hroom : tickBase + x.n < 2 ^ 64)
    (carry : Datagram) {e : BodyEvent} (hruns : x.Runs cfg e) :
    Told tickBase origin (events ++ [e]) (x.body cfg carry e) := by
  obtain ⟨errors, errno, refused, hbody⟩ := Loop.body_eq carry hruns
  rw [hbody]
  refine ⟨h.since, fun k r hr => ?_, ?_⟩
  · have hrecords : (x.records ++ [x.record cfg carry e])[k]? = some r := hr
    rcases Nat.lt_trichotomy k x.n with hk | hk | hk
    · rw [List.getElem?_append_left (hlength ▸ hk)] at hrecords
      obtain ⟨htick, hdeadline, hrx, e', he', hstamps⟩ := h.placed k r hrecords
      exact ⟨htick, hdeadline, hrx, e', List.mem_append_left _ he', hstamps⟩
    · obtain rfl : x.record cfg carry e = r := by
        rw [hk, ← hlength] at hrecords
        simpa using hrecords
      have hcounted : Freerun.Counted (x.admitted carry e).cycle (x.record cfg carry e) :=
        Freerun.counted_record (admitted_of_scheduled hscheduled carry e) ..
      refine ⟨?_, ?_, ?_, e, by simp, rfl, rfl, rfl, rfl⟩
      · rw [hk, ← hscheduled.base]
        rfl
      · rw [hk, ← h.since]
        rfl
      · rw [hcounted.rx, hk]
        exact (receipt_of_scheduled hscheduled carry e).rx
    · rw [List.getElem?_eq_none (by rw [List.length_append, List.length_singleton]; omega)] at hrecords
      exact absurd hrecords.symm (Option.some_ne_none r)
  · have hrows : rows (x.cycled cfg carry e errors errno refused) =
        rows x ++ [controlDict (x.record cfg carry e)] := List.map_append
    rw [hrows, List.foldl_append, h.held, List.foldl_cons, List.foldl_nil]
    exact held_step hscheduled hroom carry e

/-- The counters of the terminal reply. -/
structure Answered (r : Runtime) : Prop where
  partition : r.termAttempts = r.termSent + r.termFailed
  idle : r.terminalCycle = 0 → r.termAttempts = 0
  first : r.terminalCycle ≠ 0 → 1 ≤ r.termAttempts ∧ r.firstTerminalTxOk.toNat ≤ r.termSent ∧
    (!r.firstTerminalTxOk).toNat ≤ r.termFailed

omit [Arith F64] in
/-- One more copy of the terminal reply. -/
theorem Answered.copy {r : Runtime} (h : Answered r) (hended : r.terminalCycle ≠ 0) (e : Freerun.CopyEvent) :
    Answered (r.noteCopy e) := by
  obtain ⟨hattempts, hsent, hfailed⟩ := h.first hended
  have hpartition := h.partition
  refine ⟨?_, fun hzero => absurd hzero hended, fun _ => ?_⟩
  · simp only [Runtime.noteCopy]
    cases e.sent <;> simp <;> omega
  · simp only [Runtime.noteCopy]
    omega

omit [Arith F64] in
/-- Repeating the terminal reply keeps its counters. -/
theorem Answered.resent {r : Runtime} (h : Answered r) (hended : r.terminalCycle ≠ 0) (copies : ℕ → Freerun.CopyEvent)
    (left copy : ℕ) : Answered (Freerun.resendTerminal copies left copy r) := by
  induction left generalizing copy r with
  | zero => exact h
  | succ left ih =>
    unfold Freerun.resendTerminal
    split
    · exact h
    · exact ih (h.copy hended _) hended _

/-- The end of a loop, in its counters and in its last record. -/
structure Ending (x : Loop) : Prop where
  going : x.running = true → x.r.terminalCycle = 0
  cycle : x.r.terminalCycle = (rows x).countP terminated
  single : x.r.terminalCycle ≤ 1
  answered : Answered x.r
  last : x.r.terminalCycle ≠ 0 → ∃ r, x.records.getLast? = some r ∧ sent (controlDict r) = x.r.firstTerminalTxOk

/-- A cycle keeps the counters of the end. -/
theorem Ending.run_turn (h : Ending x) (carry : Datagram) {e : BodyEvent} (hruns : x.Runs cfg e) :
    Ending (x.body cfg carry e) := by
  obtain ⟨errors, errno, refused, hbody⟩ := Loop.body_eq carry hruns
  obtain ⟨-, hsent, -, -⟩ := record_flags cfg carry x e
  have hzero := h.going hruns.1
  have hidle := h.answered.idle hzero
  have hpartition := h.answered.partition
  have hcount := h.cycle
  have hended := record_terminated cfg carry x e
  have hrows : rows (x.cycled cfg carry e errors errno refused) =
      rows x ++ [controlDict (x.record cfg carry e)] := List.map_append
  rw [hbody]
  cases hends : x.ends cfg carry e with
  | false =>
    rw [hends] at hended
    refine ⟨fun _ => ?_, ?_, ?_, ⟨?_, fun _ => ?_, fun hone => ?_⟩, fun hone => ?_⟩
    · simpa [Loop.cycled, hends] using hzero
    · rw [hrows, List.countP_append, List.countP_singleton, hended, ← hcount]
      simp [Loop.cycled, hends]
    · simpa [Loop.cycled, hends] using h.single
    · simpa [Loop.cycled, hends] using hpartition
    · simpa [Loop.cycled, hends] using hidle
    · exact absurd (by simpa [Loop.cycled, hends] using hzero) hone
    · exact absurd (by simpa [Loop.cycled, hends] using hzero) hone
  | true =>
    rw [hends] at hended
    refine ⟨fun hrunning => ?_, ?_, ?_, ⟨?_, fun hnone => ?_, fun _ => ?_⟩, fun _ => ⟨x.record cfg carry e, ?_, ?_⟩⟩
    · simp [Loop.cycled, hends] at hrunning
    · rw [hrows, List.countP_append, List.countP_singleton, hended, ← hcount, hzero]
      simp [Loop.cycled, hends]
    · simp [Loop.cycled, hends]
    · simp only [Loop.cycled, hends, if_true, Bool.true_and]
      cases e.sent <;> simp <;> omega
    · simp [Loop.cycled, hends] at hnone
    · simp only [Loop.cycled, hends, if_true, Bool.true_and]
      omega
    · exact List.getLast?_concat ..
    · simpa [Loop.cycled, hends] using hsent

/-- What every run leaves for the audit. -/
structure Audited (cfg : Config) (tickBase : ℕ) (origin : ℤ) (events : List BodyEvent) (x : Loop) : Prop where
  tallied : Tallied cfg x
  measured : Measured cfg x
  told : Told tickBase origin events x
  ending : Ending x

/-- One more body keeps it. -/
theorem Audited.turn {origin : ℤ} {events : List BodyEvent} (h : Audited cfg tickBase origin events x)
    (hscheduled : Scheduled cfg tickBase history x) (hroom : tickBase + cfg.total ≤ 2 ^ 64) (carry : Datagram)
    (e : BodyEvent) : Audited cfg tickBase origin (events ++ [e]) (x.body cfg carry e) := by
  have hgrown : Told tickBase origin (events ++ [e]) x := by
    refine ⟨h.told.since, fun k r hr => ?_, h.told.held⟩
    obtain ⟨htick, hdeadline, hrx, e', he', hstamps⟩ := h.told.placed k r hr
    exact ⟨htick, hdeadline, hrx, e', List.mem_append_left _ he', hstamps⟩
  by_cases hruns : x.Runs cfg e
  · have hlength := h.tallied.length
    have hn := hruns.2.1
    exact ⟨h.tallied.run_turn hscheduled carry hruns, h.measured.run_turn hlength carry hruns,
      h.told.run_turn hscheduled hlength (by omega) carry hruns, h.ending.run_turn carry hruns⟩
  · by_cases hover : x.running = false ∨ cfg.total ≤ x.n
    · rw [Loop.body_of_over carry hover]
      exact ⟨h.tallied, h.measured, hgrown, h.ending⟩
    · rw [not_or, Bool.not_eq_false, not_le] at hover
      rw [Loop.body_of_failed carry hover.1 hover.2 fun hslept => hruns ⟨hover.1, hover.2, hslept⟩]
      obtain ⟨hlength, hwarmup, hepisode, hrecorded, hsent, hfailed, hpushed, hcycles, hwakeups, hdiscards⟩ := h.tallied
      obtain ⟨hserved, huplink, hcompute⟩ := h.measured
      obtain ⟨hsince, hplaced, hheld⟩ := hgrown
      obtain ⟨-, hcycle, hsingle, hanswered, hlast⟩ := h.ending
      exact ⟨⟨hlength, hwarmup, hepisode, hrecorded, hsent, hfailed, hpushed, hcycles, hwakeups, hdiscards⟩,
        ⟨hserved, huplink, hcompute⟩, ⟨hsince, hplaced, hheld⟩,
        ⟨fun hgoing => absurd hgoing Bool.false_ne_true, hcycle, hsingle,
          ⟨hanswered.partition, hanswered.idle, hanswered.first⟩, hlast⟩⟩

/-- What every scheduled run leaves for the audit. -/
theorem audited_run (cfg : Config) {tickBase : ℕ} (hroom : tickBase + cfg.total ≤ 2 ^ 64) (origin : ℤ) (carry : Datagram)
    (events : List BodyEvent) : Audited cfg tickBase origin events (Loop.run cfg tickBase origin carry events) := by
  induction events using List.reverseRecOn with
  | nil =>
    refine ⟨⟨rfl, rfl, .nil, ?_, rfl, rfl, rfl, rfl, ?_, rfl⟩, ?_, ⟨rfl, nofun, rfl⟩,
      ⟨fun _ => rfl, rfl, Nat.zero_le _, ⟨rfl, fun _ => rfl, fun hone => absurd rfl hone⟩, fun hone => absurd rfl hone⟩⟩
    · have hrows : (rows (Loop.run cfg tickBase origin carry [])).drop cfg.warmup = [] := List.drop_nil
      rw [hrows]
      exact .nil
    · exact (Nat.zero_sub _).symm
    · have hrecords : servedRecords cfg (Loop.run cfg tickBase origin carry []) = [] := by
        rw [servedRecords]
        exact congrArg (List.filter _) List.drop_nil
      exact ⟨by rw [hrecords]; rfl, by rw [hrecords]; rfl, by rw [hrecords]; rfl⟩
  | append_singleton events e ih =>
    rw [Loop.run, List.foldl_append]
    exact ih.turn (Freerun.scheduled_run cfg tickBase origin carry events) hroom carry e

end Tvc.Latency
