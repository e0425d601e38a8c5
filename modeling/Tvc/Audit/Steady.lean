import Tvc.Audit.Acceptance
import Tvc.Freerun.Nominal
import Tvc.Lockstep.Wrap

/-!
# What the audit also asks

A run in which nothing moves: each cycle receives the frame of its tick, a valid sample at rest, and sends its
command. All cycles begin `late` after their deadlines, and all frames were stamped `age` before their receipt.
The run shows that an honest run is accepted, and that the order of the clock and the range of the single
intervals do not suffice: a wake-up can be later than the histograms hold, and the sum of many latencies can
leave 64 bits.
-/

namespace Tvc.Latency

open Freerun
open Telem (ControlRecord)

attribute [local instance] ieee

/-- The time at which a cycle does all that it does. -/
def restTime (late : ℤ) (n : ℕ) : ℤ := 10000000000 + n * kPeriodNs + late

/-- The frame of a cycle. -/
def restFrame (late age : ℤ) (n : ℕ) : Frame :=
  .ofFields ⟨BitVec.ofNat 64 n, BitVec.ofInt 64 (restTime late n - age), ⟨0⟩, ⟨0⟩, 1, 0, 0⟩

/-- A cycle at rest; the frame of the first one is carried to it. -/
def restBody (late age : ℤ) (n : ℕ) : BodyEvent where
  wokeNs := restTime late n
  rxNs := restTime late n
  policyStartedNs := restTime late n
  terminatedNs := restTime late n
  beforeSendNs := restTime late n
  txNs := restTime late n
  doneNs := restTime late n
  received := .ok (if n = 0 then ⟨[], Freerun.batch_empty⟩ else ⟨[.ofFrame 0 (restFrame late age n)], by simp [kBatchSize]⟩)
  stop := false
  sent := true
  pushed := true

/-- The configuration of a run at rest. -/
def restConfig (cycles : ℕ) : RunConfig where
  cycles
  warmup := 0
  skewMax := 4
  skew_le := Freerun.skew_default
  terminalCopies := 1

/-- A process at rest. -/
def restEnvironment (late age : ℤ) (moves : List Recorder.Move) : Freerun.Environment 1 ControlRecord where
  monoNs := 0
  epochNs := 0
  linked := false
  memoryOk := true
  cpuOk := true
  fifoOk := true
  received := .ok (.ofFrame 0 (restFrame late age 0))
  connected := true
  arrival := 9999600000
  bodies := restBody late age
  copies _ := ⟨false, 0, true, 0⟩
  stop := false
  slots _ _ := {}
  moves
  closed := true
  wrote := true
  csvs := true
  stopAtExit := false

/-- The origin of a run at rest. -/
def restOrigin (late age : ℤ) : Origin := ⟨.ofFrame 0 (restFrame late age 0), 0, 10000000000⟩

variable {late age : ℤ} {cycles k : ℕ} {x : Loop}

/-- The stamp and the receipt of a cycle's frame. -/
def restWait (late age : ℤ) (n : ℕ) : U64 × U64 :=
  (BitVec.ofInt 64 (restTime late n - age), BitVec.ofInt 64 (restTime late n))

/-- The receipt and the send of a cycle. -/
def restCompute (late : ℤ) (n : ℕ) : U64 × U64 :=
  (BitVec.ofInt 64 (restTime late n), BitVec.ofInt 64 (restTime late n))

/-- What the measurements of a run at rest hold after some cycles. -/
structure Timed (late age : ℤ) (k : ℕ) (x : Loop) : Prop where
  n : x.n = k
  origin : x.r.origin = 10000000000
  drops : x.drops = 0
  previous : x.previousWoke = if k = 0 then 0 else restTime late (k - 1)
  served : x.r.served = (List.range k).map (restWait late age)
  uplinkWait : x.r.uplinkWait = (List.range k).map (restWait late age)
  compute : x.r.compute = (List.range k).map (restCompute late)
  discarded : x.r.discarded = []
  wakeups : x.wakeups = List.replicate k (late, 0, 0)

/-- A loop at rest before a cycle. -/
structure Rests (k : ℕ) (x : Loop) : Prop where
  quiet : Admission.Quiet k x.r.admission
  base : x.r.tickBase = 0
  unseen : x.r.simSeen = none
  running : x.running = true
  mode : x.r.state.mode = .init
  pending : x.r.state.pending = none
  autoArm : x.r.state.autoArm = false

/-- The frame of a cycle is received as a valid finite sample of its tick. -/
theorem restFrame_usable (late age : ℤ) (hk : k < 2 ^ 64) :
    (restFrame late age k).tick = k ∧ (restFrame late age k).terminal = false ∧ (restFrame late age k).valid = true ∧
      (restFrame late age k).finite = true := by
  have htick : (restFrame late age k).tick = (BitVec.ofNat 64 k).toNat := rfl
  refine ⟨?_, ?_, ?_, ?_⟩
  · rw [htick, BitVec.toNat_ofNat, Nat.mod_eq_of_lt hk]
  · exact (by decide : ((1 &&& 0x0000ff07 : U32) &&& 2 != 0) = false)
  · exact (by decide : ((1 &&& 0x0000ff07 : U32) &&& 1 != 0) = true)
  · exact (by decide : (Classify.isFinite (⟨0⟩ : F64) && Classify.isFinite (⟨0⟩ : F64)) = true)

/-- The datagrams of a cycle at rest. -/
theorem restBody_datagrams (late age : ℤ) (k : ℕ) :
    datagramsOf k (.ofFrame 0 (restFrame late age 0)) (restBody late age k) = [.ofFrame 0 (restFrame late age k)] := by
  by_cases hk : k = 0
  · subst hk
    rfl
  · simp [datagramsOf, batchOf, restBody, hk]

/-- The admission of a cycle at rest takes its frame. -/
theorem Rests.admitted (h : Rests k x) (ht : Timed late age k x) (hk : k < 2 ^ 64) :
    let t := x.admitted (.ofFrame 0 (restFrame late age 0)) (restBody late age k)
    Admission.Quiet (k + 1) t ∧ t.held = some (restFrame late age k).sample ∧
      t.cycle.fresh = some (restFrame late age k).sample ∧ t.cycle.terminal = none ∧ t.cycle.discards = [] ∧
      t.cycle.staleness = 0 := by
  intro t
  have heq : t = (Machine.run Admission.call x.r.admission (cycleCalls k [.ofFrame 0 (restFrame late age k)])).1 := by
    unfold t Loop.admitted
    rw [ht.n, restBody_datagrams, h.base, Nat.zero_add]
  have hframe := restFrame_usable late age hk
  have hframes : [Datagram.ofFrame 0 (restFrame late age k)].map Datagram.frame =
      (some (restFrame late age k)).toList.map .ok := by
    rw [List.map_singleton, Datagram.frame_ofFrame]
    rfl
  obtain ⟨hquiet, hheld, hfresh, hterminal, hdiscards⟩ := h.quiet.cycle hframes fun f hf => Option.some.inj hf ▸ hframe
  obtain ⟨-, hadmitted⟩ := h.quiet.between.cycle [Datagram.ofFrame 0 (restFrame late age k)]
  rw [Nat.zero_add, ← heq] at hadmitted
  rw [← heq] at hquiet hheld hfresh hterminal hdiscards
  refine ⟨hquiet, hheld, hfresh, hterminal, hdiscards, ?_⟩
  have hsame : (restFrame late age k).sample.tick = k := hframe.1
  rw [hadmitted.staleness, hheld, Option.map_some, Option.some_or, Option.elim_some, hsame, Nat.sub_self]
  rfl

/-- The input of a cycle at rest. -/
theorem Rests.input (cycles : ℕ) (h : Rests k x) (ht : Timed late age k x) (hk : k < 2 ^ 64) :
    x.input (restConfig cycles).toConfig (.ofFrame 0 (restFrame late age 0)) (restBody late age k) =
      ⟨k, some ⟨k, ⟨0⟩, ⟨0⟩, true⟩, true, 0, none, k + 1 == cycles, none, none⟩ := by
  obtain ⟨-, hheld, hfresh, hterminal, -, hstaleness⟩ := h.admitted ht hk
  have hsample : (restFrame late age k).sample.tick = k := (restFrame_usable late age hk).1
  unfold Loop.input inputsOf
  rw [hheld, hfresh, hterminal, hstaleness, h.unseen, h.base, ht.n, Nat.zero_add, Option.map_some, hsample]
  rfl

/-- A cycle at rest measures a served sample, with nothing discarded. -/
theorem Rests.timed (h : Rests k x) (ht : Timed late age k x) (hk : k < 2 ^ 64)
    (hruns : x.Runs (restConfig cycles).toConfig (restBody late age k)) :
    Timed late age (k + 1)
      (x.body (restConfig cycles).toConfig (.ofFrame 0 (restFrame late age 0)) (restBody late age k)) := by
  obtain ⟨-, hheld, hfresh, -, hdiscards, -⟩ := h.admitted ht hk
  obtain ⟨-, -, -, hflag⟩ := record_flags (restConfig cycles).toConfig (.ofFrame 0 (restFrame late age 0)) x
    (restBody late age k)
  rw [hfresh] at hflag
  have hflag : ((x.record (restConfig cycles).toConfig (.ofFrame 0 (restFrame late age 0)) (restBody late age k)).flags
      &&& 3 == 3) = true := hflag
  have hstamp : (x.record (restConfig cycles).toConfig (.ofFrame 0 (restFrame late age 0)) (restBody late age k)).sensorSendNs =
      BitVec.ofInt 64 (restTime late k - age) := by
    change (x.admitted _ _).held.elim 0 Sample.sendNs = _
    rw [hheld]
    rfl
  have hwindow : decide ((restConfig cycles).warmup ≤ x.n) = true := decide_eq_true (Nat.zero_le _)
  obtain ⟨errors, errno, refused, heq⟩ := Loop.body_eq (.ofFrame 0 (restFrame late age 0)) hruns
  rw [heq]
  have hserved : x.r.served ++ [restWait late age k] = (List.range (k + 1)).map (restWait late age) := by
    rw [ht.served, List.range_succ, List.map_append, List.map_singleton]
  have hwait : x.r.uplinkWait ++ [restWait late age k] = (List.range (k + 1)).map (restWait late age) := by
    rw [ht.uplinkWait, List.range_succ, List.map_append, List.map_singleton]
  have hcompute : x.r.compute ++ [restCompute late k] = (List.range (k + 1)).map (restCompute late) := by
    rw [ht.compute, List.range_succ, List.map_append, List.map_singleton]
  have hinterval : (if x.previousWoke != 0 then restTime late k - x.previousWoke - kPeriodNs else 0) = 0 := by
    rw [ht.previous]
    unfold restTime kPeriodNs
    by_cases hzero : k = 0
    · simp [hzero]
    · rw [if_neg hzero]
      split <;> omega
  constructor
  · exact congrArg (· + 1) ht.n
  · exact ht.origin
  · exact ht.drops
  · rfl
  · dsimp only [Loop.cycled]
    rw [hwindow, hflag, hstamp]
    exact hserved
  · dsimp only [Loop.cycled]
    rw [hwindow, hflag, hstamp]
    exact hwait
  · dsimp only [Loop.cycled]
    rw [hwindow, hflag]
    exact hcompute
  · dsimp only [Loop.cycled]
    rw [hwindow, hdiscards, ht.discarded]
    rfl
  · dsimp only [Loop.cycled]
    rw [hwindow, if_pos rfl, ht.wakeups, List.replicate_succ']
    refine congrArg (List.replicate k (late, 0, 0) ++ [·]) ?_
    refine Prod.ext ?_ (Prod.ext hinterval (Int.sub_self _))
    change restTime late k - (x.r.origin + x.n * kPeriodNs) = late
    rw [ht.origin, ht.n, restTime]
    omega

/-- A cycle at rest before the last one leaves the loop at rest. -/
theorem Rests.turn (h : Rests k x) (ht : Timed late age k x) (hk : k < 2 ^ 64) (hbefore : k + 1 ≠ cycles)
    (hruns : x.Runs (restConfig cycles).toConfig (restBody late age k)) :
    Rests (k + 1) (x.body (restConfig cycles).toConfig (.ofFrame 0 (restFrame late age 0)) (restBody late age k)) := by
  obtain ⟨hquiet, -, -, hterminal, -, -⟩ := h.admitted ht hk
  have hinput := h.input cycles ht hk
  rw [beq_false_of_ne hbefore] at hinput
  have hstep := Lockstep.step_waiting h.mode h.pending h.autoArm
    (i := x.input (restConfig cycles).toConfig (.ofFrame 0 (restFrame late age 0)) (restBody late age k))
    (by rw [hinput]; exact Lockstep.quiet_reason k _ none) (by rw [hinput])
  obtain ⟨errors, errno, refused, heq⟩ := Loop.body_eq (.ofFrame 0 (restFrame late age 0)) hruns
  have hstate : x.output (restConfig cycles).toConfig (.ofFrame 0 (restFrame late age 0)) (restBody late age k) = _ := hstep
  rw [heq]
  constructor
  · exact hquiet
  · exact h.base
  · dsimp only [Loop.cycled]
    rw [hterminal, h.unseen]
    rfl
  · dsimp only [Loop.cycled, Loop.ends]
    rw [hstate, h.mode]
    rfl
  · dsimp only [Loop.cycled]
    rw [hstate]
    exact h.mode
  · dsimp only [Loop.cycled]
    rw [hstate]
    exact h.pending
  · dsimp only [Loop.cycled]
    rw [hstate]
    exact h.autoArm

/-- The cycles of a run at rest. -/
theorem rest_run (late age : ℤ) {cycles k : ℕ} (hroom : cycles ≤ 2 ^ 64) (hk : k ≤ cycles) :
    let x := Loop.run (restConfig cycles).toConfig 0 10000000000 (.ofFrame 0 (restFrame late age 0))
      ((List.range k).map (restBody late age))
    Timed late age k x ∧ (k < cycles → Rests k x) := by
  induction k with
  | zero =>
    refine ⟨⟨rfl, rfl, rfl, rfl, rfl, rfl, rfl, rfl, rfl⟩, fun _ => ⟨?_, rfl, rfl, rfl, rfl, rfl, rfl⟩⟩
    exact Admission.quiet_initial (restConfig cycles).skew_le 0
  | succ k ih =>
    obtain ⟨htimed, hrests⟩ := ih (by omega)
    have hrests := hrests (by omega)
    have hruns : (Loop.run (restConfig cycles).toConfig 0 10000000000 (.ofFrame 0 (restFrame late age 0))
        ((List.range k).map (restBody late age))).Runs (restConfig cycles).toConfig (restBody late age k) := by
      refine ⟨hrests.running, ?_, .inl rfl⟩
      rw [htimed.n]
      exact hk
    intro x
    have hx : x = (Loop.run (restConfig cycles).toConfig 0 10000000000 (.ofFrame 0 (restFrame late age 0))
        ((List.range k).map (restBody late age))).body (restConfig cycles).toConfig (.ofFrame 0 (restFrame late age 0))
          (restBody late age k) := by
      simp only [x, Loop.run, List.range_succ, List.map_append, List.map_singleton, List.foldl_append, List.foldl_cons,
        List.foldl_nil]
    rw [hx]
    exact ⟨hrests.timed htimed (by omega) hruns, fun hbefore => hrests.turn htimed (by omega) (by omega) hruns⟩

/-! ## The process -/

variable (moves : List Recorder.Move)

/-- The process takes its origin from the first frame. -/
theorem rest_origin (late age : ℤ) (hcycles : cycles ≤ 2000000000) :
    (restEnvironment late age moves).origin (restConfig cycles) = some (restOrigin late age) := by
  have htick := (restFrame_usable late age (by decide : 0 < 2 ^ 64)).1
  have hfirst : (restEnvironment late age moves).firstOrigin (restConfig cycles) = some (restOrigin late age) := by
    have hready : (restEnvironment late age moves).rtOk (restConfig cycles) = true := rfl
    have hreceived : (restEnvironment late age moves).received = .ok (.ofFrame 0 (restFrame late age 0)) := rfl
    have hconnected : (restEnvironment late age moves).connected = true := rfl
    have harrival : (restEnvironment late age moves).arrival + (restConfig cycles).phaseUs * 1000 = 10000000000 := by
      change (9999600000 : ℤ) + 400 * 1000 = 10000000000
      norm_num
    rw [Freerun.Environment.firstOrigin, if_pos hready]
    unfold originOf
    rw [hreceived]
    dsimp only
    rw [Datagram.frame_ofFrame]
    dsimp only
    rw [if_pos hconnected, harrival, htick, restOrigin]
  have hfits : (restOrigin late age).fits (restConfig cycles) = true := by
    have htotal : (restConfig cycles).total = cycles := Nat.add_zero cycles
    have hbase : (restOrigin late age).tickBase = 0 := rfl
    have horigin : (restOrigin late age).origin = 10000000000 := rfl
    have hcopies : (restConfig cycles).terminalCopies = 1 := rfl
    rw [Origin.fits, htotal, hbase, horigin, hcopies, Bool.and_eq_true, decide_eq_true_eq, decide_eq_true_eq]
    unfold UINT64_MAX INT64_MAX kPeriodNs
    omega
  rw [Freerun.Environment.origin, hfirst, Option.filter_some, hfits, if_pos rfl]

/-- What the process measures. -/
theorem rest_timed (late age : ℤ) (hcycles : cycles ≤ 2000000000) :
    Timed late age cycles ((restEnvironment late age moves).loop (restConfig cycles) (restOrigin late age)) :=
  (rest_run late age (by omega) le_rfl).1

/-- The process sends its terminal reply once. -/
theorem rest_runtime (late age : ℤ) (hcycles : cycles ≤ 2000000000) :
    (restEnvironment late age moves).runtime (restConfig cycles) =
      ((restEnvironment late age moves).loop (restConfig cycles) (restOrigin late age)).r := by
  unfold Freerun.Environment.runtime
  rw [rest_origin moves late age hcycles]
  exact ite_self _

/-- The process ends by termination. -/
theorem rest_ends (late age : ℤ) (hpositive : 0 < cycles) (hcycles : cycles ≤ 2000000000) :
    ((restEnvironment late age moves).runtime (restConfig cycles)).state.mode = .terminated := by
  rw [rest_runtime moves late age hcycles]
  have hlength : ((restEnvironment late age moves).events (restConfig cycles)).length = (restConfig cycles).total := by
    rw [Freerun.Environment.events, List.length_map, List.length_range]
  rcases Loop.ends_by_horizon (restConfig cycles).toConfig 0 10000000000 (.ofFrame 0 (restFrame late age 0)) hpositive
    hlength with hended | ⟨-, e, he, hslept⟩
  · exact hended.1
  · obtain ⟨n, -, rfl⟩ := List.mem_map.mp he
    exact absurd (.inl rfl) hslept

/-- The stamp of a cycle's frame is its age before the receipt. -/
theorem restWait_forward {n : ℕ} (hlate : 0 ≤ late) (hhigh : late ≤ 20000000000) (hage : 0 ≤ age)
    (hrange : age ≤ kHighest) (hn : n < 2000000000) :
    Forward (restWait late age n) ∧ span (restWait late age n) = age := by
  have hnow : restTime late n = 10000000000 + n * 2000000 + late := rfl
  have hhighest : kHighest = 10000000000 := by norm_num [kHighest]
  have hlimit : INT64_MAX = 9223372036854775807 := by norm_num [INT64_MAX]
  have hstamp : (BitVec.ofInt 64 (restTime late n - age)).toInt = restTime late n - age :=
    toInt_ofInt (by omega) (by omega)
  have htime : (BitVec.ofInt 64 (restTime late n)).toInt = restTime late n := toInt_ofInt (by omega) (by omega)
  unfold Forward span restWait
  dsimp only
  rw [hstamp, htime]
  omega

/-- The process is honest. -/
theorem rest_honest (hlate : 0 ≤ late) (hhigh : late ≤ 20000000000) (hage : 0 ≤ age) (hrange : age ≤ kHighest)
    (hcycles : cycles ≤ 2000000000) :
    Honest (restEnvironment late age moves) (restConfig cycles) (restOrigin late age) := by
  have htimed := rest_timed moves late age hcycles
  have hwait : ∀ i ∈ (List.range cycles).map (restWait late age), Forward i ∧ span i ≤ kHighest := by
    intro i hi
    obtain ⟨n, hn, rfl⟩ := List.mem_map.mp hi
    have hn := List.mem_range.mp hn
    obtain ⟨hforward, hspan⟩ := restWait_forward (n := n) hlate hhigh hage hrange (by omega)
    exact ⟨hforward, hspan.trans_le hrange⟩
  constructor
  · exact rest_origin moves late age hcycles
  · rw [Freerun.Environment.drops, rest_origin moves late age hcycles]
    exact htimed.drops
  · exact (by decide : (0 : ℤ) ≤ 9999600000)
  · exact (by decide : (0 : ℤ) < 400)
  · intro n hn
    have hn : n < cycles := hn
    constructor
    · change 0 ≤ restTime late n
      unfold restTime kPeriodNs
      omega
    · exact le_rfl
    · exact le_rfl
    · exact le_rfl
    · change restTime late n ≤ INT64_MAX
      unfold restTime kPeriodNs INT64_MAX
      omega
  · rw [rest_runtime moves late age hcycles, htimed.uplinkWait]
    exact fun i hi => (hwait i hi).1
  · rw [rest_runtime moves late age hcycles, htimed.discarded]
    exact List.forall_mem_nil _
  · rw [rest_runtime moves late age hcycles, htimed.served, htimed.uplinkWait, htimed.compute, htimed.discarded,
      List.append_nil]
    intro i hi
    rcases List.mem_append.mp hi with hi | hi
    · rcases List.mem_append.mp hi with hi | hi <;> exact (hwait i hi).2
    · obtain ⟨n, -, rfl⟩ := List.mem_map.mp hi
      exact (Int.sub_self _).trans_le (by decide)

/-- The wake-ups of the process. -/
theorem rest_wakeups (late age : ℤ) (hcycles : cycles ≤ 2000000000) :
    (restEnvironment late age moves).wakeups (restConfig cycles) = List.replicate cycles (late, 0, 0) := by
  rw [Freerun.Environment.wakeups, rest_origin moves late age hcycles]
  exact (rest_timed moves late age hcycles).wakeups

/-- The latencies of the process add up to its cycles times the age. -/
theorem rest_latencies (hlate : 0 ≤ late) (hhigh : late ≤ 20000000000) (hage : 0 ≤ age) (hrange : age ≤ kHighest)
    (hcycles : cycles ≤ 2000000000) :
    (((restEnvironment late age moves).runtime (restConfig cycles)).served.map span).sum = cycles * age := by
  rw [rest_runtime moves late age hcycles, (rest_timed moves late age hcycles).served, List.map_map]
  have hconst : (List.range cycles).map (span ∘ restWait late age) = List.replicate cycles age := by
    refine List.eq_replicate_iff.mpr ⟨by simp, fun i hi => ?_⟩
    obtain ⟨n, hn, rfl⟩ := List.mem_map.mp hi
    exact (restWait_forward hlate hhigh hage hrange (by have := List.mem_range.mp hn; omega)).2
  rw [hconst, List.sum_replicate, nsmul_eq_mul]

/-- Some order of the threads records a cycle at rest without a drop or a failed write. -/
theorem rest_recorded (late age : ℤ) : ∃ moves,
    let env := restEnvironment late age moves
    let s := env.recorder Recorder.wholeImage (restConfig 1)
    s.drain.phase = .finished ∧ s.answers = env.pushed (restConfig 1) ∧ s.drain.writeFailed = false := by
  have hpushing : ∀ move ∈ List.replicate 3 Recorder.Move.control, move.Stores := by
    intro move hmove
    rw [List.eq_of_mem_replicate hmove]
    trivial
  have hpushed (moves : List Recorder.Move) : (restEnvironment late age moves).pushed (restConfig 1) = [true] := by
    have hruns : (Loop.initial (restConfig 1).toConfig 0 10000000000).Runs (restConfig 1).toConfig (restBody late age 0) :=
      ⟨rfl, Nat.one_pos, .inl rfl⟩
    rw [Freerun.Environment.pushed, rest_origin moves late age (by omega), Option.map_some, Option.getD_some]
    change ((if (Loop.initial (restConfig 1).toConfig 0 10000000000).Runs (restConfig 1).toConfig (restBody late age 0)
      then [restBody late age 0] else []) ++ []).map BodyEvent.pushed = [true]
    rw [if_pos hruns]
    rfl
  -- The cycle has one record, whatever the order of the threads.
  obtain ⟨r, hrecords, hfits⟩ : ∃ r, (∀ moves, (restEnvironment late age moves).records (restConfig 1) = [r]) ∧
      ∀ c ∈ [r], Telem.FittingCounts c := by
    have hkept := audited_run (restConfig 1).toConfig (show 0 + (restConfig 1).toConfig.total ≤ 2 ^ 64 by decide) 10000000000
      (.ofFrame 0 (restFrame late age 0)) ((List.range 1).map (restBody late age))
    obtain ⟨history, hserved⟩ := (restEnvironment late age []).served (restConfig 1) (restOrigin late age)
    have hlength := hkept.tallied.length
    rw [((rest_run late age (by omega : 1 ≤ 2 ^ 64) le_rfl).1).n] at hlength
    obtain ⟨r, hr⟩ := List.length_eq_one_iff.mp hlength
    refine ⟨r, fun moves => ?_, hr ▸ hserved.scheduled.fitting⟩
    rw [Freerun.Environment.records, rest_origin moves late age (by omega), Option.map_some, Option.getD_some]
    exact hr
  obtain ⟨more, hstores, hfinished⟩ := Recorder.can_end Recorder.wholeImage
    (Telem.encodeRecordingHeader 0 0 Telem.kControlV1SchemaHash) false hfits (fun _ _ => {}) hpushing
  refine ⟨List.replicate 3 .control ++ more, ?_⟩
  dsimp only
  rw [hpushed, Freerun.Environment.recorder, hrecords]
  obtain ⟨q, cached, written, hinv⟩ := Recorder.inv_run Recorder.wholeImage
    (Telem.encodeRecordingHeader 0 0 Telem.kControlV1SchemaHash) false hfits (fun _ _ => {}) _ (.inl hstores)
  refine ⟨hfinished, ?_, Recorder.unfailing_run _ _ hfits _ hstores⟩
  have hfirst : (Recorder.run Recorder.wholeImage
      (Recorder.initial (fun _ _ => {}) (Telem.encodeRecordingHeader 0 0 Telem.kControlV1SchemaHash) false [r])
      (List.replicate 3 .control)).answers = [true] := by
    generalize Telem.encodeRecordingHeader 0 0 Telem.kControlV1SchemaHash = header
    have hopened : (Recorder.controlStep Recorder.wholeImage
        (Recorder.initial (fun _ _ => {}) header false [r])).ring.producer =
          .write (Recorder.wholeImage.store (Recorder.stamped r 0)) 0 0 := by
      have hroom : ¬((0 : U64) - 0 == BitVec.ofNat 64 SpscRing.kSlots) = true := by decide
      rw [Recorder.controlStep]
      simp only [Recorder.initial, SpscRing.initial]
      rw [SpscRing.tryPush]
      simp only
      rw [if_neg hroom]
    obtain ⟨hcopying, hcopied⟩ := Recorder.control_writing Recorder.wholeImage hopened
    obtain ⟨hanswered, -⟩ := Recorder.control_writing Recorder.wholeImage hcopied
    exact hanswered.trans (congrArg (· ++ [true]) hcopying)
  have hanswers := Recorder.answers_run Recorder.wholeImage (Recorder.run Recorder.wholeImage
    (Recorder.initial (fun _ _ => {}) (Telem.encodeRecordingHeader 0 0 Telem.kControlV1SchemaHash) false [r])
      (List.replicate 3 .control)) more
  rw [hfirst, ← Recorder.run_append] at hanswers
  exact (hanswers.eq_of_length (hinv.complete hfinished).1.symm).symm

/-! ## What is accepted and what is refused -/

/-- The audit accepts one cycle at rest, recorded by some order of the threads. -/
theorem honest_rest_accepted : ∃ moves,
    let env := restEnvironment 0 0 moves
    let cfg := restConfig 1
    let s := env.recorder Recorder.wholeImage cfg
    (validate (env.summary (fun _ => true) cfg ⟨s.drain.records, env.drops cfg⟩) (controls env cfg)).errors = [] := by
  obtain ⟨moves, hfinished, hanswered, hwritten⟩ := rest_recorded 0 0
  have hhighest : kHighest = 10000000000 := by norm_num [kHighest]
  refine ⟨moves, honest_run_accepted Recorder.wholeImage _ _ _ (fun _ _ _ => rfl)
    (rest_honest moves (by omega) (by omega) (by omega) (by omega) (by omega)) hfinished hanswered hwritten ?_ ?_ ?_⟩
  · rw [rest_wakeups moves 0 0 (by omega)]
    intro v hv
    rw [List.eq_of_mem_replicate hv, WakeupFits, hhighest]
    exact ⟨by norm_num, by norm_num, by norm_num⟩
  · rw [rest_latencies moves (by omega) (by omega) (by omega) (by omega) (by omega)]
    exact Int.natCast_nonneg _
  · rw [rest_runtime moves 0 0 (by omega), (rest_timed moves 0 0 (by omega)).discarded]
    exact Int.natCast_nonneg _

/-- The values that a histogram of 10 s takes: its buckets reach to 2 ^ 34 ns. -/
def histogramTakes (ns : ℤ) : Bool := decide (0 ≤ ns) && decide (ns < 2 ^ 34)

/-- The histograms take what is asked of them. -/
theorem covers_histogramTakes : Covers histogramTakes := by
  intro ns hlow hhigh
  have hhighest : kHighest = 10000000000 := by norm_num [kHighest]
  rw [histogramTakes, Bool.and_eq_true, decide_eq_true_eq, decide_eq_true_eq]
  omega

/-- An accepted run has wake-ups that the histograms take, and latencies whose sum fits 64 bits. -/
theorem fits_of_accepted {width : ℕ} {β : Type} {env : Freerun.Environment width β} {cfg : RunConfig} {hdr : ℤ → Bool}
    {telemetry : TelemetrySummary} {records : List Wire.Fields}
    (h : (validate (env.summary hdr cfg telemetry) records).errors = []) :
    (∀ v ∈ env.wakeups cfg, hdr (clamped v.1) = true) ∧ ((env.runtime cfg).served.map span).sum ≤ UINT64_MAX := by
  obtain ⟨hsamples, hlatency⟩ := undropped_of_accepted h
  exact ⟨loopStats_taken hdr hsamples, (distribution_total hdr hlatency).2⟩

/-- Of two honest runs that end by termination the audit refuses one because its wake-ups are 20 s late, and the
other, whose wake-ups are on time, because its latencies of 10 s add up to more than 64 bits hold. -/
theorem honest_runs_refused : Covers histogramTakes ∧ ∀ (moves : List Recorder.Move) (telemetry : TelemetrySummary),
    (Honest (restEnvironment 20000000000 0 moves) (restConfig 1000) (restOrigin 20000000000 0) ∧
      ((restEnvironment 20000000000 0 moves).runtime (restConfig 1000)).state.mode = .terminated ∧
      (validate ((restEnvironment 20000000000 0 moves).summary histogramTakes (restConfig 1000) telemetry)
        (controls (restEnvironment 20000000000 0 moves) (restConfig 1000))).errors ≠ []) ∧
    Honest (restEnvironment 0 10000000000 moves) (restConfig 2000000000) (restOrigin 0 10000000000) ∧
      ((restEnvironment 0 10000000000 moves).runtime (restConfig 2000000000)).state.mode = .terminated ∧
      (∀ v ∈ (restEnvironment 0 10000000000 moves).wakeups (restConfig 2000000000), WakeupFits v) ∧
      (validate ((restEnvironment 0 10000000000 moves).summary histogramTakes (restConfig 2000000000) telemetry)
        (controls (restEnvironment 0 10000000000 moves) (restConfig 2000000000))).errors ≠ [] := by
  refine ⟨covers_histogramTakes, fun moves telemetry => ?_⟩
  have hhighest : kHighest = 10000000000 := by norm_num [kHighest]
  refine ⟨⟨?_, ?_, fun haccepted => ?_⟩, ?_, ?_, ?_, fun haccepted => ?_⟩
  · exact rest_honest moves (by omega) (by omega) (by omega) (by omega) (by omega)
  · exact rest_ends moves _ _ (by omega) (by omega)
  · have htaken := (fits_of_accepted haccepted).1
    have hlate : (20000000000, 0, 0) ∈ (restEnvironment 20000000000 0 moves).wakeups (restConfig 1000) := by
      rw [rest_wakeups moves 20000000000 0 (by omega)]
      exact List.mem_replicate.mpr ⟨by omega, rfl⟩
    exact absurd (htaken _ hlate) (by decide : ¬histogramTakes (clamped 20000000000) = true)
  · exact rest_honest moves (by omega) (by omega) (by omega) (by omega) (by omega)
  · exact rest_ends moves _ _ (by omega) (by omega)
  · rw [rest_wakeups moves 0 10000000000 (by omega)]
    intro v hv
    rw [List.eq_of_mem_replicate hv, WakeupFits, hhighest]
    exact ⟨by norm_num, by norm_num, by norm_num⟩
  · have hsum := (fits_of_accepted haccepted).2
    rw [rest_latencies moves (by omega) (by omega) (by omega) (by omega) (by omega)] at hsum
    have hlimit : (UINT64_MAX : ℤ) = 18446744073709551615 := by norm_num [UINT64_MAX]
    omega

end Tvc.Latency
