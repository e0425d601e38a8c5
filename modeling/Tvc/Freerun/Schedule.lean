import Tvc.Freerun.CommandLine
import Tvc.Freerun.Serving

/-!
# The schedule of a free run in 64 bits

`run` takes the origin of the schedule from the arrival of the first frame, and accepts it if the ticks and the
deadlines of all cycles fit. The loop and the copies of the terminal reply then compute their deadlines from it.
Here these sums and products are computed in the order of the source, on signed integers that must not overflow and
on unsigned ones that wrap. Two guards, one on the command line and one on the origin, make each of them exact.
-/

namespace Tvc.Freerun

open Checked (Signed Fits result result_of_fits result_eq_some)

/-! ## The computations -/

namespace MainConfig

/-- `total`: the sum is signed, the count is not. -/
def total (c : MainConfig) : Option U64 := do
  let sum ← result 63 (c.cycles.1 + c.warmup.1)
  return BitVec.ofInt 64 sum.1

/-- The origin that `run` computes from an arrival. -/
def originAt (c : MainConfig) (arrival : I64) : Option I64 := do
  let phase ← result 63 (c.phaseUs.1 * 1000)
  result 63 (arrival.1 + phase.1)

/-- The guard of `run` on the tick and the origin of the first frame. -/
def acquires (c : MainConfig) (tickBase : U64) (origin : I64) : Option Bool := do
  let total ← c.total
  if tickBase ≤ BitVec.allOnes 64 - total then
    let room ← result 63 (INT64_MAX - origin.1)
    let deadlines ← result 63 (room.1.tdiv kPeriodNs)
    return decide (total + BitVec.ofInt 64 c.terminalCopies.1 ≤ BitVec.ofInt 64 deadlines.1)
  else return false

/-- The configuration that `main` hands to `run`. -/
def toRun (c : MainConfig) : RunConfig where
  autoArm := c.autoArm
  cycles := c.cycles.1.toNat
  warmup := c.warmup.1.toNat
  skewMax := c.skewMax.1.toNat
  skew_le := Int.toNat_le.mpr c.skewMax.2.2
  phaseUs := c.phaseUs.1
  terminalCopies := c.terminalCopies.1.toNat
  groundRequested := !c.groundHost.isEmpty

end MainConfig

/-- `deadline` of a cycle. -/
def deadlineOf (origin : I64) (n : U64) : Option I64 := do
  let elapsed ← result 63 (n.toInt * kPeriodNs)
  result 63 (origin.1 + elapsed.1)

/-- The time after which a cycle is late. -/
def lateAfter (deadline : I64) : Option I64 := result 63 (deadline.1 + kPeriodNs)

/-- `deadline` of a copy of the terminal reply. -/
def copyDeadline (origin : I64) (cycles copy : U64) : Option I64 := deadlineOf origin (cycles - 1 + copy)

/-! ## What `parse` accepts -/

variable {c : MainConfig}

/-- What a free run promises once it is accepted. -/
structure MainConfig.Bounded (c : MainConfig) : Prop where
  cycles : 1000 ≤ c.cycles.1
  warmup : 0 ≤ c.warmup.1
  room : c.cycles.1 + c.warmup.1 + 64 ≤ INT64_MAX / 2000000

/-- The bound on the cycles is computed exactly after a warmup that is not negative. -/
theorem cycleBound_eq {warmup : I64} (h : 0 ≤ warmup.1) :
    ∃ bound, cycleBound warmup = some bound ∧ bound.1 = INT64_MAX / 2000000 - 64 - warmup.1 := by
  have hquotient : Fits 63 (INT64_MAX / 2000000) := by decide
  have hroom : Fits 63 (INT64_MAX / 2000000 - 64) := by decide
  have hbound : Fits 63 (INT64_MAX / 2000000 - 64 - warmup.1) := by
    have hwarmup := warmup.2.2
    have hvalue : INT64_MAX / 2000000 = 4611686018427 := by decide
    constructor <;> omega
  refine ⟨⟨_, hbound⟩, ?_, rfl⟩
  simp only [cycleBound, result_of_fits hquotient, result_of_fits hroom, result_of_fits hbound, Option.bind_eq_bind,
    Option.bind_some]

/-- No signed sum of a computation overflowed. -/
def Defined {α : Type} (x : Except ParseFailure α) : Prop := x ≠ .error .overflow

/-- A computation in two parts is defined if both are. -/
theorem Defined.bind {α β : Type} {x : Except ParseFailure α} {f : α → Except ParseFailure β} (hx : Defined x)
    (hf : ∀ a, Defined (f a)) : Defined (x >>= f) := by
  cases x with
  | error failure => exact fun h => hx (congrArg Except.error (Except.error.inj h))
  | ok a => exact hf a

theorem defined_ok {α : Type} (a : α) : Defined (.ok a : Except ParseFailure α) := nofun

theorem defined_refuseIf (condition : Bool) : Defined (refuseIf condition) := by
  cases condition <;> exact nofun

/-- A refusal that does not apply. -/
theorem refuseIf_ok {condition : Bool} {r : Unit} (h : refuseIf condition = .ok r) : condition = false := by
  cases condition with
  | false => rfl
  | true => nomatch h

/-- A computation with a result has one in its first part. -/
theorem ok_of_bind {α β : Type} {x : Except ParseFailure α} {f : α → Except ParseFailure β} {b : β}
    (h : (x >>= f) = .ok b) : ∃ a, x = .ok a ∧ f a = .ok b := by
  cases x with
  | error failure => nomatch h
  | ok a => exact ⟨a, rfl, h⟩

/-- The conversion of a value overflows nowhere. -/
theorem defined_within (p : ℤ → Prop) [DecidablePred p] (value : Option I64) : Defined (within p value) := by
  unfold within
  split
  · exact nofun
  · split <;> exact nofun

theorem defined_converted {α : Type} (value : Option α) : Defined (converted value) := by
  cases value <;> exact nofun

/-- No argument overflows. -/
theorem MainConfig.defined_take (c : MainConfig) (argument : Argument) : Defined (c.take argument) := by
  cases argument with
  | help => exact nofun
  | unknown => exact nofun
  | setting accepted => cases accepted <;> exact nofun
  | ground value => exact (defined_converted value).bind fun _ => defined_ok _
  | rate value => exact (defined_converted value).bind fun _ => defined_ok _
  | cycles value => exact (defined_converted value).bind fun _ => defined_ok _
  | warmup value => exact (defined_converted value).bind fun _ => defined_ok _
  | record value => exact (defined_converted value).bind fun _ => defined_ok _
  | sensorPort value => exact (defined_within _ value).bind fun _ => defined_ok _
  | phaseUs value => exact (defined_within _ value).bind fun _ => defined_ok _
  | skewMaxTicks value => exact (defined_within _ value).bind fun _ => defined_ok _
  | terminalCopies value => exact (defined_within _ value).bind fun _ => defined_ok _
  | mode value => exact defined_ok _
  | autoArm => exact defined_ok _
  | label value => exact defined_ok _
  | telemetry => exact defined_ok _

/-- No list of arguments overflows. -/
theorem MainConfig.defined_arguments (c : MainConfig) (args : List Argument) : Defined (args.foldlM take c) := by
  induction args generalizing c with
  | nil => exact defined_ok c
  | cons argument rest ih => exact (c.defined_take argument).bind ih

section Parse

variable [Arith F64]

/-- The check of a free run computes its bound without an overflow. -/
theorem MainConfig.defined_checkFreerun (c : MainConfig) : Defined c.checkFreerun := by
  unfold checkFreerun
  split
  · exact nofun
  · rename_i hguard
    simp only [Bool.or_eq_true, decide_eq_true_eq, not_or, not_lt] at hguard
    obtain ⟨bound, hbound, -⟩ := cycleBound_eq hguard.1.1.2
    rw [hbound]
    exact defined_refuseIf _

/-- The check of the mode overflows in no mode. -/
theorem MainConfig.defined_checkMode (c : MainConfig) : Defined c.checkMode := by
  unfold checkMode
  split
  · exact c.defined_checkFreerun
  · split <;> exact defined_refuseIf _

/-- `parse` overflows nowhere. -/
theorem defined_parse (args : List Argument) : Defined (parse args) := by
  refine (MainConfig.defined_arguments _ args).bind fun c => Defined.bind ?_ fun _ => defined_ok _
  refine (defined_refuseIf _).bind fun _ => (defined_refuseIf _).bind fun _ => c.defined_checkMode.bind fun _ => ?_
  refine (defined_refuseIf _).bind fun _ => (defined_refuseIf _).bind fun _ => ?_
  exact (defined_refuseIf _).bind fun _ => (defined_refuseIf _).bind fun _ => defined_refuseIf _

/-- An accepted free run is bounded. -/
theorem MainConfig.bounded_of_checkFreerun (h : c.checkFreerun = .ok ()) : c.Bounded := by
  unfold checkFreerun at h
  split at h
  · nomatch h
  · rename_i hguard
    simp only [Bool.or_eq_true, decide_eq_true_eq, not_or, not_lt] at hguard
    obtain ⟨bound, hbound, hvalue⟩ := cycleBound_eq hguard.1.1.2
    rw [hbound] at h
    have hcycles := of_decide_eq_false (refuseIf_ok h)
    exact ⟨hguard.1.1.1, hguard.1.1.2, by omega⟩

/-- A free run that `parse` accepts is bounded. -/
theorem bounded_of_parse {args : List Argument} (h : parse args = .ok c) (hmode : c.mode = "freerun") : c.Bounded := by
  obtain ⟨c', -, h⟩ := ok_of_bind h
  obtain ⟨_, hcheck, h⟩ := ok_of_bind h
  obtain rfl : c' = c := Except.ok.inj h
  obtain ⟨_, -, hcheck⟩ := ok_of_bind hcheck
  obtain ⟨_, -, hcheck⟩ := ok_of_bind hcheck
  obtain ⟨_, hcheck, -⟩ := ok_of_bind hcheck
  unfold MainConfig.checkMode at hcheck
  rw [if_pos (by rw [hmode]; rfl)] at hcheck
  exact MainConfig.bounded_of_checkFreerun hcheck

end Parse

/-! ## The two guards together -/

namespace MainConfig

/-- The number of cycles of a bounded run. -/
theorem Bounded.total_lt (h : c.Bounded) : (c.toRun.total : ℤ) + 64 ≤ INT64_MAX / 2000000 := by
  have hcycles := h.cycles
  have hwarmup := h.warmup
  have hroom := h.room
  change ((c.cycles.1.toNat + c.warmup.1.toNat : ℕ) : ℤ) + 64 ≤ INT64_MAX / 2000000
  omega

/-- The total of a bounded run is the number of its cycles. -/
theorem Bounded.total_eq (h : c.Bounded) : c.total = some (BitVec.ofNat 64 c.toRun.total) := by
  have hcycles := h.cycles
  have hwarmup := h.warmup
  have hroom := h.room
  have hvalue : INT64_MAX / 2000000 = 4611686018427 := by decide
  have hfits : Fits 63 (c.cycles.1 + c.warmup.1) := by constructor <;> omega
  have hnat : c.cycles.1 + c.warmup.1 = (c.toRun.total : ℕ) := by
    change _ = ((c.cycles.1.toNat + c.warmup.1.toNat : ℕ) : ℤ)
    omega
  rw [total, result_of_fits hfits]
  change some (BitVec.ofInt 64 (c.cycles.1 + c.warmup.1)) = _
  rw [hnat, BitVec.ofInt_natCast]

/-- The origin is exact if it is representable. -/
theorem originAt_eq (c : MainConfig) {arrival : I64} (h : Fits 63 (arrival.1 + c.phaseUs.1 * 1000)) :
    c.originAt arrival = some ⟨_, h⟩ := by
  have hphase : Fits 63 (c.phaseUs.1 * 1000) := by
    have hbounds := c.phaseUs.2
    constructor <;> omega
  simp only [originAt, result_of_fits hphase, result_of_fits h, Option.bind_eq_bind, Option.bind_some]

end MainConfig

/-- A natural number of 63 bits is the value of its pattern. -/
theorem toInt_ofNat {n : ℕ} (h : n < 2 ^ 63) : (BitVec.ofNat 64 n).toInt = n := by
  have hnat : (BitVec.ofNat 64 n).toNat = n := Nat.mod_eq_of_lt (by omega)
  rw [BitVec.toInt_eq_toNat_of_lt (by omega), hnat]

/-- The exact deadline of a cycle, if it can be represented. -/
theorem deadlineOf_eq {origin : I64} {n : ℕ} (horigin : 0 ≤ origin.1) (h : Fits 63 (origin.1 + n * kPeriodNs)) :
    deadlineOf origin (BitVec.ofNat 64 n) = some ⟨_, h⟩ := by
  have helapsed : Fits 63 (n * kPeriodNs) := by
    have hbound := h.2
    unfold kPeriodNs at hbound ⊢
    constructor <;> omega
  have hn : n < 2 ^ 63 := by
    have hbound := helapsed.2
    unfold kPeriodNs at hbound
    omega
  simp only [deadlineOf, toInt_ofNat hn, result_of_fits helapsed, result_of_fits h, Option.bind_eq_bind,
    Option.bind_some]

/-- The schedule of a run, computed in 64 bits, is exact. -/
structure Exact (c : MainConfig) (tickBase : U64) (origin : I64) : Prop where
  ticks : ∀ n < c.toRun.total, (tickBase + BitVec.ofNat 64 n).toNat = tickBase.toNat + n
  deadlines : ∀ n < c.toRun.total, ∃ deadline late, deadlineOf origin (BitVec.ofNat 64 n) = some deadline ∧
    deadline.1 = origin.1 + n * kPeriodNs ∧ lateAfter deadline = some late ∧
    late.1 = origin.1 + n * kPeriodNs + kPeriodNs
  copies : ∀ cycles, 1 ≤ cycles → cycles ≤ c.toRun.total → ∀ copy < c.toRun.terminalCopies, ∃ deadline,
    copyDeadline origin (BitVec.ofNat 64 cycles) (BitVec.ofNat 64 copy) = some deadline ∧
      deadline.1 = origin.1 + (cycles - 1 + copy : ℕ) * kPeriodNs

/-- The origin of a model run with a first frame. -/
def originOfFrame (carry : Datagram) (tickBase : U64) (origin : I64) : Origin := ⟨carry, tickBase.toNat, origin.1⟩

/-- The guard on the tick decides whether the last one wraps. -/
theorem ticks_guard (tickBase : U64) {total : ℕ} (h : total < 2 ^ 63) :
    tickBase ≤ BitVec.allOnes 64 - BitVec.ofNat 64 total ↔ tickBase.toNat + total ≤ UINT64_MAX := by
  have htotal : (BitVec.ofNat 64 total).toNat = total := Nat.mod_eq_of_lt (by omega)
  have hones : (BitVec.allOnes 64).toNat = 2 ^ 64 - 1 := BitVec.toNat_allOnes
  have hle : BitVec.ofNat 64 total ≤ BitVec.allOnes 64 := by
    rw [BitVec.le_def]
    omega
  rw [BitVec.le_def, BitVec.toNat_sub_of_le hle, UINT64_MAX]
  omega

/-- The guard computes nothing that overflows, and decides whether the exact ticks and deadlines fit. -/
theorem acquires_eq (hc : c.Bounded) (carry : Datagram) (tickBase : U64) {origin : I64} (horigin : 0 ≤ origin.1) :
    c.acquires tickBase origin = some ((originOfFrame carry tickBase origin).fits c.toRun) := by
  have htotal := hc.total_lt
  have hcopies := c.terminalCopies.2
  have hvalue : INT64_MAX / 2000000 = 4611686018427 := by decide
  have hmax : origin.1 ≤ INT64_MAX := Int.le_sub_one_of_lt origin.2.2
  have hroom : Fits 63 (INT64_MAX - origin.1) := by
    unfold INT64_MAX at hmax ⊢
    constructor <;> omega
  have hdiv : (INT64_MAX - origin.1).tdiv kPeriodNs = (INT64_MAX - origin.1) / kPeriodNs :=
    Int.tdiv_eq_ediv_of_nonneg (by omega)
  have hdeadlines : Fits 63 ((INT64_MAX - origin.1) / kPeriodNs) := by
    have hbound := hroom.2
    unfold kPeriodNs
    constructor <;> omega
  have hnonneg : 0 ≤ (INT64_MAX - origin.1) / kPeriodNs := Int.ediv_nonneg (by omega) (by decide)
  have hcount : (BitVec.ofNat 64 c.toRun.total + BitVec.ofInt 64 c.terminalCopies.1).toNat =
      c.toRun.total + c.toRun.terminalCopies := by
    have hnat : c.terminalCopies.1 = (c.toRun.terminalCopies : ℕ) := (Int.toNat_of_nonneg (by omega)).symm
    rw [hnat] at hcopies ⊢
    rw [BitVec.ofInt_natCast, ← BitVec.ofNat_add, BitVec.toNat_ofNat, Nat.mod_eq_of_lt (by omega)]
  have hlimit : (BitVec.ofInt 64 ((INT64_MAX - origin.1) / kPeriodNs)).toNat =
      ((INT64_MAX - origin.1) / kPeriodNs).toNat := by
    have hbound := hdeadlines.2
    rw [BitVec.toNat_ofInt, Int.emod_eq_of_lt hnonneg (by omega)]
  unfold MainConfig.acquires Origin.fits
  rw [hc.total_eq]
  change (if _ then _ else _) = _
  by_cases hticks : tickBase.toNat + c.toRun.total ≤ UINT64_MAX
  · rw [if_pos ((ticks_guard tickBase (by omega)).mpr hticks), result_of_fits hroom]
    change ((result 63 ((INT64_MAX - origin.1).tdiv kPeriodNs)).bind _) = _
    rw [hdiv, result_of_fits hdeadlines]
    refine congrArg some (Bool.eq_iff_iff.mpr ?_)
    rw [Bool.and_eq_true, decide_eq_true_eq, decide_eq_true_eq, decide_eq_true_eq, BitVec.le_def, hcount, hlimit]
    exact (and_iff_right hticks).symm
  · rw [if_neg fun hguard => hticks ((ticks_guard tickBase (by omega)).mp hguard)]
    change some false = some (decide _ && decide _)
    simp [originOfFrame, hticks]

/-- Every deadline up to the limit of the guard can be represented. -/
theorem fits_deadline {origin : I64} {m : ℕ} (horigin : 0 ≤ origin.1)
    (h : m ≤ ((INT64_MAX - origin.1) / kPeriodNs).toNat) : Fits 63 (origin.1 + m * kPeriodNs) := by
  have hmax : origin.1 ≤ INT64_MAX := Int.le_sub_one_of_lt origin.2.2
  have hm : (m : ℤ) ≤ (INT64_MAX - origin.1) / kPeriodNs := by
    have hnonneg : 0 ≤ (INT64_MAX - origin.1) / kPeriodNs := Int.ediv_nonneg (by omega) (by decide)
    omega
  have hproduct := (Int.le_ediv_iff_mul_le (by decide : 0 < kPeriodNs)).mp hm
  unfold INT64_MAX kPeriodNs at *
  constructor <;> omega

/-- A passed guard makes the schedule exact. -/
theorem exact_of_fits (hc : c.Bounded) (carry : Datagram) {tickBase : U64} {origin : I64} (horigin : 0 ≤ origin.1)
    (hfits : (originOfFrame carry tickBase origin).fits c.toRun = true) : Exact c tickBase origin := by
  obtain ⟨hticks, hlimit⟩ := Bool.and_eq_true_iff.mp hfits
  have hticks : tickBase.toNat + c.toRun.total ≤ UINT64_MAX := of_decide_eq_true hticks
  have hlimit : c.toRun.total + c.toRun.terminalCopies ≤ ((INT64_MAX - origin.1) / kPeriodNs).toNat :=
    of_decide_eq_true hlimit
  have hcopies : 1 ≤ c.toRun.terminalCopies := Int.toNat_le_toNat c.terminalCopies.2.1
  have htotal := hc.total_lt
  have hvalue : INT64_MAX / 2000000 = 4611686018427 := by decide
  unfold UINT64_MAX at hticks
  refine ⟨fun n hn => ?_, fun n hn => ?_, fun cycles hpos hcycles copy hcopy => ?_⟩
  · rw [BitVec.toNat_add, BitVec.toNat_ofNat, Nat.mod_eq_of_lt (by omega : n < 2 ^ 64), Nat.mod_eq_of_lt (by omega)]
  · have hdeadline : Fits 63 (origin.1 + n * kPeriodNs) := fits_deadline horigin (by omega)
    have hnext : ((n + 1 : ℕ) : ℤ) * kPeriodNs = n * kPeriodNs + kPeriodNs := by
      rw [Nat.cast_add, Nat.cast_one, Int.add_mul, Int.one_mul]
    have hlate : Fits 63 (origin.1 + n * kPeriodNs + kPeriodNs) := by
      rw [Int.add_assoc, ← hnext]
      exact fits_deadline horigin (by omega)
    exact ⟨_, _, deadlineOf_eq horigin hdeadline, rfl, result_of_fits hlate, rfl⟩
  · have hdeadline : Fits 63 (origin.1 + (cycles - 1 + copy : ℕ) * kPeriodNs) := fits_deadline horigin (by omega)
    have hindex : BitVec.ofNat 64 cycles - 1 + BitVec.ofNat 64 copy = BitVec.ofNat 64 (cycles - 1 + copy) := by
      rw [BitVec.ofNat_add, ← BitVec.ofNat_sub_ofNat_of_le _ _ (by decide) hpos]
      rfl
    refine ⟨⟨_, hdeadline⟩, ?_, rfl⟩
    rw [copyDeadline, hindex]
    exact deadlineOf_eq horigin hdeadline

/-! ## The cycles that the admission is asked for -/

namespace Admission

/-- `begin_cycle` accepts a tick, the base or the successor of the last one, and adds no fault to those of the
datagrams: what it may find is a parked terminal datagram whose reason is illegal. -/
structure Begins (s : Admission) (tick : ℕ) : Prop where
  accepted : (s.beginCycle tick).2 = true
  first : s.cycles = 0 → tick = s.tickBase
  contiguous : s.cycles ≠ 0 → tick = s.expected + 1
  faultless : (s.beginCycle tick).1.integrity =
    (s.integrity || (s.dueAt tick).any fun f => f.terminal && f.illegalReason)

/-- A scheduled cycle begins without a fault. -/
theorem Between.begins {s : Admission} {tickBase n : ℕ} (h : Between tickBase n s) : s.Begins (tickBase + n) := by
  have hcontiguous : s.cycles ≠ 0 → tickBase + n = s.expected + 1 := fun hcycles => (h.expected (h.cycles ▸ hcycles)).symm
  have hbegun := beginCycle_of_admissible h.reachable.shape.slots h.reachable.shape.unstarted h.admissible
  have hskipped : s.skipped (tickBase + n) = [] := by
    unfold skipped
    by_cases hcycles : s.cycles = 0
    · have hfuture : s.future = fun _ => none := funext (h.reachable.shape.unstarted hcycles h.closed)
      rw [hfuture, SlotWindow.entries_empty]
    · rw [hcontiguous hcycles, Nat.add_sub_cancel_left, Nat.sub_self]
      rfl
  have hgap : (s.cycles != 0 && tickBase + n != s.expected + 1) = false := by
    by_cases hcycles : s.cycles = 0
    · rw [hcycles]
      rfl
    · rw [hcontiguous hcycles, bne_self_eq_false, Bool.and_false]
  refine ⟨by rw [hbegun], h.admissible.first, hcontiguous, ?_⟩
  rw [hbegun]
  change (s.integrity || (s.cycles != 0 && tickBase + n != s.expected + 1) || !(s.skipped (tickBase + n)).isEmpty ||
    _) = _
  rw [hgap, hskipped, List.isEmpty_nil, Bool.not_true, Bool.or_false, Bool.or_false]

end Admission

section Runs

variable [Arith F64]

/-- The loop keeps its origin. -/
theorem Loop.origin_run (cfg : Config) (tickBase : ℕ) (origin : ℤ) (carry : Datagram) (events : List BodyEvent) :
    (run cfg tickBase origin carry events).r.origin = origin := by
  induction events using List.reverseRecOn with
  | nil => rfl
  | append_singleton events e ih =>
    rw [run, List.foldl_append]
    change (body cfg carry (run cfg tickBase origin carry events) e).r.origin = origin
    by_cases hover : (run cfg tickBase origin carry events).running = false ∨
        cfg.total ≤ (run cfg tickBase origin carry events).n
    · rw [body_of_over carry hover]
      exact ih
    · rw [not_or, Bool.not_eq_false, not_le] at hover
      by_cases hslept : e.sleepError = 0 ∨ e.sleepError = EINTR
      · obtain ⟨errors, errno, refused, hbody⟩ := body_eq carry ⟨hover.1, hover.2, hslept⟩
        rw [hbody]
        exact ih
      · rw [body_of_failed carry hover.1 hover.2 hslept]
        exact ih

/-- No more cycles are run than are scheduled. -/
theorem Loop.n_le_total (cfg : Config) (tickBase : ℕ) (origin : ℤ) (carry : Datagram) (events : List BodyEvent) :
    (run cfg tickBase origin carry events).n ≤ cfg.total := by
  induction events using List.reverseRecOn with
  | nil => exact Nat.zero_le _
  | append_singleton events e ih =>
    rw [run, List.foldl_append]
    change (body cfg carry (run cfg tickBase origin carry events) e).n ≤ cfg.total
    by_cases hruns : (run cfg tickBase origin carry events).Runs cfg e
    · rw [(body_of_runs carry hruns).2.2.2.1]
      exact hruns.2.1
    · rw [(body_of_not_runs carry hruns).2.2.2.1]
      exact ih

/-- The terminal reply is repeated only after a cycle. -/
theorem Served.cycles_pos {cfg : Config} {tickBase : ℕ} {history : List (EpisodeInput F64)} {executed : List BodyEvent}
    {x : Loop} (h : Served cfg tickBase history executed x) (hterminal : x.r.terminalCycle ≠ 0) : 1 ≤ x.r.cycles := by
  have hmode := h.answered (.inl hterminal)
  rw [h.scheduled.state] at hmode
  rw [h.cycles]
  cases history with
  | nil =>
    have hstart : (Episode.initial cfg.autoArm : EpisodeState F64).mode = .init := rfl
    exact absurd (hstart.symm.trans hmode) (by decide)
  | cons i rest => exact Nat.succ_le_succ (Nat.zero_le _)

/-- `parse` computes its bound without an overflow. In a free run that it accepts, the origin and the guard of `run`
are computed exactly, whatever the tick and the arrival of the first frame, as long as the origin can be represented;
and if the guard passes, so are all ticks and deadlines of the cycles and of the copies of the terminal reply, and
each cycle that is run begins at the successor of the last tick, without a fault of its own. -/
theorem schedule_exact :
    (∀ args, parse args ≠ .error .overflow) ∧
      ∀ args c, parse args = .ok c → c.mode = "freerun" → (c.toRun.total : ℤ) = c.cycles.1 + c.warmup.1 ∧
        ∀ (tickBase : U64) (arrival : I64), 0 ≤ arrival.1 → Fits 63 (arrival.1 + c.phaseUs.1 * 1000) →
          ∃ origin acquired, c.originAt arrival = some origin ∧ origin.1 = arrival.1 + c.phaseUs.1 * 1000 ∧
            c.acquires tickBase origin = some acquired ∧
            (∀ carry, acquired = (originOfFrame carry tickBase origin).fits c.toRun) ∧
            (acquired = true → Exact c tickBase origin ∧
              ∀ carry events,
                let x := Loop.run c.toRun.toConfig tickBase.toNat origin.1 carry events
                x.r.origin = origin.1 ∧ x.r.tickBase = tickBase.toNat ∧
                  (x.r.terminalCycle ≠ 0 → 1 ≤ x.r.cycles ∧ x.r.cycles ≤ c.toRun.total) ∧
                  ∀ e, x.Runs c.toRun.toConfig e →
                    x.r.admission.Begins (tickBase + BitVec.ofNat 64 x.n).toNat) := by
  refine ⟨defined_parse, fun args c hparse hmode => ?_⟩
  have hc := bounded_of_parse hparse hmode
  refine ⟨?_, fun tickBase arrival harrival hfits => ?_⟩
  · have hcycles := hc.cycles
    have hwarmup := hc.warmup
    change ((c.cycles.1.toNat + c.warmup.1.toNat : ℕ) : ℤ) = _
    omega
  have horigin : 0 ≤ arrival.1 + c.phaseUs.1 * 1000 := by
    have hphase := c.phaseUs.2.1
    omega
  refine ⟨⟨_, hfits⟩, _, c.originAt_eq hfits, rfl, acquires_eq hc ⟨[], false⟩ tickBase horigin, fun carry => rfl,
    fun hacquired => ?_⟩
  have hexact := exact_of_fits hc _ horigin hacquired
  refine ⟨hexact, fun carry events => ?_⟩
  intro x
  have hserved := served_run c.toRun.toConfig tickBase.toNat (arrival.1 + c.phaseUs.1 * 1000) carry events
  have hscheduled := hserved.scheduled
  refine ⟨Loop.origin_run _ _ _ _ _, hscheduled.base, fun hterminal => ⟨hserved.cycles_pos hterminal, ?_⟩,
    fun e hruns => ?_⟩
  · rw [hserved.cycles, hscheduled.length]
    exact Loop.n_le_total _ _ _ _ _
  · rw [hexact.ticks x.n hruns.2.1]
    exact hscheduled.between.begins

end Runs

section Example

attribute [local instance] ieee

/-- The defaults of the command line pass both guards. -/
example :
    ((parse [.mode "freerun", .telemetry]).toOption.bind fun c => c.acquires 0 ⟨0, by decide⟩) = some true := by
  decide +kernel

end Example

end Tvc.Freerun
