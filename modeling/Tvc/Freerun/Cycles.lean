import Tvc.Admission.Selection
import Tvc.Episode.Sensing
import Tvc.Freerun.Body

/-!
# The inputs and records of free run

The scheduled cycles call the admission at successive ticks, each cycle once, so every cycle opens
and closes. What it hands to the policy is what a driver guarantees, and what it counts fits the
record of the cycle.
-/

namespace Tvc.Freerun

open Telem (ControlRecord)

/-! ## One cycle of the admission -/

namespace Admission

/-- An admission between two scheduled cycles, after some of them. -/
structure Between (tickBase n : ℕ) (s : Admission) : Prop where
  reachable : s.Reachable
  closed : s.isOpen = false
  valid : s.valid = true
  base : s.tickBase = tickBase
  cycles : s.cycles = n
  expected : n ≠ 0 → s.expected + 1 = tickBase + n

/-- What a scheduled cycle admits. -/
structure Admitted (tick n : ℕ) (s t : Admission) : Prop where
  kept : t.cycle.fresh = none → t.held = s.held
  fresh : ∀ x ∈ t.cycle.fresh, t.held = some x
  finite : ∀ x ∈ t.held, x.finite = true
  past : ∀ x ∈ t.held, x.tick ≤ tick
  staleness : t.cycle.staleness = min (t.held.elim (n + 1) fun x => tick - x.tick) 0xffffffff
  rx : t.cycle.rxCount ≤ 9
  counts : t.cycle.counts.old + t.cycle.counts.superseded +
    (t.cycle.counts.nonfinite + t.cycle.counts.skewExcess) ≤ t.cycle.rxCount

variable {s : Admission} {tickBase n : ℕ}

/-- A scheduled cycle is not refused. -/
theorem Between.admissible (h : Between tickBase n s) : s.Admissible (tickBase + n) where
  valid := h.valid
  closed := h.closed
  first hzero := by rw [h.base, ← h.cycles, hzero, Nat.add_zero]
  later hcycles := by
    have hexpected := h.expected (h.cycles ▸ hcycles)
    omega

/-- Taking a datagram does not finish the cycle. -/
theorem inside_receive (datagrams : List Datagram) : ∀ c ∈ datagrams.map Call.receive, c.inside = true := by
  intro c hc
  obtain ⟨d, -, rfl⟩ := List.mem_map.mp hc
  rfl

/-- A scheduled cycle closes what it opened, after its datagrams. -/
theorem Between.closes (h : Between tickBase n s) (datagrams : List Datagram) :
    let u := (Machine.run call (s.opened (tickBase + n)) (datagrams.map .receive)).1
    (Machine.run call s (cycleCalls (tickBase + n) datagrams)).1 = u.closed ∧ SameCycle (s.opened (tickBase + n)) u ∧
      u.Reachable ∧ u.isOpen = true := by
  intro u
  have ha := h.admissible
  have hopened := beginCycle_of_admissible h.reachable.shape.slots h.reachable.shape.unstarted ha
  have hreach : (s.opened (tickBase + n)).Reachable := h.reachable.opened ha
  have hsame : SameCycle (s.opened (tickBase + n)) u := sameCycle_run hreach rfl (inside_receive datagrams)
  have hopen : u.isOpen = true := hsame.isOpen
  refine ⟨?_, hsame, hreach.run _, hopen⟩
  rw [cycleCalls, run_concat, Machine.run_cons, call, hopened]
  exact finishCycle_of_open hopen

/-- A scheduled cycle opens, takes its datagrams and closes. -/
theorem Between.cycle (h : Between tickBase n s) (datagrams : List Datagram) :
    let t := (Machine.run call s (cycleCalls (tickBase + n) datagrams)).1
    Between tickBase (n + 1) t ∧ Admitted (tickBase + n) n s t := by
  intro t
  obtain ⟨ht, hsame, hureach, hopen⟩ := h.closes datagrams
  have htreach : t.Reachable := h.reachable.run _
  generalize (Machine.run call (s.opened (tickBase + n)) (datagrams.map .receive)).1 = u at ht hsame hureach hopen
  have ht : t = u.closed := ht
  have hexpected : t.expected = tickBase + n := by
    rw [ht]
    exact hsame.expected
  have hcycles : t.cycles = n + 1 := by
    rw [ht]
    exact congrArg (· + 1) (hsame.cycles.trans h.cycles)
  obtain ⟨hfresh, hstale⟩ := closed_cycle hureach.holding hopen
  have hheld : t.held = t.cycle.fresh.or s.held := by
    rw [ht, hfresh]
    exact congrArg (u.freshSample.or ·) hsame.held
  have hcapacity := htreach.capacity
  refine ⟨⟨htreach, by rw [ht]; rfl, ?_, ?_, hcycles, fun _ => by rw [hexpected]; rfl⟩, ⟨fun hnone => ?_, fun x hx => ?_,
    htreach.holding.finite, fun x hx => hexpected ▸ htreach.holding.passed x hx, ?_,
    hcapacity.rx.trans t.rxLimit_le, ?_⟩⟩
  · rw [ht]
    exact hsame.valid.trans h.valid
  · rw [ht]
    exact hsame.tickBase.trans h.base
  · rw [hheld, hnone]
    rfl
  · rw [hheld, Option.mem_def.mp hx]
    rfl
  · have hnow : u.expected = tickBase + n := hsame.expected
    rw [ht] at hcycles ⊢
    rw [hstale, hcycles, hnow]
    rfl
  · have hcounted := hcapacity.counted
    have hroom := hcapacity.discards
    unfold discarded at hcounted
    omega

/-- A scheduled run starts between two cycles. -/
theorem between_initial {skewMax : ℕ} (hskew : skewMax ≤ kMaxSkew) (tickBase warmup : ℕ) :
    Between tickBase 0 (initial tickBase skewMax warmup) where
  reachable := ⟨tickBase, skewMax, warmup, [], rfl⟩
  closed := rfl
  valid := decide_eq_true hskew
  base := rfl
  cycles := rfl
  expected h := absurd rfl h

end Admission

/-! ## What the bookkeeping of a body leaves alone -/

/-- Noting what was received leaves what the policy sees. -/
theorem Runtime.noteReceive_keeps (r : Runtime) (e : BodyEvent) :
    (r.noteReceive e).admission = r.admission ∧ (r.noteReceive e).state = r.state ∧
      (r.noteReceive e).tickBase = r.tickBase ∧ (r.noteReceive e).simSeen = r.simSeen ∧
      (r.noteReceive e).reply = r.reply := by
  unfold noteReceive
  cases e.received with
  | ok batch => exact ⟨rfl, rfl, rfl, rfl, rfl⟩
  | error errno =>
    dsimp only
    split <;> exact ⟨rfl, rfl, rfl, rfl, rfl⟩

/-- Noting what was sent leaves what the policy sees. -/
theorem Runtime.noteSend_keeps (r : Runtime) (terminal : Bool) (e : BodyEvent) :
    (r.noteSend terminal e).admission = r.admission ∧ (r.noteSend terminal e).state = r.state ∧
      (r.noteSend terminal e).tickBase = r.tickBase ∧ (r.noteSend terminal e).simSeen = r.simSeen ∧
      (r.noteSend terminal e).reply = r.reply := by
  cases terminal <;> exact ⟨rfl, rfl, rfl, rfl, rfl⟩

/-- Measuring leaves what the policy sees. -/
theorem Runtime.measure_keeps (r : Runtime) (recorded : Bool) (rung : ℕ) (terminal : Bool)
    (record : ControlRecord) (e : BodyEvent) :
    (r.measure recorded rung terminal record e).admission = r.admission ∧
      (r.measure recorded rung terminal record e).state = r.state ∧
      (r.measure recorded rung terminal record e).tickBase = r.tickBase ∧
      (r.measure recorded rung terminal record e).simSeen = r.simSeen ∧
      (r.measure recorded rung terminal record e).reply = r.reply := by
  unfold measure
  cases recorded with
  | false => exact ⟨rfl, rfl, rfl, rfl, rfl⟩
  | true =>
    dsimp only
    rw [if_pos rfl]
    split <;> exact ⟨rfl, rfl, rfl, rfl, rfl⟩

/-! ## One body -/

namespace Loop

/-- A body runs the policy: the schedule goes on and the sleep did not fail. -/
def Runs (cfg : Config) (x : Loop) (e : BodyEvent) : Prop :=
  x.running = true ∧ x.n < cfg.total ∧ (e.sleepError = 0 ∨ e.sleepError = EINTR)

instance (cfg : Config) (x : Loop) (e : BodyEvent) : Decidable (x.Runs cfg e) :=
  inferInstanceAs (Decidable (_ ∧ _ ∧ _))

/-- The admission after a body. -/
def admitted (carry : Datagram) (x : Loop) (e : BodyEvent) : Admission :=
  (Machine.run Admission.call x.r.admission (cycleCalls (x.r.tickBase + x.n) (datagramsOf x.n carry e))).1

/-- The input that a body hands to the policy. -/
def input (cfg : Config) (carry : Datagram) (x : Loop) (e : BodyEvent) : EpisodeInput F64 :=
  inputsOf cfg (x.r.tickBase + x.n) x.n (x.admitted carry e)
    (((x.admitted carry e).cycle.terminal.map Terminal.reason).or x.r.simSeen) e.stop

variable [Arith F64]

/-- The inputs that a run hands to the policy. -/
def inputs (cfg : Config) (carry : Datagram) : Loop → List BodyEvent → List (EpisodeInput F64)
  | _, [] => []
  | x, e :: rest => (if x.Runs cfg e then [x.input cfg carry e] else []) ++ inputs cfg carry (x.body cfg carry e) rest

/-- The inputs of one more body. -/
theorem inputs_concat (cfg : Config) (carry : Datagram) (x : Loop) (events : List BodyEvent) (e : BodyEvent) :
    x.inputs cfg carry (events ++ [e]) = x.inputs cfg carry events ++
      if (events.foldl (body cfg carry) x).Runs cfg e then [(events.foldl (body cfg carry) x).input cfg carry e]
      else [] := by
  induction events generalizing x with
  | nil => rw [List.nil_append, inputs, inputs, inputs, List.append_nil, List.nil_append, List.foldl_nil]
  | cons e' rest ih => rw [List.cons_append, inputs, ih, inputs, List.append_assoc, List.foldl_cons]

/-- A body that runs the policy: the state it leaves, whether the loop goes on, the reply it sends and the
record it presents. -/
theorem body_of_runs {cfg : Config} (carry : Datagram) {x : Loop} {e : BodyEvent} (h : x.Runs cfg e) :
    let i := x.input cfg carry e
    let y := x.body cfg carry e
    y.r.admission = x.admitted carry e ∧ y.r.state = (Episode.step x.r.state i).state ∧
      y.r.tickBase = x.r.tickBase ∧ y.n = x.n + 1 ∧
      y.running = !((Episode.step x.r.state i).state.mode == .terminated) ∧
      y.r.simSeen = ((x.admitted carry e).cycle.terminal.map Terminal.reason).or x.r.simSeen ∧
      ∃ record, record = recordOf i (x.admitted carry e) e (x.r.origin + x.n * kPeriodNs) (Episode.step x.r.state i) ∧
        y.r.reply = replyOf i x.n record e ∧ y.records = x.records ++ [sentRecord record e x.drops] := by
  obtain ⟨hrunning, hn, hsleep⟩ := h
  have hgoes : (!x.running || decide (cfg.total ≤ x.n)) = false := by simp [hrunning, hn]
  have hslept : (e.sleepError != 0 && e.sleepError != EINTR) = false := by
    rcases hsleep with hsleep | hsleep <;> simp [hsleep]
  unfold body
  rw [if_neg (by rw [hgoes]; decide)]
  dsimp only
  rw [if_neg (by rw [hslept]; decide)]
  have hkeeps := Runtime.noteReceive_keeps { x.r with sleepError := e.sleepError } e
  generalize Runtime.noteReceive .. = noted at hkeeps ⊢
  cases noted
  obtain ⟨rfl, rfl, rfl, rfl, -⟩ := hkeeps
  refine ⟨?_, ?_, ?_, rfl, rfl, ?_, _, rfl, ?_, rfl⟩
  · exact (Runtime.measure_keeps ..).1.trans (Runtime.noteSend_keeps ..).1
  · exact (Runtime.measure_keeps ..).2.1.trans (Runtime.noteSend_keeps ..).2.1
  · exact (Runtime.measure_keeps ..).2.2.1.trans (Runtime.noteSend_keeps ..).2.2.1
  · exact (Runtime.measure_keeps ..).2.2.2.1.trans (Runtime.noteSend_keeps ..).2.2.2.1
  · exact (Runtime.measure_keeps ..).2.2.2.2.trans (Runtime.noteSend_keeps ..).2.2.2.2

/-- Any other body leaves what the policy sees, and presents no record. -/
theorem body_of_not_runs {cfg : Config} (carry : Datagram) {x : Loop} {e : BodyEvent} (h : ¬x.Runs cfg e) :
    let y := x.body cfg carry e
    y.r.admission = x.r.admission ∧ y.r.state = x.r.state ∧ y.r.tickBase = x.r.tickBase ∧ y.n = x.n ∧
      y.records = x.records := by
  unfold body
  by_cases hover : (!x.running || decide (cfg.total ≤ x.n)) = true
  · rw [if_pos hover]
    exact ⟨rfl, rfl, rfl, rfl, rfl⟩
  · rw [if_neg hover]
    have hfailed : (e.sleepError != 0 && e.sleepError != EINTR) = true := by
      simp only [Bool.or_eq_true, Bool.not_eq_true', decide_eq_true_eq, not_or, Bool.not_eq_false, not_le] at hover
      by_contra hslept
      simp only [Bool.and_eq_true, bne_iff_ne, ne_eq] at hslept
      exact h ⟨hover.1, hover.2, by tauto⟩
    dsimp only
    rw [if_pos hfailed]
    exact ⟨rfl, rfl, rfl, rfl, rfl⟩

end Loop

/-! ## Over a whole run -/

/-- The observation that a held sample is for the policy. -/
def observation (sample : Sample) : Observation F64 := ⟨sample.tick, sample.theta, sample.omega, true⟩

variable [Arith F64]

/-- The counts of a record are those of its cycle, and fit it. -/
structure Counted (counts : AdmissionCycle) (record : ControlRecord) : Prop where
  rx : record.rxCount.toNat = counts.rxCount
  old : record.discardedOld.toNat = counts.counts.old
  superseded : record.discardedSuperseded.toNat = counts.counts.superseded
  other : record.discardedOther.toNat = counts.counts.nonfinite + counts.counts.skewExcess
  fitting : Telem.FittingCounts record

omit [Arith F64] in
/-- The record of a cycle has room for its counts. -/
theorem counted_record {tick n : ℕ} {s t : Admission} (h : Admission.Admitted tick n s t) (i : EpisodeInput F64)
    (e : BodyEvent) (deadline : ℤ) (result : EpisodeOutput F64) (drops : ℕ) :
    Counted t.cycle (sentRecord (recordOf i t e deadline result) e drops) := by
  have hrx := h.rx
  have hcounts := h.counts
  have hbyte {n : ℕ} (hn : n ≤ 9) : (BitVec.ofNat 8 n).toNat = n := by
    rw [BitVec.toNat_ofNat, Nat.mod_eq_of_lt (by omega)]
  have hold := hbyte (n := t.cycle.counts.old) (by omega)
  have hsuperseded := hbyte (n := t.cycle.counts.superseded) (by omega)
  have hother := hbyte (n := t.cycle.counts.nonfinite + t.cycle.counts.skewExcess) (by omega)
  refine ⟨hbyte hrx, hold, hsuperseded, hother, ?_⟩
  simp only [Telem.FittingCounts, Telem.validCounts, sentRecord, recordOf, hbyte hrx, hold, hsuperseded, hother, Bool.and_eq_true,
    decide_eq_true_eq]
  omega

/-- What a scheduled run keeps. -/
structure Scheduled (cfg : Config) (tickBase : ℕ) (history : List (EpisodeInput F64)) (x : Loop) : Prop where
  between : Admission.Between tickBase x.n x.r.admission
  base : x.r.tickBase = tickBase
  length : history.length = x.n
  sensed : Episode.Sensed tickBase history
  state : x.r.state = Episode.stateAfter cfg.autoArm history
  held : Episode.heldAfter history = x.r.admission.held.map observation
  commands : x.records.map ControlRecord.cmd = Episode.commands cfg.autoArm history
  fitting : ∀ record ∈ x.records, Telem.FittingCounts record

variable {cfg : Config} {tickBase : ℕ} {history : List (EpisodeInput F64)} {x : Loop}

/-- A body hands to the policy what a driver guarantees. -/
theorem Scheduled.driven (h : Scheduled cfg tickBase history x) (carry : Datagram) (e : BodyEvent) :
    Episode.Driven tickBase history (x.input cfg carry e) := by
  obtain ⟨-, hadmitted⟩ := h.between.cycle (datagramsOf x.n carry e)
  rw [← h.base] at hadmitted
  have hadmitted : Admission.Admitted (x.r.tickBase + x.n) x.n x.r.admission (x.admitted carry e) := hadmitted
  have hheld : (x.input cfg carry e).held = (x.admitted carry e).held.map observation := rfl
  have hage : (x.input cfg carry e).staleness = (x.admitted carry e).cycle.staleness := rfl
  refine ⟨?_, ?_, fun o ho => ?_, fun hfresh => ?_, fun hstale => ?_, fun o ho => ?_, fun o ho => ?_, fun hnone _ => ?_⟩
  · rw [h.length, ← h.base]
    rfl
  · intro reason hreason
    have hsignal : (if e.stop then some Reason.signal else none) = some reason := hreason
    split at hsignal
    · exact (Option.some.inj hsignal).symm
    · nomatch hsignal
  · rw [hheld] at ho
    obtain ⟨sample, hsample, rfl⟩ := Option.mem_map.mp ho
    obtain ⟨htheta, homega⟩ := Bool.and_eq_true_iff.mp (hadmitted.finite sample hsample)
    exact ⟨rfl, htheta, homega⟩
  · obtain ⟨sample, hsample⟩ := Option.isSome_iff_exists.mp (show (x.admitted carry e).cycle.fresh.isSome = true from hfresh)
    rw [hheld, hadmitted.fresh sample hsample]
    rfl
  · have hnone : (x.admitted carry e).cycle.fresh = none :=
      Option.isSome_eq_false_iff.mp hstale |> Option.isNone_iff_eq_none.mp
    rw [hheld, hadmitted.kept hnone, h.held]
  · rw [hheld] at ho
    obtain ⟨sample, hsample, rfl⟩ := Option.mem_map.mp ho
    exact hadmitted.past sample hsample
  · rw [hheld] at ho
    obtain ⟨sample, hsample, rfl⟩ := Option.mem_map.mp ho
    rw [hage, hadmitted.staleness, Option.mem_def.mp hsample]
    rfl
  · rw [hheld, Option.map_eq_none_iff] at hnone
    rw [hage, hadmitted.staleness, hnone, h.length]
    rfl

/-- One more body of the schedule. -/
theorem Scheduled.turn (h : Scheduled cfg tickBase history x) (carry : Datagram) (e : BodyEvent) :
    Scheduled cfg tickBase (history ++ if x.Runs cfg e then [x.input cfg carry e] else [])
      (x.body cfg carry e) := by
  by_cases hruns : x.Runs cfg e
  · obtain ⟨hadmission, hstate, hbase, hn, -, -, record, hrecord, -, hrecords⟩ := Loop.body_of_runs carry hruns
    obtain ⟨hbetween, hadmitted⟩ := h.between.cycle (datagramsOf x.n carry e)
    rw [← h.base] at hbetween hadmitted
    have hbetween : Admission.Between x.r.tickBase (x.n + 1) (x.admitted carry e) := hbetween
    rw [if_pos hruns]
    refine ⟨?_, hbase.trans h.base, ?_, h.sensed.concat (h.driven carry e), ?_, ?_, ?_, fun record' hmem => ?_⟩
    · rw [hn, hadmission, ← h.base]
      exact hbetween
    · rw [List.length_append, hn, h.length]
      rfl
    · rw [hstate, Episode.stateAfter_concat, h.state]
    · rw [Episode.heldAfter_concat, hadmission]
      rfl
    · rw [hrecords, List.map_append, h.commands, Episode.commands_concat, ← h.state, hrecord]
      rfl
    · rw [hrecords, hrecord] at hmem
      rcases List.mem_append.mp hmem with hmem | hmem
      · exact h.fitting record' hmem
      · obtain rfl := List.mem_singleton.mp hmem
        exact (counted_record hadmitted ..).fitting
  · obtain ⟨hadmission, hstate, hbase, hn, hrecords⟩ := Loop.body_of_not_runs carry hruns
    rw [if_neg hruns, List.append_nil]
    exact ⟨by rw [hn, hadmission]; exact h.between, hbase.trans h.base, h.length.trans hn.symm, h.sensed,
      hstate.trans h.state, by rw [hadmission]; exact h.held, by rw [hrecords]; exact h.commands, hrecords ▸ h.fitting⟩

/-- What every scheduled run keeps. -/
theorem scheduled_run (cfg : Config) (tickBase : ℕ) (origin : ℤ) (carry : Datagram) (events : List BodyEvent) :
    Scheduled cfg tickBase ((Loop.initial cfg tickBase origin).inputs cfg carry events)
      (Loop.run cfg tickBase origin carry events) := by
  induction events using List.reverseRecOn with
  | nil =>
    exact ⟨Admission.between_initial cfg.skew_le tickBase cfg.warmup, rfl, rfl, .nil, rfl, rfl, rfl, nofun⟩
  | append_singleton events e ih =>
    rw [Loop.inputs_concat, Loop.run, List.foldl_append]
    exact ih.turn carry e

/-- A body hands to the policy no sample of its own tick but a fresh one. -/
theorem Scheduled.aged (h : Scheduled cfg tickBase history x) (carry : Datagram) (e : BodyEvent)
    (hstale : (x.input cfg carry e).fresh = false) : 1 ≤ (x.input cfg carry e).staleness := by
  cases hheld : (x.input cfg carry e).held with
  | none =>
    obtain ⟨-, hadmitted⟩ := h.between.cycle (datagramsOf x.n carry e)
    rw [← h.base] at hadmitted
    have hadmitted : Admission.Admitted (x.r.tickBase + x.n) x.n x.r.admission (x.admitted carry e) := hadmitted
    have hage : (x.input cfg carry e).staleness = (x.admitted carry e).cycle.staleness := rfl
    have hnone : (x.admitted carry e).held = none := Option.map_eq_none_iff.mp hheld
    rw [hage, hadmitted.staleness, hnone, Option.elim_none]
    omega
  | some o =>
    exact (h.sensed.concat (h.driven carry e)).staleness_pos hstale fun hnone => by simp [hheld] at hnone

/-- A body that runs the policy sends its command and presents one record, with the counts of its cycle. -/
theorem Scheduled.recorded (h : Scheduled cfg tickBase history x) (carry : Datagram) {e : BodyEvent}
    (hruns : x.Runs cfg e) : ∃ record fields, (x.body cfg carry e).records = x.records ++ [record] ∧
      Counted (x.body cfg carry e).r.admission.cycle record ∧
      (x.body cfg carry e).r.reply = Lockstep.replyFrame x.n fields ∧
      fields.delta = (Episode.step x.r.state (x.input cfg carry e)).requestedDelta := by
  obtain ⟨hadmission, -, -, -, -, -, record, hrecord, hreply, hrecords⟩ := Loop.body_of_runs carry hruns
  obtain ⟨-, hadmitted⟩ := h.between.cycle (datagramsOf x.n carry e)
  rw [← h.base] at hadmitted
  refine ⟨_, _, hrecords, ?_, hreply, by rw [hrecord]; rfl⟩
  rw [hadmission, hrecord]
  exact counted_record hadmitted ..

end Tvc.Freerun
