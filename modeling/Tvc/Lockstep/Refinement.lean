import Tvc.EpisodeAgreement
import Tvc.Headless
import Tvc.Lockstep.Retry

/-!
# Lockstep refines the headless reference

An undisturbed exchange is a tick of the headless loop, split over two processes. The simulator's
course and the session's core together hold what the loop holds, and the rows and records they
leave say what its rows say.
-/

namespace Tvc.Lockstep

open StopAndWait

variable [Arith F64] {spec : Scenario F64} {seed : U64} {delayTicks : Fin 2}

/-! ## What is compared -/

/-- The row that the simulator reports of a row of the reference. -/
def simRowOf (row : Headless.Row F64) : SimRow where
  tick := row.tick
  hasSample := row.fresh
  applied := row.arriving.isSome
  theta := row.truth.theta
  omega := row.truth.omega
  cmdApplied := row.actuator.applied

/-- What the vehicle reports of a row of the reference. -/
def reportedOf (row : Headless.Row F64) : Reported where
  sensorTick := row.held.elim 0xffffffffffffffff Observation.tick
  staleness := row.staleness
  state := row.episode.state.mode.toNat
  reason := ((row.episode.state.terminal.map TerminalResult.reason).getD .none).toNat
  cmd := row.episode.requestedDelta
  iState := row.episode.state.pid.iState
  dPrev := row.episode.state.pid.dPrev

/-! ## The frame of a request -/

omit [Arith F64] in
/-- The bits of the flag word of a sensor frame. -/
theorem flagsOf_bits (upDrop : Bool) (opcode : Option Opcode) (simReason : Option SimReason) :
    let flags := flagsOf upDrop opcode simReason
    (flags &&& 1 != 0) = !upDrop ∧ (flags &&& 2 != 0) = simReason.isSome ∧
      (flags &&& 4 != 0) = opcode.isSome ∧ ∀ o ∈ opcode, ((flags >>> 8) &&& 255).toNat = o.toNat := by
  rcases opcode with _ | (_ | _ | _) <;> cases upDrop <;> cases simReason <;>
    simp [flagsOf, Opcode.toNat]

/-- What the session reads in the frame of a request. -/
theorem frame_reads {r : Request} (htick : r.tick < 2 ^ 64) (opcode : Option Opcode) (commandSeq : U32) :
    let f := Frame.ofFields (sensorFieldsOf r opcode commandSeq)
    f.tick = r.tick ∧ f.valid = !r.upDrop ∧ f.terminal = r.simReason.isSome ∧
      commandOf f = opcode.map (fun o => ⟨commandSeq, o.toNat, (r.tick + 50) % 2 ^ 64⟩) ∧
      (simReasonOf f).map BitVec.toNat = r.simReason.map SimReason.toNat := by
  intro f
  have hflags : f.fields.flags = flagsOf r.upDrop opcode r.simReason := flagsOf_masked ..
  have hframe : f.tick = r.tick := (BitVec.toNat_ofNat r.tick 64).trans (Nat.mod_eq_of_lt htick)
  obtain ⟨hvalid, hterminal, hcommand, hopcode⟩ := flagsOf_bits r.upDrop opcode r.simReason
  refine ⟨hframe, ?_, ?_, ?_, ?_⟩
  · rw [Frame.valid, hflags, hvalid]
  · rw [Frame.terminal, hflags, hterminal]
  · rw [commandOf, hflags, hcommand, hframe]
    cases opcode with
    | none => rfl
    | some o =>
      rw [hopcode o rfl]
      rfl
  · rw [simReasonOf, Frame.terminal, hflags, hterminal]
    have hword : f.fields.simReason = BitVec.ofNat 32 (r.simReason.elim 0 SimReason.toNat) := rfl
    rw [hword]
    rcases r.simReason with _ | (_ | _ | _ | _ | _ | _) <;> rfl

/-! ## The inputs of a tick -/

/-- The inputs that the headless loop hands to its episode machine. -/
def referenceInputs (spec : Scenario F64) (l : Headless.Loop F64) (tick : ℕ) : EpisodeInput F64 :=
  let upDrop := Headless.dropOf spec tick .up (drawDrop l.streamUp spec.lossUp).1
  let observation := Headless.observation tick l.truth upDrop
  let held := if Headless.isFresh observation then some observation else l.held
  { tick
    held
    fresh := Headless.isFresh observation
    staleness := Headless.ageOf held tick
    command := (spec.commandAt tick).map fun opcode =>
      ⟨if (spec.commandAt tick).isSome then l.commandSeq + 1 else l.commandSeq, opcode.toNat, tick + 50⟩
    horizonReached := false
    simReason := (Headless.reasonOf spec l.pendingReason tick).map SimReason.toNat
    stopReason := none }

/-- The course and the core after some exchanges hold what the headless loop holds. -/
structure Mirrors (spec : Scenario F64) (n : ℕ) (y : Course × Server) (l : Headless.Loop F64) : Prop where
  tick : y.1.tick = n
  fed : ∃ history, Fed spec.autoArm history y.2.1
  cycle : y.2.1.cycle = n
  live : y.1.broken = false → y.2.1.state.mode ≠ .terminated
  state : y.2.1.state = l.state
  held : y.2.1.held = l.held
  streamUp : y.1.streamUp = l.streamUp
  streamDown : y.1.streamDown = l.streamDown
  delay : y.1.delay = l.delay
  truth : y.1.truth = l.truth
  act : y.1.act = l.act
  commandSeq : y.1.commandSeq = l.commandSeq
  pendingReason : y.1.pendingReason = l.pendingReason
  broken : y.1.broken = l.broken
  rows : y.1.rows = l.rows.map simRowOf
  records : y.2.2.map reported = l.rows.map reportedOf

variable {n : ℕ} {y y' : Course × Server} {l : Headless.Loop F64} {c : Course} {r : Request} {f : Frame}

/-- The losses of a request are those of the reference. -/
theorem Requested.drops (h : Requested spec y.1 c r) (hm : Mirrors spec n y l) :
    r.upDrop = Headless.dropOf spec n .up (drawDrop l.streamUp spec.lossUp).1 ∧
      r.downDrop = Headless.dropOf spec n .down (drawDrop l.streamDown spec.lossDown).1 := by
  rw [h.upDrop, h.downDrop, hm.tick, hm.streamUp, hm.streamDown]
  unfold Headless.dropOf
  constructor
  · cases spec.forcedDropAt n .up <;> rfl
  · cases spec.forcedDropAt n .down <;> rfl

/-- A frame holds a fresh sample exactly if the reference does, and the same one. -/
theorem Requested.sample (h : Requested spec y.1 c r) (hm : Mirrors spec n y l) :
    let f := Frame.ofFields (sensorFieldsOf r (spec.commandAt n) c.commandSeq)
    let observation := Headless.observation n l.truth
      (Headless.dropOf spec n .up (drawDrop l.streamUp spec.lossUp).1)
    isFresh f = Headless.isFresh observation ∧
      heldAfter y.2.1.held f = if Headless.isFresh observation then some observation else l.held := by
  intro f observation
  have hsmall : r.tick < 2 ^ 64 := h.tick ▸ h.small
  obtain ⟨htick, hvalid, -⟩ := frame_reads hsmall (spec.commandAt n) c.commandSeq
  have hframe : f.tick = n := htick.trans (h.tick.trans hm.tick)
  have hvalid : f.valid = !r.upDrop := hvalid
  have htruth : r.observation = observe n l.truth := by rw [h.observation, hm.tick, hm.truth]
  have hread : f.fields.theta = (if r.upDrop then 0.0 else r.observation.theta) ∧
      f.fields.omega = if r.upDrop then 0.0 else r.observation.omega := ⟨rfl, rfl⟩
  obtain ⟨hdrop, -⟩ := h.drops hm
  have hobservation : observation = Headless.observation n l.truth r.upDrop := by rw [hdrop]
  rw [hobservation, isFresh, heldAfter, isFresh, Frame.finite, hread.1, hread.2, hframe, hvalid, hm.held]
  cases r.upDrop with
  | true => exact ⟨rfl, rfl⟩
  | false =>
    rw [htruth]
    exact ⟨(Bool.and_assoc ..).symm, by rw [← Bool.and_assoc]; rfl⟩

/-- The age of a sample is that of the reference: without one the cycles are few, and their count does
not wrap. -/
theorem Mirrors.age (hm : Mirrors spec n y l) (hlive : y.1.broken = false) {sample : Option (Observation F64)}
    (hnone : sample = none → l.held = none) : ageOf sample n y.2.1.cycle = Headless.ageOf sample n := by
  unfold ageOf Headless.ageOf
  cases sample with
  | some o => rfl
  | none =>
    obtain ⟨history, hfed⟩ := hm.fed
    have hfew := Episode.cycles_of_unheld spec.autoArm hfed.sensed (hfed.state ▸ hm.live hlive)
      (hfed.held.trans (hm.held.trans (hnone rfl)))
    rw [hfed.length] at hfew
    have hcycle := hm.cycle
    dsimp only
    rw [Nat.mod_eq_of_lt (by omega), hcycle]

/-- The session hands to the policy what the reference does, but for the tick of a command, which wraps. -/
theorem Requested.inputs (h : Requested spec y.1 c r) (hm : Mirrors spec n y l) (hlive : y.1.broken = false) :
    y.2.1.inputs (.ofFields (sensorFieldsOf r (spec.commandAt n) c.commandSeq)) =
      { referenceInputs spec l n with
        command := (referenceInputs spec l n).command.map fun c =>
          { c with effectiveTick := c.effectiveTick % 2 ^ 64 } } := by
  have hsmall : r.tick < 2 ^ 64 := h.tick ▸ h.small
  have hn : r.tick = n := h.tick.trans hm.tick
  obtain ⟨htick, -, -, hcommand, hreason⟩ := frame_reads hsmall (spec.commandAt n) c.commandSeq
  obtain ⟨hfresh, hheld⟩ := h.sample hm
  have hseq : c.commandSeq = if (spec.commandAt n).isSome then l.commandSeq + 1 else l.commandSeq := by
    rw [h.course, hm.tick, hm.commandSeq]
  have hgiven : r.simReason = Headless.reasonOf spec l.pendingReason n := by
    rw [h.simReason, hm.tick, hm.pendingReason]
    rfl
  generalize Frame.ofFields (sensorFieldsOf r (spec.commandAt n) c.commandSeq) = f at *
  rw [hn, hseq] at hcommand
  rw [hgiven] at hreason
  have hframe : f.tick = n := htick.trans hn
  have hage : ageOf (heldAfter y.2.1.held f) n y.2.1.cycle = Headless.ageOf (heldAfter y.2.1.held f) n := by
    refine hm.age hlive fun hnone => ?_
    rw [hheld] at hnone
    split at hnone
    · nomatch hnone
    · exact hnone
  unfold Core.inputs inputsOf referenceInputs
  rw [hframe, hage, hheld, hfresh, hcommand, hreason]
  dsimp only
  rw [Option.map_map]
  rfl

/-- Where the tick of a command does not wrap the session hands to the policy what the reference does. -/
theorem Requested.inputs_eq (h : Requested spec y.1 c r) (hm : Mirrors spec n y l) (hlive : y.1.broken = false)
    (hwrap : ∀ opcode ∈ spec.commandAt n, n + 50 < 2 ^ 64) :
    y.2.1.inputs (.ofFields (sensorFieldsOf r (spec.commandAt n) c.commandSeq)) = referenceInputs spec l n := by
  rw [h.inputs hm hlive]
  unfold referenceInputs
  cases hopcode : spec.commandAt n with
  | none => rfl
  | some opcode =>
    dsimp only
    rw [Option.map_some, Option.map_some, Nat.mod_eq_of_lt (hwrap opcode hopcode)]

/-! ## The record and the reply of a tick -/

/-- What the record of a cycle reports. -/
theorem reported_record {i : EpisodeInput F64} (hage : i.staleness ≤ 0xffffffff)
    (hheld : ∀ o ∈ i.held, o.tick < 2 ^ 64) (f : Frame) (result : EpisodeOutput F64) :
    reported (applyAcks result.acks (recordOf i f result)).2 =
      { sensorTick := i.held.elim 0xffffffffffffffff Observation.tick
        staleness := i.staleness
        state := result.state.mode.toNat
        reason := ((result.state.terminal.map TerminalResult.reason).getD .none).toNat
        cmd := result.requestedDelta
        iState := result.state.pid.iState
        dPrev := result.state.pid.dPrev } := by
  obtain ⟨flags, number, status, hothers⟩ := applyAcks_others result.acks (recordOf i f result)
  have hstaleness : (BitVec.ofNat 32 i.staleness).toNat = i.staleness := by
    rw [BitVec.toNat_ofNat, Nat.mod_eq_of_lt (by omega)]
  have hmode : (BitVec.ofNat 8 result.state.mode.toNat).toNat = result.state.mode.toNat := by
    cases result.state.mode <;> rfl
  have hreason (why : Reason) : (BitVec.ofNat 8 why.toNat).toNat = why.toNat := by cases why <;> rfl
  have hsensor : (i.held.elim (BitVec.allOnes 64) fun held => BitVec.ofNat 64 held.tick).toNat =
      i.held.elim 0xffffffffffffffff Observation.tick := by
    cases hsample : i.held with
    | none => rfl
    | some o =>
      rw [Option.elim_some, Option.elim_some, BitVec.toNat_ofNat, Nat.mod_eq_of_lt (hheld o hsample)]
  rw [hothers, ← hsensor]
  unfold reported recordOf
  dsimp only
  split <;> simp only [hstaleness, hmode, hreason]

omit [Arith F64] in
/-- The low byte of a status word is the mode. -/
theorem statusOf_low (record : Telem.ControlRecord) (rung : ℕ) (ackByte : U8) :
    (statusOf record rung ackByte).toNat % 256 = record.state.toNat := by
  have hlow : (statusOf record rung ackByte).setWidth 8 = record.state := by
    refine BitVec.eq_of_getLsbD_eq fun i hi => ?_
    simp only [statusOf, BitVec.getLsbD_setWidth, BitVec.getLsbD_or, BitVec.getLsbD_shiftLeft, hi,
      show i < 16 by omega, show i < 24 by omega, show i < 32 by omega, decide_true, Bool.not_true, Bool.and_false,
      Bool.false_and, Bool.or_false, Bool.true_and]
  rw [← hlow, BitVec.toNat_setWidth]

/-- The reply says whether the run has ended. -/
theorem replyFields_state (i : EpisodeInput F64) (cycle : ℕ) (f : Frame) (result : EpisodeOutput F64) :
    ((Wire.actuatorDict (replyFields i cycle f result)).int .status).toNat % 256 = result.state.mode.toNat := by
  obtain ⟨flags, number, status, hothers⟩ := applyAcks_others result.acks (recordOf i f result)
  have hstatus : ((Wire.actuatorDict (replyFields i cycle f result)).int .status).toNat =
      (statusOf (applyAcks result.acks (recordOf i f result)).2 (rungOf i.staleness i.fresh)
        (applyAcks result.acks (recordOf i f result)).1).toNat := rfl
  rw [hstatus, statusOf_low, hothers]
  unfold recordOf
  dsimp only
  split <;> cases result.state.mode <;> rfl

/-! ## One tick -/

/-- What a tick leaves of the plant: where the run goes on, it moves. -/
def plantAfter (ended : Bool) (broken : Bool) (truth : TruthState F64) (pending : Option SimReason)
    (act : ActuatorState F64) (disturbance : Disturbance F64) : Bool × TruthState F64 × Option SimReason :=
  if ended then (true, truth, pending)
  else
    let truth := Plant.step truth act fixedEnvironment disturbance ControlRef.dt
    (broken, truth, (Plant.lossOfControl truth).or pending)

/-- What the course keeps of a completed tick. -/
theorem complete_fields (c : Course) (r : Request) (answer : Wire.Fields) :
    let delay := c.delay ++ [if r.downDrop then none else some (answer.float .delta)]
    let act := Actuator.step c.act (delay.headD none)
    let t := c.complete r answer
    t.tick = c.tick + 1 ∧ t.streamUp = c.streamUp ∧ t.streamDown = c.streamDown ∧ t.delay = delay.tail ∧
      t.act = act ∧ t.commandSeq = c.commandSeq ∧
      t.rows = c.rows ++ [⟨r.tick, !r.upDrop && r.observation.theta.isFinite && r.observation.omega.isFinite,
        (delay.headD none).isSome, c.truth.theta, c.truth.omega, act.applied⟩] ∧
      (t.broken, t.truth, t.pendingReason) =
        plantAfter (r.simReason.isSome || (answer.int .status).toNat % 256 == 3) c.broken c.truth c.pendingReason act
          r.disturbance := by
  unfold Course.complete plantAfter
  dsimp only
  cases r.simReason with
  | some reason => exact ⟨rfl, rfl, rfl, rfl, rfl, rfl, rfl, rfl⟩
  | none =>
    cases (answer.int .status).toNat % 256 == 3 with
    | true => exact ⟨rfl, rfl, rfl, rfl, rfl, rfl, rfl, rfl⟩
    | false => exact ⟨rfl, rfl, rfl, rfl, rfl, rfl, rfl, rfl⟩

/-- A tick of the reference, around its episode machine. -/
theorem headless_tick (spec : Scenario F64) (l : Headless.Loop F64) (n : ℕ) :
    let i := referenceInputs spec l n
    let result := EpisodeRef.step l.state i
    let upDrop := Headless.dropOf spec n .up (drawDrop l.streamUp spec.lossUp).1
    let downDrop := Headless.dropOf spec n .down (drawDrop l.streamDown spec.lossDown).1
    let delay := l.delay ++ [if downDrop then none else some result.requestedDelta]
    let act := Actuator.step l.act (delay.headD none)
    let simReason := Headless.reasonOf spec l.pendingReason n
    let t : Headless.Loop F64 :=
      { streamUp := (drawDrop l.streamUp spec.lossUp).2
        streamDown := (drawDrop l.streamDown spec.lossDown).2
        delay := delay.tail
        truth := l.truth
        act
        state := result.state
        held := i.held
        pendingReason := l.pendingReason
        commandSeq := if (spec.commandAt n).isSome then l.commandSeq + 1 else l.commandSeq
        rows := l.rows ++ [⟨n, l.truth, Headless.observation n l.truth upDrop, i.held, i.fresh, i.staleness, i.command,
          result, delay.headD none, act, upDrop, downDrop⟩]
        simReason
        broken := l.broken }
    Headless.tick spec l n =
      if simReason.isSome then { t with broken := true }
      else if result.state.terminal.isSome then { t with simReason := some .vehicleTerminal, broken := true }
      else
        let truth := Plant.step l.truth act fixedEnvironment (spec.disturbanceAt n fixedEnvironment) ControlRef.dt
        { t with truth, pendingReason := (Plant.lossOfControl truth).or l.pendingReason } :=
  rfl

/-- What the reference keeps of a tick. -/
theorem headless_fields (spec : Scenario F64) (l : Headless.Loop F64) (n : ℕ) :
    let i := referenceInputs spec l n
    let result := EpisodeRef.step l.state i
    let upDrop := Headless.dropOf spec n .up (drawDrop l.streamUp spec.lossUp).1
    let downDrop := Headless.dropOf spec n .down (drawDrop l.streamDown spec.lossDown).1
    let delay := l.delay ++ [if downDrop then none else some result.requestedDelta]
    let act := Actuator.step l.act (delay.headD none)
    let t := Headless.tick spec l n
    t.state = result.state ∧ t.held = i.held ∧ t.streamUp = (drawDrop l.streamUp spec.lossUp).2 ∧
      t.streamDown = (drawDrop l.streamDown spec.lossDown).2 ∧ t.delay = delay.tail ∧ t.act = act ∧
      t.commandSeq = (if (spec.commandAt n).isSome then l.commandSeq + 1 else l.commandSeq) ∧
      t.rows = l.rows ++ [⟨n, l.truth, Headless.observation n l.truth upDrop, i.held, i.fresh, i.staleness,
        i.command, result, delay.headD none, act, upDrop, downDrop⟩] ∧
      (t.broken, t.truth, t.pendingReason) =
        plantAfter ((Headless.reasonOf spec l.pendingReason n).isSome || result.state.terminal.isSome) l.broken l.truth
          l.pendingReason act (spec.disturbanceAt n fixedEnvironment) := by
  rw [headless_tick]
  dsimp only
  generalize EpisodeRef.step l.state (referenceInputs spec l n) = result
  unfold plantAfter
  cases Headless.reasonOf spec l.pendingReason n with
  | some reason =>
    rw [if_pos (Option.isSome_some ..), Option.isSome_some, Bool.true_or, if_pos rfl]
    exact ⟨rfl, rfl, rfl, rfl, rfl, rfl, rfl, rfl, rfl⟩
  | none =>
    rw [Option.isSome_none, if_neg Bool.false_ne_true, Bool.false_or]
    cases result.state.terminal with
    | some terminal =>
      rw [if_pos (Option.isSome_some ..), Option.isSome_some, if_pos rfl]
      exact ⟨rfl, rfl, rfl, rfl, rfl, rfl, rfl, rfl, rfl⟩
    | none =>
      rw [Option.isSome_none, if_neg Bool.false_ne_true, if_neg Bool.false_ne_true]
      exact ⟨rfl, rfl, rfl, rfl, rfl, rfl, rfl, rfl, rfl⟩

/-- A run that has ended is broken by its reply. -/
theorem Exchanged.live_after (hx : Exchanged spec y y' c r f) (hgoes : y'.1.broken = false) :
    y'.2.1.state.mode ≠ .terminated := by
  intro hmode
  have hexecuted : y'.2.1 = y.2.1.execute f := congrArg Prod.fst hx.server
  have hstate : (Episode.step y.2.1.state (y.2.1.inputs f)).state.mode = .terminated := by
    rw [hexecuted] at hmode
    exact hmode
  obtain ⟨-, -, -, -, -, -, -, hend⟩ := complete_fields c r (Wire.actuatorDict
    (replyFields (y.2.1.inputs f) y.2.1.cycle f (Episode.step y.2.1.state (y.2.1.inputs f))))
  rw [replyFields_state, hstate, plantAfter, show (Mode.terminated.toNat == 3) = true from rfl, Bool.or_true,
    if_pos rfl, ← hx.client] at hend
  exact Bool.noConfusion (hgoes.symm.trans (Prod.mk.inj hend).1)

/-- An exchange is a tick of the reference. -/
theorem Mirrors.exchange (hm : Mirrors spec n y l) (hx : Exchanged spec y y' c r f)
    (hwrap : ∀ opcode ∈ spec.commandAt n, n + 50 < 2 ^ 64) :
    Mirrors spec (n + 1) y' (Headless.tick spec l n) := by
  obtain ⟨history, hfed⟩ := hm.fed
  have hframe : f = .ofFields (sensorFieldsOf r (spec.commandAt n) c.commandSeq) := by rw [hx.frame, hm.tick]
  have hinputs : y.2.1.inputs f = referenceInputs spec l n := hframe ▸ hx.requested.inputs_eq hm hx.live hwrap
  have htick : f.tick = n := by rw [hframe, hx.requested.frame_tick, hm.tick]
  have hcycle := htick.trans hm.cycle.symm
  have hnext := hfed.execute hcycle
  have hsound := Episode.sound_run spec.autoArm (history ++ [y.2.1.inputs f])
  rw [← hnext.state] at hsound
  have hresult : Episode.step y.2.1.state (y.2.1.inputs f) = EpisodeRef.step l.state (referenceInputs spec l n) := by
    have hsettled := (Episode.sound_run spec.autoArm history).settled
    rw [← hfed.state, hm.state] at hsettled
    rw [hinputs, hm.state, EpisodeRef.step_agrees hsettled]
  -- The two sides keep the same of the tick.
  obtain ⟨hupDrop, hdownDrop⟩ := hx.requested.drops hm
  obtain ⟨hctick, hcup, hcdown, hcdelay, hcact, hcseq, hcrows, hcend⟩ := complete_fields c r (Wire.actuatorDict
    (replyFields (y.2.1.inputs f) y.2.1.cycle f (Episode.step y.2.1.state (y.2.1.inputs f))))
  obtain ⟨hlstate, hlheld, hlup, hldown, hldelay, hlact, hlseq, hlrows, hlend⟩ := headless_fields spec l n
  have hdelta : (Wire.actuatorDict (replyFields (y.2.1.inputs f) y.2.1.cycle f
      (Episode.step y.2.1.state (y.2.1.inputs f)))).float .delta =
        (EpisodeRef.step l.state (referenceInputs spec l n)).requestedDelta := hresult ▸ rfl
  have hterminal : (EpisodeRef.step l.state (referenceInputs spec l n)).state.mode = .terminated ↔
      (EpisodeRef.step l.state (referenceInputs spec l n)).state.terminal.isSome = true := by
    rw [← hresult]
    exact hsound.terminal
  have hended : (((Wire.actuatorDict (replyFields (y.2.1.inputs f) y.2.1.cycle f
      (Episode.step y.2.1.state (y.2.1.inputs f)))).int .status).toNat % 256 == 3) =
        (EpisodeRef.step l.state (referenceInputs spec l n)).state.terminal.isSome := by
    rw [replyFields_state, hresult, Bool.eq_iff_iff, ← hterminal]
    cases (EpisodeRef.step l.state (referenceInputs spec l n)).state.mode <;> decide
  have hreason : r.simReason = Headless.reasonOf spec l.pendingReason n := by
    rw [hx.requested.simReason, hm.tick, hm.pendingReason]
    rfl
  have hcourse := hx.requested.course
  have hdelay : c.delay = l.delay := by rw [hcourse]; exact hm.delay
  have hact : c.act = l.act := by rw [hcourse]; exact hm.act
  have htruth : c.truth = l.truth := by rw [hcourse]; exact hm.truth
  have hpending : c.pendingReason = l.pendingReason := by rw [hcourse]; exact hm.pendingReason
  have hbroken : c.broken = l.broken := by rw [hcourse]; exact hm.broken
  have hdisturbance : r.disturbance = spec.disturbanceAt n fixedEnvironment := by
    rw [hx.requested.disturbance, hm.tick]
  rw [hdelta, hdownDrop, hdelay] at hcdelay
  rw [hdelta, hdownDrop, hdelay, hact] at hcact hcrows
  rw [hdelta, hdownDrop, hdelay, hact, hended, hreason, htruth, hpending, hbroken, hdisturbance, ← hlend] at hcend
  rw [← hx.client] at hctick hcup hcdown hcdelay hcact hcseq hcrows hcend
  obtain ⟨hendBroken, hendPlant⟩ := Prod.mk.inj hcend
  obtain ⟨hendTruth, hendPending⟩ := Prod.mk.inj hendPlant
  have hexecuted : y'.2.1 = y.2.1.execute f := congrArg Prod.fst hx.server
  have hrecords : y'.2.2 = y.2.2 ++ [(y.2.1.execute f).record] := congrArg Prod.snd hx.server
  refine ⟨?_, ⟨_, hexecuted.symm ▸ hnext⟩, ?_, hx.live_after, ?_, ?_, ?_, ?_, hcdelay.trans hldelay.symm,
    hendTruth, hcact.trans hlact.symm, ?_, hendPending, hendBroken, ?_, ?_⟩
  · rw [hctick, hcourse, ← hm.tick]
  · rw [hexecuted, ← hm.cycle]
    rfl
  · rw [hexecuted, hlstate, ← hresult]
    rfl
  · rw [hexecuted, hlheld, ← hinputs]
    rfl
  · rw [hcup, hcourse, hlup, ← hm.streamUp]
  · rw [hcdown, hcourse, hldown, ← hm.streamDown]
  · rw [hcseq, hcourse, hlseq, hm.tick, hm.commandSeq]
  · have hkept : c.rows = l.rows.map simRowOf := by rw [hcourse]; exact hm.rows
    have hsample : (!r.upDrop && r.observation.theta.isFinite && r.observation.omega.isFinite) =
        (referenceInputs spec l n).fresh := by
      rw [hx.requested.observation, hm.tick, hm.truth, hupDrop]
      unfold referenceInputs Headless.observation
      dsimp only
      cases Headless.dropOf spec n .up (drawDrop l.streamUp spec.lossUp).1 <;> rfl
    have hrow : r.tick = n := hx.requested.tick.trans hm.tick
    rw [hcrows, hlrows, List.map_append, hkept, hsample, hrow, htruth]
    rfl
  · have hsmall : n < 2 ^ 64 := hm.tick ▸ hx.requested.small
    have hreported := reported_record (i := referenceInputs spec l n) (min_le_right _ _) (fun o ho => ?_) f
      (EpisodeRef.step l.state (referenceInputs spec l n))
    · rw [hrecords, hlrows, List.map_append, List.map_append, hm.records]
      have hrecord : (y.2.1.execute f).record = (applyAcks (EpisodeRef.step l.state (referenceInputs spec l n)).acks
          (recordOf (referenceInputs spec l n) f (EpisodeRef.step l.state (referenceInputs spec l n)))).2 := by
        rw [← hresult, ← hinputs]
        rfl
      rw [List.map_singleton, hrecord, hreported]
      rfl
    · have hpast := (hfed.driven hcycle).past o (hinputs ▸ ho)
      have hinput : (y.2.1.inputs f).tick = f.tick := rfl
      omega

/-! ## Over a whole run -/

/-- The commands up to a tick take effect before the ticks run out. -/
def CommandsFit (spec : Scenario F64) (t : ℕ) : Prop := ∀ c ∈ spec.commands, c.1 ≤ t → c.1 + 50 < 2 ^ 64

/-- The two parties hold at first what the reference holds. -/
theorem mirrors_start (spec : Scenario F64) (seed : U64) (delayTicks : Fin 2) :
    Mirrors spec 0 (start spec seed delayTicks) (Headless.initial spec seed delayTicks) where
  tick := rfl
  fed := ⟨[], fed_initial spec.autoArm⟩
  cycle := rfl
  live _ := nofun
  state := rfl
  held := rfl
  streamUp := rfl
  streamDown := rfl
  delay := rfl
  truth := rfl
  act := rfl
  commandSeq := rfl
  pendingReason := rfl
  broken := rfl
  rows := rfl
  records := rfl

/-- One more tick of the reference. -/
theorem upTo_succ (spec : Scenario F64) (seed : U64) (delayTicks : Fin 2) (n : ℕ) :
    Headless.upTo spec seed delayTicks (n + 1) =
      if (Headless.upTo spec seed delayTicks n).broken then Headless.upTo spec seed delayTicks n
      else Headless.tick spec (Headless.upTo spec seed delayTicks n) n := by
  rw [Headless.upTo, List.range_succ, List.foldl_append]
  rfl

/-- After any number of exchanges the two parties hold what the reference holds. -/
theorem mirrors_sync (h : (protocol spec).sync (start spec seed delayTicks) n = some y)
    (hfit : ∀ t < n, CommandsFit spec t) : Mirrors spec n y (Headless.upTo spec seed delayTicks n) := by
  revert hfit
  refine sync_induction (P := fun n y => (∀ t < n, CommandsFit spec t) →
    Mirrors spec n y (Headless.upTo spec seed delayTicks n)) (fun _ => mirrors_start spec seed delayTicks)
    (fun {n y y'} ih hexchange hfit => ?_) h
  have hm := ih fun t ht => hfit t (Nat.lt_succ_of_lt ht)
  obtain ⟨c, r, f, hx⟩ := exchanged hexchange
  rw [upTo_succ, if_neg (by rw [← hm.broken, hx.live]; exact Bool.false_ne_true)]
  exact hm.exchange hx fun opcode hopcode =>
    hfit n (Nat.lt_succ_self n) (n, opcode) (Scenario.mem_commands_of_commandAt hopcode) le_rfl

/-- The rows of the reference up to a tick begin those up to a later one. -/
theorem upTo_rows (spec : Scenario F64) (seed : U64) (delayTicks : Fin 2) {m n : ℕ} (h : m ≤ n) :
    ∃ rest, (Headless.upTo spec seed delayTicks n).rows = (Headless.upTo spec seed delayTicks m).rows ++ rest := by
  induction h with
  | refl => exact ⟨[], (List.append_nil _).symm⟩
  | step _ ih =>
    obtain ⟨rest, hrest⟩ := ih
    rw [upTo_succ]
    split
    · exact ⟨rest, hrest⟩
    · obtain ⟨-, -, -, -, -, -, -, hrows, -⟩ := headless_fields spec (Headless.upTo spec seed delayTicks _) _
      exact ⟨_, by rw [hrows, hrest, List.append_assoc]⟩

/-- What later exchanges leave of earlier ones. -/
def Extends (z y : Course × Server) : Prop :=
  (∃ rest, y.1.rows = z.1.rows ++ rest) ∧ ∃ rest, y.2.2 = z.2.2 ++ rest

/-- An exchange adds a row and a record. -/
theorem Extends.exchange {z : Course × Server} (h : Extends z y) (hexchange : (protocol spec).exchange y = some y') :
    Extends z y' := by
  obtain ⟨⟨rows, hrows⟩, records, hrecords⟩ := h
  obtain ⟨c, r, f, hx⟩ := exchanged hexchange
  obtain ⟨-, -, -, -, -, -, hcrows, -⟩ := complete_fields c r (Wire.actuatorDict
    (replyFields (y.2.1.inputs f) y.2.1.cycle f (Episode.step y.2.1.state (y.2.1.inputs f))))
  have hkept : c.rows = y.1.rows := by rw [hx.requested.course]
  obtain ⟨last, hlast⟩ : ∃ last, y'.1.rows = c.rows ++ [last] := ⟨_, by rw [hx.client]; exact hcrows⟩
  refine ⟨⟨rows ++ [last], ?_⟩, records ++ [(y.2.1.execute f).record], ?_⟩
  · rw [hlast, hkept, hrows, List.append_assoc]
  · rw [hx.server, hrecords, List.append_assoc]

/-- What the two processes have to show for a tick is what the reference has. -/
def RefinesAt (spec : Scenario F64) (seed : U64) (delayTicks : Fin 2) (p : Pair) (t : ℕ) (simRow : SimRow) : Prop :=
  ∃ row record, (Headless.rows spec seed delayTicks)[t]? = some row ∧ p.vehicle.records[t]? = some record ∧
    simRow = simRowOf row ∧ reported record = reportedOf row

/-- The rows of the simulator are those of its course. -/
theorem Follows.rows {client : Course} {sim : Sim} (h : Follows spec client sim) : sim.course.rows = client.rows := by
  have hrequest {r : Request} (hr : client.request spec = .ok (sim.course, r)) : sim.course.rows = client.rows := by
    rw [(requested hr).course]
  unfold Follows at h
  split at h
  · rw [h]
  · rw [h]
  · exact hrequest h.2
  · exact hrequest h.2
  · rcases h with h | ⟨r, hr⟩
    · rw [h]
    · exact hrequest hr

/-- The records of the vehicle begin with those of the completed exchanges. -/
theorem Tracks.records_begin {p : Pair} {client : Course} {server : Server} {completed answered : ℕ}
    {requests : List Request} (h : Tracks spec seed delayTicks p client server completed answered requests)
    {s : Server} (hsync : (protocol spec).sync (start spec seed delayTicks) completed = some (client, s)) :
    ∃ rest, p.vehicle.records.map reported = s.2.map reported ++ rest := by
  by_cases hlevel : answered = completed
  · obtain ⟨s', hsync', hs⟩ := h.inStep.client
    obtain rfl : s = s' := by simpa using hsync.symm.trans hsync'
    rw [h.records, ← hs hlevel]
    exact ⟨[], (List.append_nil _).symm⟩
  · obtain ⟨-, data, hserved⟩ := h.inStep.server hlevel
    obtain ⟨y, r, f, hy, -, -, -, rfl, -⟩ := served_at hserved
    obtain rfl : (client, s) = y := by simpa using hsync.symm.trans hy
    rw [h.records, List.map_append]
    exact ⟨_, rfl⟩

/-- A completed tick shows what the reference shows, unless a command up to it would take effect past
the last tick of 64 bits. -/
theorem Tracks.refines {p : Pair} {client : Course} {server : Server} {completed answered : ℕ}
    {requests : List Request} (h : Tracks spec seed delayTicks p client server completed answered requests)
    {t : ℕ} {simRow : SimRow} (hrow : p.sim.course.rows[t]? = some simRow) (hfit : CommandsFit spec t) :
    RefinesAt spec seed delayTicks p t simRow := by
  obtain ⟨s, hsync, -⟩ := h.inStep.client
  have hlevel := level hsync
  rw [h.sim.rows] at hrow
  have hcompleted : t + 1 ≤ completed := by
    rw [← hlevel.rows]
    exact (List.getElem?_eq_some_iff.mp hrow).1
  obtain ⟨z, hz, ⟨rows, hrows⟩, records, hrecords⟩ :
      ∃ z, (protocol spec).sync (start spec seed delayTicks) (t + 1) = some z ∧ Extends z (client, s) :=
    sync_of_le (fun y => ⟨⟨[], (List.append_nil _).symm⟩, [], (List.append_nil _).symm⟩)
      (fun hextends hexchange => hextends.exchange hexchange) hcompleted hsync
  have hm := mirrors_sync hz fun t' ht' c hc hle => hfit c hc (hle.trans (Nat.lt_succ_iff.mp ht'))
  have hlength : (Headless.upTo spec seed delayTicks (t + 1)).rows.length = t + 1 := by
    have hrows := (level hz).rows
    rwa [hm.rows, List.length_map] at hrows
  obtain ⟨row, hreference⟩ : ∃ row, (Headless.upTo spec seed delayTicks (t + 1)).rows[t]? = some row :=
    ⟨_, List.getElem?_eq_getElem (by omega)⟩
  have hticks : t + 1 ≤ spec.ticks := by
    obtain ⟨y, hy, hexchange⟩ := Option.bind_eq_some_iff.mp hz
    obtain ⟨c, r, f, hx⟩ := exchanged hexchange
    have htime := hx.inTime
    rw [(level hy).tick] at htime
    exact htime
  obtain ⟨later, hlater⟩ := upTo_rows spec seed delayTicks hticks
  obtain ⟨rest, hrest⟩ := h.records_begin hsync
  have hreported : (p.vehicle.records.map reported)[t]? = some (reportedOf row) := by
    have hmirrored : (z.2.2.map reported)[t]? = some (reportedOf row) := by
      rw [hm.records, List.getElem?_map, hreference, Option.map_some]
    have hinside : t < (z.2.2.map reported).length := by rw [hm.records, List.length_map, hlength]; omega
    rw [hrest, show s.2 = z.2.2 ++ records from hrecords, List.map_append, List.append_assoc,
      List.getElem?_append_left hinside, hmirrored]
  rw [List.getElem?_map] at hreported
  obtain ⟨record, hrecord, hequal⟩ := Option.map_eq_some_iff.mp hreported
  refine ⟨row, record, ?_, hrecord, ?_, hequal⟩
  · rw [Headless.rows, hlater, List.getElem?_append_left (by omega), hreference]
  · have hshown : z.1.rows[t]? = some (simRowOf row) := by
      rw [hm.rows, List.getElem?_map, hreference, Option.map_some]
    rw [show client.rows = z.1.rows ++ rows from hrows, List.getElem?_append_left (by rw [(level hz).rows]; omega),
      hshown] at hrow
    exact (Option.some.inj hrow).symm

end Tvc.Lockstep
