import Tvc.Lockstep.Refinement

/-!
# Where lockstep and the reference part

The session adds fifty to the tick of a command in 64 bits, the reference adds without bound. So the
two agree on every tick of every run, whatever the network does, up to a command so late that its
tick wraps; and a run that stays quiet for long enough gets there.
-/

namespace Tvc.Lockstep

open StopAndWait

section Undisturbed

variable [Arith F64] {spec : Scenario F64} {seed : U64} {delayTicks : Fin 2} {n : ℕ} {y y' : Course × Server}
  {p : Pair} {c : Course} {r : Request} {f : Frame}

/-! ## Undisturbed runs -/

/-- A pair that stands between two ticks, where undisturbed exchanges lead. -/
structure Stands (spec : Scenario F64) (p : Pair) (y : Course × Server) : Prop where
  phase : p.sim.phase = .ready
  course : p.sim.course = y.1
  core : ∃ record, p.vehicle.session.core = { y.2.1 with record }
  records : p.vehicle.records.map reported = y.2.2.map reported
  fault : p.vehicle.session.fault = none
  running : y.1.broken = false → p.vehicle.running = true
  fed : ∃ history, Fed spec.autoArm history y.2.1

/-- The pair stands at its start. -/
theorem stands_initial (spec : Scenario F64) (seed : U64) (delayTicks : Fin 2) :
    Stands spec (.initial spec seed delayTicks) (start spec seed delayTicks) :=
  ⟨rfl, rfl, ⟨_, rfl⟩, rfl, rfl, fun _ => rfl, [], fed_initial spec.autoArm⟩

/-- The simulator that stands begins the tick of an exchange. -/
theorem Stands.begin (h : Stands spec p y) (hx : Exchanged spec y y' c r f) :
    (p.sim.begin spec).phase = .sending r 0 false ∧ (p.sim.begin spec).course = c := by
  have hgoes : ¬(y.1.broken || decide (spec.ticks ≤ y.1.tick)) = true := by
    have htime := hx.inTime
    simp [hx.live, htime]
  unfold Sim.begin
  rw [h.course, if_neg hgoes, hx.issued]
  exact ⟨rfl, rfl⟩

/-- The simulator completes its tick with the reply of an exchange. -/
theorem receive_accepted (hx : Exchanged spec y y' c r f) {sim : Sim} (hcourse : sim.course = c) :
    (sim.receive r (y.2.1.execute f).reply).phase = .ready ∧
      (sim.receive r (y.2.1.execute f).reply).course = y'.1 := by
  unfold Sim.receive
  rw [receiptOf_answer hx.accepted]
  exact ⟨rfl, by rw [hx.client, ← hcourse]⟩

/-- A turn of the loop with a new request goes on if no reason ends it. -/
theorem Vehicle.running_of_new {v : Vehicle} {d : Datagram} (h : (v.session.receive d).2 = .new)
    (sent pushed : Bool) :
    (v.receive d sent pushed).1.running = ((v.receive d sent pushed).1.session.reason == .none) := by
  unfold receive
  generalize v.session.receive d = x at h ⊢
  obtain ⟨s, kind⟩ := x
  obtain rfl : kind = .new := h
  rfl

/-- The vehicle that stands executes the frame of an exchange. -/
theorem Stands.execute (h : Stands spec p y) (hx : Exchanged spec y y' c r f) (hcycle : f.tick = y.2.1.cycle) :
    let w := p.vehicle.receive ⟨r.frame, false⟩ true true
    (∃ record, w.1.session.core = { y'.2.1 with record }) ∧ w.1.records.map reported = y'.2.2.map reported ∧
      w.1.session.fault = none ∧ (y'.1.broken = false → w.1.running = true) ∧
      w.2 = some (y.2.1.execute f).reply ∧ ∃ history, Fed spec.autoArm history y'.2.1 := by
  intro w
  obtain ⟨record, hcore⟩ := h.core
  obtain ⟨history, hfed⟩ := h.fed
  have hframe : (Datagram.mk r.frame false).frame = .ok f := hx.frame ▸ hx.requested.frame
  have hkind : (p.vehicle.session.receive ⟨r.frame, false⟩).2 = .new := by
    rw [(p.vehicle.session.receive_core _).2, hframe, hcore]
    exact (hfed.serving.new_iff f).mpr hcycle
  obtain ⟨⟨record', hkept⟩, hfault⟩ := Vehicle.receive_kept p.vehicle ⟨r.frame, false⟩ true true
  obtain ⟨g, hg, -, hexecuted⟩ := Session.core_of_new hkind
  obtain rfl : f = g := Except.ok.inj (hframe.symm.trans hg)
  obtain ⟨g, hg, -, -, hrecords, hreply⟩ := Vehicle.receive_new hkind true true
  obtain rfl : f = g := Except.ok.inj (hframe.symm.trans hg)
  have hsame : p.vehicle.session.core.execute f = y.2.1.execute f := by rw [hcore]; rfl
  have hserver : y'.2 = (y.2.1.execute f, y.2.2 ++ [(y.2.1.execute f).record]) := hx.server
  have hclean : w.1.session.fault = none := by
    refine hfault.trans (((p.vehicle.session.fault_of_receive _).resolve_left ?_).trans h.fault)
    rw [hkind]
    nofun
  have hnext := hfed.execute hcycle
  refine ⟨⟨record', ?_⟩, ?_, hclean, fun hgoes => ?_, ?_, history ++ [y.2.1.inputs f], ?_⟩
  · rw [hkept, hexecuted, hsame, hserver]
  · rw [hrecords, hserver, List.map_append, List.map_append, h.records]
    rw [show (p.vehicle.session.execute f).record = (y.2.1.execute f).record from
      congrArg Core.record ((Session.execute_core p.vehicle.session f).trans hsame)]
    rfl
  · have hstate : w.1.session.state = y'.2.1.state := by
      have hcores := congrArg Core.state hkept
      refine hcores.trans ?_
      rw [hexecuted, hsame, hserver]
    have hlive := hx.live_after hgoes
    rw [hserver, hnext.state] at hlive
    have hterminal : (y.2.1.execute f).state.terminal = none := by
      rw [hnext.state]
      exact Option.not_isSome_iff_eq_none.mp fun hsome =>
        hlive ((Episode.sound_run spec.autoArm _).terminal.mpr hsome)
    have hrunning : w.1.running = (w.1.session.reason == .none) := Vehicle.running_of_new hkind true true
    rw [hrunning, Session.reason, hclean, hstate, hserver, hterminal]
    rfl
  · have hwire : w.2 = some (p.vehicle.session.execute f).reply := hreply
    rw [hwire, show (p.vehicle.session.execute f).reply = (y.2.1.execute f).reply from
      congrArg Core.reply ((Session.execute_core p.vehicle.session f).trans hsame)]
  · rw [hserver]
    exact hnext

/-- An exchange is four steps of the pair. -/
theorem Stands.exchange (h : Stands spec p y) (hx : Exchanged spec y y' c r f) (hcycle : f.tick = y.2.1.cycle)
    (hlive : y.1.broken = false) : ∃ q, Relation.ReflTransGen (Pair.Step spec) p q ∧ Stands spec q y' := by
  obtain ⟨hphase, hcourse⟩ := h.begin hx
  obtain ⟨hcore, hrecords, hfault, hgoes, hreply, hfed⟩ := h.execute hx hcycle
  let begun : Pair := { p with sim := p.sim.begin spec }
  let sent : Pair := { begun with sim := begun.sim.send r 0 false true, uplink := r.frame :: begun.uplink }
  let served : Pair :=
    { sent with
      vehicle := (p.vehicle.receive ⟨r.frame, false⟩ true true).1
      downlink := (p.vehicle.receive ⟨r.frame, false⟩ true true).2.toList ++ sent.downlink }
  have hwaiting : served.sim.phase = .waiting r 0 true := rfl
  have hdownlink : (y.2.1.execute f).reply ∈ served.downlink := by simp [served, hreply]
  have hbegin : Pair.Step spec p begun := .begin h.phase
  have hsend : Pair.Step spec begun sent := .send hphase true
  have hrunning : sent.vehicle.running = true := h.running hlive
  have hrequest : Pair.Step spec sent served := .request hrunning (List.mem_cons_self ..) true true
  have hanswer : Pair.Step spec served { served with sim := served.sim.receive r (y.2.1.execute f).reply } :=
    .reply hwaiting hdownlink
  obtain ⟨hready, hcompleted⟩ : (served.sim.receive r (y.2.1.execute f).reply).phase = .ready ∧
      (served.sim.receive r (y.2.1.execute f).reply).course = y'.1 := receive_accepted hx hcourse
  exact ⟨_, (((Relation.ReflTransGen.single hbegin).tail hsend).tail hrequest).tail hanswer,
    hready, hcompleted, hcore, hrecords, hfault, hgoes, hfed⟩

/-- Every number of undisturbed exchanges is a run of the pair. -/
theorem stands_sync (h : (protocol spec).sync (start spec seed delayTicks) n = some y) :
    ∃ p, p.Reachable spec seed delayTicks ∧ Stands spec p y := by
  refine (sync_induction (P := fun n y => Level spec seed n y ∧ ∃ p, p.Reachable spec seed delayTicks ∧ Stands spec p y)
    ⟨level rfl, _, .refl, stands_initial spec seed delayTicks⟩ (fun {n y y'} ih hexchange => ?_) h).2
  obtain ⟨hlevel, p, hreach, hstands⟩ := ih
  obtain ⟨c, r, f, hx⟩ := exchanged hexchange
  have hcycle : f.tick = y.2.1.cycle := by rw [hx.frame, hx.requested.frame_tick, hlevel.tick, hlevel.cycle]
  obtain ⟨q, hsteps, hstands⟩ := hstands.exchange hx hcycle hx.live
  exact ⟨hlevel.step hexchange, q, hreach.trans hsteps, hstands⟩

/-- Both parties take a tick of 64 bits on, if the vehicle commands a finite angle. -/
theorem exchange_of_finite (hlevel : Level spec seed n y) (hlive : y.1.broken = false) (htime : n < spec.ticks)
    (hsmall : n < 2 ^ 64)
    (hfinite : ∀ c r, Requested spec y.1 c r → (Episode.step y.2.1.state (y.2.1.inputs
      (.ofFields (sensorFieldsOf r (spec.commandAt y.1.tick) c.commandSeq)))).requestedDelta.isFinite = true) :
    ∃ y', (protocol spec).exchange y = some y' := by
  have htick : y.1.tick = n := hlevel.tick
  obtain ⟨⟨c, r⟩, hrequest, hrequested⟩ := request_of_lt spec (htick ▸ hsmall)
  have hissue : issue spec y.1 = some r := by
    rw [issue, hrequest, hlive, htick, if_neg (by simp [htime])]
    rfl
  have hframe := hrequested.frame
  have hfinite := hfinite c r hrequested
  have hframe_tick := hrequested.frame_tick (spec.commandAt y.1.tick) c.commandSeq
  generalize Frame.ofFields (sensorFieldsOf r (spec.commandAt y.1.tick) c.commandSeq) = f at *
  have hreceipt := receiptOf_reply y.2.1 f r.tick none
  dsimp only at hreceipt
  have hsame : ¬f.tick ≠ r.tick := fun hne => hne (hframe_tick.trans hrequested.tick.symm)
  have hcycle : y.2.1.cycle % 2 ^ 64 = r.tick := by
    rw [hlevel.cycle, hrequested.tick, htick, Nat.mod_eq_of_lt hsmall]
  have hvalid : ¬(y.2.1.cycle % 2 ^ 64 ≠ r.tick ∨
      (Episode.step y.2.1.state (y.2.1.inputs f)).requestedDelta.isFinite = false) :=
    fun hinvalid => hinvalid.elim (fun hne => hne hcycle) fun hinfinite => by simp [hfinite] at hinfinite
  rw [if_neg hsame, if_neg hvalid] at hreceipt
  have haccept := (accept_eq_some hrequest).mpr ⟨_, hreceipt, rfl⟩
  simp only [StopAndWait.exchange, StopAndWait.served, protocol, Option.bind_eq_some_iff, Option.map_eq_some_iff]
  exact ⟨_, _, ⟨r, hissue, serve_of_frame y.2 hframe⟩, _, haccept, rfl⟩

/-! ## A machine that waits to be armed -/

/-- A machine that is not armed and is given no command waits. -/
theorem step_waiting {s : EpisodeState F64} {i : EpisodeInput F64} (hmode : s.mode = .init)
    (hpending : s.pending = none) (hauto : s.autoArm = false)
    (hreason : Episode.terminalReason (Episode.countSettled s.settleCount i.held) i = .none)
    (hcommand : i.command = none) :
    Episode.step s i =
      ⟨{ s with settleCount := Episode.countSettled s.settleCount i.held, terminal := none }, 0.0, []⟩ := by
  obtain ⟨mode, pid, count, pending, last, terminal, autoArm⟩ := s
  obtain rfl : mode = .init := hmode
  obtain rfl : pending = none := hpending
  obtain rfl : autoArm = false := hauto
  have hreason : Episode.terminalReason (Episode.countSettled count i.held) i = .none := hreason
  simp [Episode.step, hreason, Episode.live, Episode.arrive, hcommand, Episode.runDue, Episode.drive,
    Episode.autoMode, Episode.command, Episode.batch]

/-- A machine that is not armed takes its first command to arm: at once, or when its tick has come. -/
theorem step_arm {s : EpisodeState F64} {i : EpisodeInput F64} {c : Command} (hmode : s.mode = .init)
    (hpending : s.pending = none) (hlast : s.lastAccepted = none) (hauto : s.autoArm = false)
    (hreason : Episode.terminalReason (Episode.countSettled s.settleCount i.held) i = .none)
    (hcommand : i.command = some c) (harm : c.opcode = Opcode.arm.toNat) :
    (Episode.step s i).state.mode = (if i.tick < c.effectiveTick then .init else .armed) ∧
      (Episode.step s i).requestedDelta = 0.0 := by
  obtain ⟨mode, pid, count, pending, last, terminal, autoArm⟩ := s
  obtain rfl : mode = .init := hmode
  obtain rfl : pending = none := hpending
  obtain rfl : last = none := hlast
  obtain rfl : autoArm = false := hauto
  have hreason : Episode.terminalReason (Episode.countSettled count i.held) i = .none := hreason
  have hopcode : Episode.isOpcode c .arm = true := by simp [Episode.isOpcode, harm]
  by_cases hlater : i.tick < c.effectiveTick
  · simp [Episode.step, hreason, Episode.live, Episode.arrive, hcommand, Episode.prefixStatus, hopcode, Episode.accept,
      hlater, Episode.runDue, Episode.drive, Episode.autoMode, Episode.command, show ¬c.effectiveTick ≤ i.tick by omega]
  · simp [Episode.step, hreason, Episode.live, Episode.arrive, hcommand, Episode.prefixStatus, hopcode, Episode.accept,
      hlater, Episode.apply, Episode.runDue, Episode.drive, Episode.autoMode, Episode.command]

end Undisturbed

/-! ## A quiet run -/

attribute [local instance] ieee

/-- The first tick from which fifty more leave 64 bits. -/
def lateTick : ℕ := 2 ^ 64 - 50

/-- A scenario at rest with one command, to arm, at a late tick. -/
def quiet : Scenario F64 := .still (2 ^ 64) [(lateTick, .arm)] false (by decide) (by decide) (.cons nofun .nil)

/-- The reference with the rocket at rest and the machine not armed. -/
structure AtRest (l : Headless.Loop F64) : Prop where
  truth : l.truth = ⟨⟨0⟩, ⟨0⟩⟩
  act : l.act = ⟨⟨0⟩⟩
  delay : l.delay = []
  pendingReason : l.pendingReason = none
  broken : l.broken = false
  mode : l.state.mode = .init
  pending : l.state.pending = none
  lastAccepted : l.state.lastAccepted = none
  autoArm : l.state.autoArm = false
  settled : l.state.settleCount ≤ 1000

variable {n : ℕ} {l : Headless.Loop F64}

/-- Nothing is lost. -/
theorem quiet_drop (hn : n < 2 ^ 64) (direction : Direction) (raw : Bool) :
    Headless.dropOf quiet n direction raw = false := by
  have hforced : quiet.forcedDropAt n direction = some false := by
    unfold Scenario.forcedDropAt
    have hblackout : (if direction = .up then quiet.blackoutUp else quiet.blackoutDown) = none := by
      cases direction <;> rfl
    dsimp only
    rw [hblackout, Option.any_none, if_neg Bool.false_ne_true, if_pos (show n < quiet.lossStartTick from hn)]
  rw [Headless.dropOf, hforced]

/-- No command comes before the late one. -/
theorem quiet_command (hn : n < lateTick) : quiet.commandAt n = none := by
  have hother : (n == lateTick) = false := beq_false_of_ne hn.ne
  simp [Scenario.commandAt, quiet, Scenario.still, hother]

/-- A tick at rest has a fresh sample. -/
theorem AtRest.inputs (h : AtRest l) (hn : n + 1 < 2 ^ 64) :
    referenceInputs quiet l n =
      { tick := n
        held := some ⟨n, ⟨0⟩, ⟨0⟩, true⟩
        fresh := true
        staleness := 0
        command := (quiet.commandAt n).map fun opcode =>
          ⟨if (quiet.commandAt n).isSome then l.commandSeq + 1 else l.commandSeq, opcode.toNat, n + 50⟩
        horizonReached := false
        simReason := none
        stopReason := none } := by
  have hobservation : Headless.observation n l.truth false = ⟨n, ⟨0⟩, ⟨0⟩, true⟩ := by rw [h.truth]; rfl
  have hfresh : Headless.isFresh (⟨n, ⟨0⟩, ⟨0⟩, true⟩ : Observation F64) = true := by
    change (true && Classify.isFinite (⟨0⟩ : F64) && Classify.isFinite (⟨0⟩ : F64)) = true
    decide
  have hage : Headless.ageOf (some (⟨n, ⟨0⟩, ⟨0⟩, true⟩ : Observation F64)) n = 0 := by
    simp [Headless.ageOf]
  have hreason : Headless.reasonOf quiet l.pendingReason n = none := by
    have hlast : (n == quiet.ticks - 1) = false := beq_false_of_ne (show n ≠ 2 ^ 64 - 1 by omega)
    rw [Headless.reasonOf, h.pendingReason, hlast, Bool.and_false, if_neg Bool.false_ne_true]
  unfold referenceInputs
  rw [quiet_drop (by omega)]
  dsimp only
  rw [hobservation, hfresh, if_pos rfl, hage, hreason]
  rfl

/-- No reason ends a tick at rest. -/
theorem quiet_reason (n count : ℕ) (command : Option Command) :
    Episode.terminalReason count (⟨n, some ⟨n, ⟨0⟩, ⟨0⟩, true⟩, true, 0, command, false, none, none⟩ : EpisodeInput F64) =
      .none := by
  have hupright : Arith.lt (0.30 : F64) (Arith.abs (⟨0#64⟩ : F64)) = false := by decide +kernel
  simp [Episode.terminalReason, Episode.freshDiverged, hupright]

/-- What a tick leaves of the plant at rest. -/
theorem quiet_plant (n : ℕ) :
    let act := Actuator.step (⟨⟨0⟩⟩ : ActuatorState F64) (some 0.0)
    act = ⟨⟨0⟩⟩ ∧ plantAfter false false ⟨⟨0⟩, ⟨0⟩⟩ none act (quiet.disturbanceAt n fixedEnvironment) =
      (false, ⟨⟨0⟩, ⟨0⟩⟩, none) := by
  have hact : Actuator.step (⟨⟨0⟩⟩ : ActuatorState F64) (some 0.0) = ⟨⟨0⟩⟩ := by decide +kernel
  have hdisturbance : quiet.disturbanceAt n fixedEnvironment = (⟨0.0⟩ : Disturbance F64) := rfl
  have hplant : Plant.step (⟨⟨0⟩, ⟨0⟩⟩ : TruthState F64) ⟨⟨0⟩⟩ fixedEnvironment ⟨0.0⟩ ControlRef.dt =
      ⟨⟨0⟩, ⟨0⟩⟩ := by decide +kernel
  have hupright : Plant.lossOfControl (⟨⟨0⟩, ⟨0⟩⟩ : TruthState F64) = none := by decide +kernel
  refine ⟨hact, ?_⟩
  rw [hact, hdisturbance, plantAfter, if_neg Bool.false_ne_true]
  dsimp only
  rw [hplant, hupright]
  rfl

/-- A tick before the late one leaves the reference at rest, and commands nothing. -/
theorem AtRest.tick (h : AtRest l) (hn : n < lateTick) :
    AtRest (Headless.tick quiet l n) ∧
      (Episode.step l.state (referenceInputs quiet l n)).requestedDelta = (0.0 : F64) := by
  have hsmall : n + 1 < 2 ^ 64 := by
    unfold lateTick at hn
    omega
  obtain ⟨hstate, -, -, -, hdelay, hact, -, -, hend⟩ := headless_fields quiet l n
  have hinputs := h.inputs hsmall
  rw [quiet_command hn, Option.map_none] at hinputs
  have hreason : Headless.reasonOf quiet l.pendingReason n = none :=
    Option.map_eq_none_iff.mp (congrArg EpisodeInput.simReason hinputs)
  have hstep : Episode.step l.state (referenceInputs quiet l n) =
      ⟨{ l.state with
          settleCount := Episode.countSettled l.state.settleCount (referenceInputs quiet l n).held
          terminal := none }, 0.0, []⟩ := by
    rw [hinputs]
    exact step_waiting h.mode h.pending h.autoArm (quiet_reason n _ none) rfl
  have hsettled := Episode.step_settleCount_le h.settled (referenceInputs quiet l n)
  rw [EpisodeRef.step_agrees h.settled] at hstate hdelay hact hend
  rw [hstep] at hstate hdelay hact hend hsettled ⊢
  obtain ⟨hrest, hplant⟩ := quiet_plant n
  rw [quiet_drop (by omega), h.delay] at hdelay hact hend
  rw [hreason, h.broken, h.truth, h.act, h.pendingReason] at hend
  rw [h.act] at hact
  have hact : (Headless.tick quiet l n).act = ⟨⟨0⟩⟩ := hact.trans hrest
  have hend := hend.trans hplant
  obtain ⟨hbroken, hplant⟩ := Prod.mk.inj hend
  obtain ⟨htruth, hpending⟩ := Prod.mk.inj hplant
  refine ⟨⟨htruth, hact, hdelay, hpending, hbroken, ?_, ?_, ?_, ?_, ?_⟩, rfl⟩ <;> rw [hstate]
  · exact h.mode
  · exact h.pending
  · exact h.lastAccepted
  · exact h.autoArm
  · exact hsettled

/-- The reference is at rest at first. -/
theorem atRest_initial : AtRest (Headless.initial quiet 0 0) where
  truth := rfl
  act := by decide +kernel
  delay := rfl
  pendingReason := rfl
  broken := rfl
  mode := rfl
  pending := rfl
  lastAccepted := rfl
  autoArm := rfl
  settled := Nat.zero_le _

/-- A command to arm at the late tick. -/
theorem quiet_late : quiet.commandAt lateTick = some .arm := by simp [Scenario.commandAt, quiet, Scenario.still]

/-- What the vehicle makes of the late tick: the command is due at once. -/
theorem AtRest.late (h : AtRest l) {c : Course} {r : Request} {y : Course × Server} (hm : Mirrors quiet lateTick y l)
    (hr : Requested quiet y.1 c r) :
    let f := Frame.ofFields (sensorFieldsOf r (quiet.commandAt lateTick) c.commandSeq)
    (Episode.step y.2.1.state (y.2.1.inputs f)).requestedDelta = (0.0 : F64) ∧
      (reported (y.2.1.execute f).record).state = Mode.armed.toNat := by
  intro f
  have hinputs : y.2.1.inputs f = _ := hr.inputs hm (hm.broken.trans h.broken)
  rw [h.inputs (by decide), quiet_late, Option.map_some, Option.map_some] at hinputs
  obtain ⟨hmode, hdelta⟩ := step_arm (c := ⟨l.commandSeq + 1, Opcode.arm.toNat, (lateTick + 50) % 2 ^ 64⟩) h.mode h.pending
    h.lastAccepted h.autoArm (quiet_reason lateTick _ _) rfl rfl
  have hrecord := reported_record (i := y.2.1.inputs f) (by rw [hinputs]; exact Nat.zero_le _)
    (fun o ho => by rw [hinputs] at ho; obtain rfl := Option.some.inj ho; decide) f
    (Episode.step y.2.1.state (y.2.1.inputs f))
  have hstate : (reported (y.2.1.execute f).record).state =
      (Episode.step y.2.1.state (y.2.1.inputs f)).state.mode.toNat := congrArg Reported.state hrecord
  rw [hstate, hinputs, hm.state]
  exact ⟨hdelta, congrArg Mode.toNat hmode⟩

/-- What the reference makes of the late tick: the command waits. -/
theorem AtRest.late_reference (h : AtRest l) :
    (EpisodeRef.step l.state (referenceInputs quiet l lateTick)).state.mode = .init := by
  rw [EpisodeRef.step_agrees h.settled, h.inputs (by decide), quiet_late, Option.map_some]
  have harm := step_arm (c := ⟨l.commandSeq + 1, Opcode.arm.toNat, lateTick + 50⟩) h.mode h.pending h.lastAccepted
    h.autoArm (quiet_reason lateTick _ _) rfl rfl
  exact harm.1

/-- Both parties take every tick up to the late one. -/
theorem quiet_exchange {y : Course × Server} (h : (protocol quiet).sync (start quiet 0 0) n = some y)
    (hn : n ≤ lateTick) (hm : Mirrors quiet n y l) (hrest : AtRest l) :
    ∃ y', (protocol quiet).exchange y = some y' := by
  have hsmall : n < 2 ^ 64 := by
    unfold lateTick at hn
    omega
  have hlive : y.1.broken = false := hm.broken.trans hrest.broken
  refine exchange_of_finite (level h) hlive hsmall hsmall fun c r hr => ?_
  rw [hm.tick]
  have hzero : (Episode.step y.2.1.state (y.2.1.inputs
      (.ofFields (sensorFieldsOf r (quiet.commandAt n) c.commandSeq)))).requestedDelta = (0.0 : F64) := by
    rcases Nat.lt_or_eq_of_le hn with hearly | rfl
    · rw [hr.inputs_eq hm hlive (by rw [quiet_command hearly]; nofun), hm.state]
      exact (hrest.tick hearly).2
    · exact (hrest.late hm hr).1
  rw [hzero]
  decide +kernel

/-- Undisturbed exchanges lead to the late tick, at rest. -/
theorem quiet_sync (hn : n ≤ lateTick) :
    ∃ y, (protocol quiet).sync (start quiet 0 0) n = some y ∧ Mirrors quiet n y (Headless.upTo quiet 0 0 n) ∧
      AtRest (Headless.upTo quiet 0 0 n) := by
  induction n with
  | zero => exact ⟨_, rfl, mirrors_start quiet 0 0, atRest_initial⟩
  | succ n ih =>
    obtain ⟨y, hsync, hm, hrest⟩ := ih (by omega)
    obtain ⟨y', hexchange⟩ := quiet_exchange hsync (by omega) hm hrest
    have hsync' : (protocol quiet).sync (start quiet 0 0) (n + 1) = some y' := Option.bind_eq_some_iff.mpr ⟨y, hsync, hexchange⟩
    refine ⟨y', hsync', mirrors_sync hsync' fun t ht c hc hle => ?_, ?_⟩
    · obtain rfl := List.mem_singleton.mp hc
      exact absurd hle (by dsimp only; omega)
    · rw [upTo_succ, if_neg (by rw [hrest.broken]; exact Bool.false_ne_true)]
      exact (hrest.tick hn).1

/-! ## The refinement -/

section Refinement

variable [Arith F64]

/-- Lockstep refines the headless reference: whatever the network does, the row and the record of every tick
that the simulator completes are those of the reference, as long as no command up to it takes effect past
the ticks of 64 bits; and every completed tick has taken one draw from each stream. -/
theorem lockstep_refines_headless (spec : Scenario F64) (seed : U64) (delayTicks : Fin 2) {p : Pair}
    (h : p.Reachable spec seed delayTicks) :
    (∀ t simRow, p.sim.course.rows[t]? = some simRow → CommandsFit spec t →
      RefinesAt spec seed delayTicks p t simRow) ∧
    (p.sim.phase = .ready ∨ p.sim.phase = .finished →
      let n := p.sim.course.rows.length
      p.sim.course.draws = n ∧
        p.sim.course.streamUp = Rng.streamState seed .linkLossUp + BitVec.ofNat 64 n * Rng.golden ∧
        p.sim.course.streamDown = Rng.streamState seed .linkLossDown + BitVec.ofNat 64 n * Rng.golden) := by
  obtain ⟨client, server, completed, answered, requests, htracks⟩ := tracks_reachable h
  refine ⟨fun t simRow hrow hfit => htracks.refines hrow hfit, fun hbetween => ?_⟩
  obtain ⟨s, hsync, -⟩ := htracks.inStep.client
  have hlevel := level hsync
  have hsim := htracks.sim
  unfold Follows at hsim
  rcases hbetween with hphase | hphase <;> rw [hphase] at hsim <;> rw [hsim] <;> dsimp only <;> rw [hlevel.rows]
  · exact ⟨hlevel.draws, hlevel.streamUp, hlevel.streamDown⟩
  · exact ⟨hlevel.draws, hlevel.streamUp, hlevel.streamDown⟩

end Refinement

/-- A pair has completed the first tick of the quiet run. -/
theorem lockstep_refines_headless_quiet :
    ∃ p simRow, p.sim.course.rows[0]? = some simRow ∧ RefinesAt quiet 0 0 p 0 simRow ∧ p.sim.course.draws = 1 := by
  obtain ⟨y, hsync, -, -⟩ := quiet_sync (n := 1) (by decide)
  obtain ⟨p, hreach, hstands⟩ := stands_sync hsync
  have hlength : p.sim.course.rows.length = 1 := by rw [hstands.course, (level hsync).rows]
  obtain ⟨hrefines, hdraws⟩ := lockstep_refines_headless quiet 0 0 hreach
  obtain ⟨simRow, hrow⟩ : ∃ simRow, p.sim.course.rows[0]? = some simRow := ⟨_, List.getElem?_eq_getElem (by omega)⟩
  refine ⟨p, simRow, hrow, hrefines 0 simRow hrow ?_, ?_⟩
  · intro c hc hle
    obtain rfl := List.mem_singleton.mp hc
    exact absurd hle (by decide)
  · rw [(hdraws (.inl hstands.phase)).1, hlength]

/-- At the late tick of the quiet run the vehicle is armed and the reference is not. -/
theorem lockstep_parts_from_headless :
    ∃ p simRow, p.Reachable quiet 0 0 ∧ p.sim.course.rows[lateTick]? = some simRow ∧
      ¬RefinesAt quiet 0 0 p lateTick simRow := by
  obtain ⟨y, hsync, hm, hrest⟩ := quiet_sync le_rfl
  obtain ⟨y', hexchange⟩ := quiet_exchange hsync le_rfl hm hrest
  have hsync' : (protocol quiet).sync (start quiet 0 0) (lateTick + 1) = some y' :=
    Option.bind_eq_some_iff.mpr ⟨y, hsync, hexchange⟩
  obtain ⟨p, hreach, hstands⟩ := stands_sync hsync'
  have hlength : p.sim.course.rows.length = lateTick + 1 := by rw [hstands.course, (level hsync').rows]
  obtain ⟨simRow, hsim⟩ : ∃ simRow, p.sim.course.rows[lateTick]? = some simRow :=
    ⟨_, List.getElem?_eq_getElem (by omega)⟩
  refine ⟨p, simRow, hreach, hsim, ?_⟩
  rintro ⟨row, record, hrow, hrecord, -, hreported⟩
  -- The vehicle has taken the command.
  obtain ⟨c, r, f, hx⟩ := exchanged hexchange
  have hvehicle : (reported record).state = Mode.armed.toNat := by
    have hlate := (hrest.late hm hx.requested).2
    rw [← hm.tick, ← hx.frame] at hlate
    have hrecords := congrArg (fun records => records[lateTick]?) hstands.records
    have hbefore : (y.2.2.map reported).length = lateTick := by rw [List.length_map, (level hsync).records]
    rw [List.getElem?_map, hrecord, Option.map_some, hx.server, List.map_append, List.getElem?_append_right (by omega),
      hbefore, Nat.sub_self, List.map_singleton, List.getElem?_cons_zero] at hrecords
    rw [Option.some.inj hrecords]
    exact hlate
  -- The reference has not.
  have hreference : row.episode.state.mode = .init := by
    obtain ⟨later, hlater⟩ := upTo_rows quiet 0 0 (show lateTick + 1 ≤ quiet.ticks by decide)
    obtain ⟨-, -, -, -, -, -, -, hrows, -⟩ := headless_fields quiet (Headless.upTo quiet 0 0 lateTick) lateTick
    have hbefore := (level hsync).rows
    rw [hm.rows, List.length_map] at hbefore
    rw [Headless.rows, hlater, upTo_succ, if_neg (by rw [hrest.broken]; exact Bool.false_ne_true), hrows,
      List.append_assoc, List.getElem?_append_right (by omega), hbefore, Nat.sub_self,
      List.cons_append, List.getElem?_cons_zero] at hrow
    rw [← Option.some.inj hrow]
    dsimp only
    exact hrest.late_reference
  rw [hreported, reportedOf, hreference] at hvehicle
  exact Nat.zero_ne_one hvehicle

end Tvc.Lockstep
