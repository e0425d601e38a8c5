import Tvc.Freerun.Handshake
import Tvc.Freerun.Ruling

/-!
# The pair of reasons

Each side ends the run by its own rules, on what has come through the air. The pairs of reasons that can be reached are
those that the auditor expects, but for one race: the plant is lost while the vehicle, not having heard of it, ends at
its last scheduled cycle.
-/

namespace Tvc.Freerun

section Pairing

variable [Arith F64]

/-- The reason that the report gives. -/
def World.simReason (w : World) : ℕ := w.sim.process.model.reason.elim 0 SimReason.toNat

/-- The reason that the summary gives. -/
def World.vehicleReason (w : World) : ℕ := w.vehicle.flight.elim 0 fun flight => flight.2.r.reason.toNat

/-- The plant is out of control, and the vehicle has run its schedule to the end on a sample that is not stale, without
having heard of the simulator's end. -/
def World.Overlooked (s : Setting) (w : World) : Prop :=
  ¬Controlled w.sim.process.model.truth ∧ ∃ o x, w.vehicle.flight = some (o, x) ∧ x.n = s.cfg.total ∧
    x.r.simSeen = none ∧ x.r.admission.cycle.staleness < 21

/-- A state of a run from which it takes a step. -/
def Setting.Run.Leaves {s : Setting} (r : s.Run) (w : World) : Prop :=
  ∃ past act rest, r.acts = past ++ act :: rest ∧ s.run r.first past = some w

/-- Nothing tells the vehicle to stop. -/
def Act.Unstopped : Act → Prop
  | .vehicle a => a.Unstopped
  | .sim _ => True

/-- A process that has not begun. -/
theorem Process.initial_fresh {spec : Scenario F64} {seed : U64} {delayTicks : Fin 2} {p : Process}
    (h : initial spec seed delayTicks = .ok p) :
    p.phase = .prologue ∧ p.model.truth = spec.initial ∧ p.cachedTerminal = none := by
  unfold initial Model.new at h
  split at h
  · nomatch h
  · split at h
    · nomatch h
    · obtain rfl := Except.ok.inj h
      exact ⟨rfl, rfl, rfl⟩

/-- What the pair keeps whose plant is within the limit at first, and whose vehicle nothing stops. -/
structure Ordered (s : Setting) (w : World) : Prop where
  agreed : Agreed s w
  candid : w.sim.Candid s.spec
  up : ∀ data ∈ w.up.sent, Admission.Bears Honest ⟨data, false⟩
  heeds : w.vehicle.Heeds Honest
  ruled : w.vehicle.Ruled s.cfg

variable {s : Setting} {w w' : World} {moment : ℕ} {a : Act}

/-- Nothing has happened. -/
theorem ordered_start {opened : ℕ} {process : Process} (h : Process.initial s.spec s.seed s.delayTicks = .ok process) :
    Ordered s { sim := { last := opened, opened, process } } := by
  obtain ⟨hphase, htruth, hcached⟩ := Process.initial_fresh h
  refine ⟨agreed_start h, ⟨Process.flies_of_phase hphase (fun _ => htruth) nofun nofun nofun, fun data hdata => ?_⟩,
    fun _ hdata => absurd hdata List.not_mem_nil, ?_, ?_⟩
  · nomatch hcached.symm.trans hdata
  · exact ⟨fun _ _ hflight => absurd hflight.symm (Option.some_ne_none _),
      fun _ _ hflight => absurd hflight.symm (Option.some_ne_none _),
      fun _ hpolled => absurd hpolled.symm (Option.some_ne_none _), fun _ hseen => absurd hseen.symm (Option.some_ne_none _)⟩
  · exact ⟨fun _ _ hflight => absurd hflight.symm (Option.some_ne_none _),
      fun _ _ hflight => absurd hflight.symm (Option.some_ne_none _)⟩

/-- A step that does not stop the vehicle. -/
theorem Ordered.step (hinitial : Controlled s.spec.initial) (hstop : a.Unstopped) (h : Ordered s w)
    (hstep : s.step w moment a = some w') : Ordered s w' := by
  have hagreed := h.agreed.step hstep
  obtain ⟨hlater, hstepped⟩ := Setting.stepped hstep
  cases hstepped with
  | vehicle hact hsent =>
    have hheeds := h.heeds.act h.agreed.vehicle hact fun data hdata => h.up data (hsent data hdata)
    exact ⟨hagreed, h.candid, h.up, hheeds, h.ruled.act h.agreed.vehicle hheeds hstop hact⟩
  | sim hact hsent =>
    obtain ⟨hcandid, hhanded⟩ := h.candid.act hinitial h.agreed.sim hact
    refine ⟨hagreed, hcandid, fun data hdata => ?_, h.heeds, h.ruled⟩
    rcases List.mem_append.mp hdata with hold | hnew
    · exact h.up data hold
    · exact hhanded data (Option.mem_toList.mp hnew)

/-! ## The pair -/

omit [Arith F64] in
/-- A process that has finished with success. -/
theorem Process.finished_of_code {p : Process} (h : p.code = some 0) : p.phase = .finished 0 := by
  unfold Process.code at h
  split at h
  · rename_i code hphase
    exact hphase.trans (congrArg SimPhase.finished (Option.some.inj h))
  · nomatch h

/-- Where the simulator has seen the vehicle's end, the vehicle's reason is that of its end, by its rules. -/
theorem Ordered.vehicle_ruled (h : Ordered s w) (hseen : w.sim.process.model.vehicleSeen.isSome = true) :
    ∃ o x t, w.vehicle.flight = some (o, x) ∧ x.running = false ∧ Ruling s.cfg.total x t ∧
      w.vehicleReason = t.toNat := by
  obtain ⟨r, hr⟩ := Option.isSome_iff_exists.mp hseen
  obtain ⟨t, span, data, ⟨o, x, hflight, hcycle, hterminal, -, -⟩, -⟩ := h.agreed.seen r hr
  obtain ⟨hsound, t', hterminal', hruling⟩ := h.ruled.ended o x hflight hcycle
  obtain rfl := Option.some.inj (hterminal.symm.trans hterminal')
  refine ⟨o, x, t.reason, hflight, ?_, hruling, ?_⟩
  · by_contra hrunning
    exact hcycle ((h.agreed.vehicle.flown o x hflight).living (Bool.eq_true_of_not_eq_false hrunning))
  · unfold World.vehicleReason Runtime.reason
    rw [hflight, Option.elim_some, hsound, hterminal]
    rfl

/-- The reason that the vehicle has seen is the simulator's own. -/
theorem Ordered.seen_own (h : Ordered s w) {o : Origin} {x : Loop} (hflight : w.vehicle.flight = some (o, x)) {r : U32}
    (hr : x.r.simSeen = some r) : w.sim.process.terminationSource = some .simulator ∧
      ∃ reason, w.sim.process.model.reason = some reason ∧ r = BitVec.ofNat 32 reason.toNat := by
  have hsight : w.vehicle.simSeen = some r := by
    unfold VehicleSide.simSeen
    rw [hflight]
    exact hr
  obtain ⟨f, hf, hterminal, rfl⟩ := h.agreed.heeds.seen r hsight
  obtain ⟨reason, span, data, hover, hreason, -⟩ := hf hterminal
  exact ⟨hover.source, reason, hover.reason, hreason⟩

/-- The simulator has seen the vehicle's end and finished: the pair of reasons is expected, unless the vehicle ended its
schedule not having heard of a plant out of control. -/
theorem Ordered.expected_iff (h : Ordered s w) (hcode : w.sim.process.code = some 0)
    (hseen : w.sim.process.model.vehicleSeen.isSome = true) :
    (w.simReason, w.vehicleReason) ∈ Reconcile.expectedPairs ↔ ¬w.Overlooked s := by
  obtain ⟨o, x, reason, hflight, -, hruling, hvehicle⟩ := h.vehicle_ruled hseen
  have hoverlooked : w.Overlooked s ↔ ¬Controlled w.sim.process.model.truth ∧ x.n = s.cfg.total ∧
      x.r.simSeen = none ∧ x.r.admission.cycle.staleness < 21 := by
    refine and_congr_right fun _ => ⟨fun ⟨o', x', hsome, hrest⟩ => ?_, fun hrest => ⟨o, x, hflight, hrest⟩⟩
    obtain ⟨-, rfl⟩ := Prod.mk.inj (Option.some.inj (hflight.symm.trans hsome))
    exact hrest
  rw [hvehicle]
  rcases h.candid.flies.done (Process.finished_of_code hcode) hseen with ⟨hcontrol, hreason, hsource⟩ |
    ⟨-, k, own, hreason, hafter⟩
  · -- The vehicle ended the run: it had not seen the simulator's end.
    have hunseen : x.r.simSeen = none := by
      by_contra hsome
      obtain ⟨r, hr⟩ := Option.ne_none_iff_exists'.mp hsome
      nomatch hsource.symm.trans (h.seen_own hflight hr).1
    have hsim : w.simReason = 4 := by rw [World.simReason, hreason]; rfl
    rw [hsim, hoverlooked]
    refine iff_of_true ?_ fun hover => hover.1 hcontrol
    cases hruling with
    | lost hlost => simp [hunseen] at hlost
    | stale => decide
    | settled _ _ _ hends => rcases hends with rfl | rfl <;> decide
  · have hsim : w.simReason = own.toNat := by rw [World.simReason, hreason]; rfl
    have htold : ∀ r, x.r.simSeen = some r → r = BitVec.ofNat 32 own.toNat := by
      intro r hr
      obtain ⟨-, own', hown, rfl⟩ := h.seen_own hflight hr
      rw [Option.some.inj (hreason.symm.trans hown)]
    rw [hsim, hoverlooked]
    rcases Model.reasonAfter_cases hafter with ⟨hcontrol, rfl⟩ | ⟨hlost, hown⟩
    · -- The plant was in control to the horizon.
      refine iff_of_true ?_ fun hover => hover.1 hcontrol
      cases hruling with
      | lost hseen => rcases hseen with hseen | hseen <;> exact absurd (htold _ hseen) (by decide)
      | stale => decide
      | settled _ _ _ hends => rcases hends with rfl | rfl <;> decide
    · -- The plant was lost: the vehicle heard of it, or was blind, or ended its schedule.
      have hwild : ¬Controlled w.sim.process.model.truth := by
        intro hcontrol
        nomatch hlost.symm.trans hcontrol
      cases hruling with
      | lost hseen =>
        refine iff_of_true ?_ fun hover => ?_
        · rcases hown with rfl | rfl <;> decide
        · rcases hseen with hseen | hseen <;> nomatch hseen.symm.trans hover.2.2.1
      | stale _ hstale =>
        refine iff_of_true ?_ fun hover => absurd hover.2.2.2 (not_lt.mpr hstale)
        rcases hown with rfl | rfl <;> decide
      | settled hcontrol hfresh hends hreasons =>
        have hunseen : x.r.simSeen = none := by
          by_contra hsome
          obtain ⟨r, hr⟩ := Option.ne_none_iff_exists'.mp hsome
          obtain rfl := htold r hr
          rcases hown with rfl | rfl
          · exact hcontrol.1 hr
          · exact hcontrol.2 hr
        have hfull : x.n = s.cfg.total := hends.resolve_right fun hsome => by simp [hunseen] at hsome
        refine iff_of_false ?_ fun hnot => hnot ⟨hwild, hfull, hunseen, hfresh⟩
        rcases hown with rfl | rfl <;> rcases hreasons with rfl | rfl <;> decide

/-! ## The race -/

/-- A vehicle whose schedule is over keeps what it has seen. -/
theorem VehicleSide.act_of_over {cfg : RunConfig} {clock : ℕ → ℤ} {v : VehicleSide} {act : VehicleAct}
    {out : Outcome VehicleSide} {o : Origin} {x : Loop} (hflight : v.flight = some (o, x))
    (hover : x.goesOn cfg.toConfig = false) (hact : v.act cfg clock moment act = some out) :
    ∃ y : Loop, out.side.flight = some (o, y) ∧ y.n = x.n ∧ y.r.simSeen = x.r.simSeen ∧
      y.r.admission = x.r.admission := by
  have hsame : ∀ {o' x'}, v.flight = some (o', x') → x' = x := fun hsome =>
    (Prod.mk.inj (Option.some.inj (hsome.symm.trans hflight))).2
  cases acted hact with
  | listened hgrounded => nomatch hgrounded.symm.trans hflight
  | overslept hflight' _ _ hgoes =>
    rw [hsame hflight', hover] at hgoes
    nomatch hgoes
  | polled => exact ⟨x, hflight, rfl, rfl, rfl⟩
  | cycled hflight' _ _ hruns =>
    have hgoes : x.goesOn cfg.toConfig = true := by
      rw [← hsame hflight']
      exact Bool.and_eq_true_iff.mpr ⟨hruns.1, decide_eq_true hruns.2.1⟩
    nomatch hover.symm.trans hgoes
  | closed => exact ⟨x, hflight, rfl, rfl, rfl⟩
  | copied hflight' =>
    obtain ⟨rfl, rfl⟩ := Prod.mk.inj (Option.some.inj (hflight'.symm.trans hflight))
    exact ⟨_, rfl, rfl, rfl, rfl⟩
  | quitted => exact ⟨x, hflight, rfl, rfl, rfl⟩

/-- An exit code that is none of success. -/
def World.Failed (w : World) : Prop := ∃ code, w.sim.process.phase = .finished code ∧ code ≠ 0

/-- A plant that is out of control unheard stays so, unless the simulator fails. -/
theorem Ordered.overlooked_step (hinitial : Controlled s.spec.initial) (h : Ordered s w)
    (hover : w.Overlooked s ∨ w.Failed) (hstep : s.step w moment a = some w') : w'.Overlooked s ∨ w'.Failed := by
  obtain ⟨-, hstepped⟩ := Setting.stepped hstep
  cases hstepped with
  | vehicle hact =>
    refine hover.imp (fun ⟨hwild, o, x, hflight, hfull, hunseen, hfresh⟩ => ⟨hwild, ?_⟩) id
    have hends : x.goesOn s.cfg.toConfig = false := by
      unfold Loop.goesOn
      rw [hfull]
      simp
    obtain ⟨y, hflight', hn, hseen, hadmission⟩ := VehicleSide.act_of_over hflight hends hact
    exact ⟨o, y, hflight', hn.trans hfull, hseen.trans hunseen, by rwa [hadmission]⟩
  | sim hact =>
    cases SimSide.acted hact with
    | drained => exact hover
    | closed => exact hover
    | @faulted failure =>
      have hphase := w.sim.process.fail_phase failure
      exact .inr ⟨failure.code, hphase, fun hzero => w.sim.process.fail_ne_zero failure (hzero ▸ hphase)⟩
    | turned horder hdrained hcode hturn =>
      have hgoes := Process.goesOn_of_code hcode
      rcases hover with ⟨hwild, hrest⟩ | ⟨code, hphase, -⟩
      · refine (h.candid.flies.turn_wild hinitial h.agreed.sim.standing hgoes hwild hturn).imp (fun hsame => ?_) id
        exact ⟨fun hcontrol => hwild (hsame ▸ hcontrol), hrest⟩
      · exact absurd hphase (hgoes code)

/-- A step to a state in which the simulator has seen the vehicle's end and finished did not bring the race about. -/
theorem Ordered.overlooked_before (h : Ordered s w) (hstep : s.step w moment a = some w')
    (hcode : w'.sim.process.code = some 0) (hseen : w'.sim.process.model.vehicleSeen.isSome = true)
    (hover : w'.Overlooked s) : w.Overlooked s := by
  obtain ⟨-, hstepped⟩ := Setting.stepped hstep
  obtain ⟨hwild, o, x, hflight, hfull, hunseen, hfresh⟩ := hover
  cases hstepped with
  | vehicle hact =>
    obtain ⟨o', x', -, hflight', hover, -⟩ := h.vehicle_ruled hseen
    have hends : x'.goesOn s.cfg.toConfig = false := by
      unfold Loop.goesOn
      rw [hover]
      rfl
    obtain ⟨y, hsame, hn, hsight, hadmission⟩ := VehicleSide.act_of_over hflight' hends hact
    obtain ⟨-, rfl⟩ := Prod.mk.inj (Option.some.inj (hsame.symm.trans hflight))
    exact ⟨hwild, o', x', hflight', hn.symm.trans hfull, hsight.symm.trans hunseen, by rwa [← hadmission]⟩
  | sim hact =>
    refine ⟨?_, o, x, hflight, hfull, hunseen, hfresh⟩
    cases SimSide.acted hact with
    | drained => exact hwild
    | closed => exact hwild
    | faulted => exact absurd (Process.finished_of_code hcode) (Process.fail_ne_zero _ _)
    | turned horder hdrained hopen hturn =>
      obtain ⟨hsame, -⟩ := Process.turn_finished h.agreed.sim.standing (Process.goesOn_of_code hopen) hturn
        (Process.finished_of_code hcode)
      exact fun hcontrol => hwild (hsame.symm ▸ hcontrol)

/-- In a run on a scenario without commands whose rocket starts within the limit, that nothing stops and in which both
sides finish and the simulator sees the vehicle's end, the pair of reasons is one that the auditor expects exactly if the
run leaves no state in which the plant is out of control while the vehicle, not having heard of it, has ended its
schedule on a sample that is not stale. -/
theorem pair_expected_iff (s : Setting) (r : s.Run)
    (htilt : Arith.lt 0.30 (Arith.abs s.spec.initial.theta) = false) (hstop : ∀ act ∈ r.acts, act.2.Unstopped)
    (hcode : r.world.sim.process.code = some 0) (hseen : r.world.sim.process.model.vehicleSeen.isSome = true) :
    (r.world.simReason, r.world.vehicleReason) ∈ Reconcile.expectedPairs ↔ ∀ w, r.Leaves w → ¬w.Overlooked s := by
  have hinitial : Controlled s.spec.initial := controlled_of_tilt s.spec.initial_finite htilt
  have hfirst : Ordered s r.first := r.begins fun opened process h => ordered_start h
  have hordered {acts : List (ℕ × Act)} {w : World} (hacts : ∀ act ∈ acts, act ∈ r.acts)
      (hrun : s.run r.first acts = some w) : Ordered s w :=
    Setting.run_rule (fun w moment a w' ha hw hstep => hw.step hinitial ha hstep) (fun act hact => hstop act (hacts act hact))
      hfirst hrun
  rw [(hordered (fun _ => id) r.ran).expected_iff hcode hseen]
  refine ⟨fun hnot w ⟨past, act, rest, hacts, hpast⟩ hover => hnot ?_, fun hnone hover => ?_⟩
  · -- Once there, the race stays to the end.
    have hran := r.ran
    rw [hacts, Setting.run_append, hpast] at hran
    have hlater : ∀ act' ∈ act :: rest, act'.2.Unstopped := fun act' hact =>
      hstop act' (by rw [hacts]; exact List.mem_append_right _ hact)
    have hbefore := hordered (fun act' hact => by rw [hacts]; exact List.mem_append_left _ hact) hpast
    have hends := Setting.run_rule (P := fun w => Ordered s w ∧ (w.Overlooked s ∨ w.Failed))
      (fun w moment a w' ha hw hstep => ⟨hw.1.step hinitial ha hstep, hw.1.overlooked_step hinitial hw.2 hstep⟩) hlater
      ⟨hbefore, .inl hover⟩ hran
    refine hends.2.resolve_right fun ⟨code, hphase, hne⟩ => hne ?_
    exact SimPhase.finished.inj (hphase.symm.trans (Process.finished_of_code hcode))
  · rcases List.eq_nil_or_concat' r.acts with hnil | ⟨past, act, hacts⟩
    · -- Before anything happens the simulator has not finished.
      have hran := r.ran
      rw [hnil] at hran
      have hsame : r.first = r.world := Option.some.inj hran
      have hopen : r.first.sim.process.phase = .prologue :=
        r.begins (P := fun w => w.sim.process.phase = .prologue) fun _ _ h => (Process.initial_fresh h).1
      rw [hsame, Process.finished_of_code hcode] at hopen
      nomatch hopen
    · have hran := r.ran
      rw [hacts, Setting.run_concat] at hran
      obtain ⟨w, hpast, hstep⟩ := Option.bind_eq_some_iff.mp hran
      have hbefore := hordered (fun act' hact => by rw [hacts]; exact List.mem_append_left _ hact) hpast
      exact hnone w ⟨past, act, [], hacts, hpast⟩ (hbefore.overlooked_before hstep hcode hseen hover)

end Pairing

/-! ## A run with the race -/

attribute [local instance] ieee

/-- The rocket turns fast and leaves its limit in the first tick, and of the simulator's frames only the first comes
through. -/
def tumbling : Scenario F64 :=
  { Scenario.still 2 [] true (by decide) (List.forall_mem_nil _) increasing_nil with
    initial := ⟨0.29, 100.0⟩
    initial_finite := by decide +kernel
    lossUp := 1.0
    lossUp_probability := ⟨by decide +kernel, by decide +kernel⟩
    lossStartTick := 0
    lossStartTick_le := by decide }

/-- A vehicle with two scheduled cycles beside it, on one clock. -/
def race : Setting where
  spec := tumbling
  seed := 0
  delayTicks := 1
  copies := 12
  cfg := { autoArm := true, cycles := 2, warmup := 0, skew_le := skew_default }
  vehicleClock n := n
  simClock n := n
  discipline _ _ _ := true

/-- The race after some acts. -/
def raceAfter (acts : List (ℕ × Act)) : Option World := (race.start 1).toOption.bind fun w => race.run w acts

/-- The frame that is sent last up to then, by the simulator and by the vehicle. -/
def raceSent (acts : List (ℕ × Act)) : Bytes × Bytes :=
  ((raceAfter acts).map fun w => (w.up.sent.getLastD [], w.down.sent.getLastD [])).getD ([], [])

/-- A turn from a moment on. -/
def raceTurn (k : ℕ) : ℕ × Act :=
  (k + 8, .sim (.turn ⟨k, k + 1, k + 2, k + 3, k + 4, k + 5, k + 6, k + 7, k + 9⟩ true))

/-- A receive call without a datagram, and the cycle after it, from a moment on. -/
def raceCycle (k : ℕ) : List (ℕ × Act) :=
  [(k + 1, .vehicle (.poll 0 k (.error EAGAIN))),
    (k + 7, .vehicle (.cycle ⟨k + 2, k + 3, k + 4, k + 5, k + 6, k + 8, k + 9⟩ false true true))]

/-- The first frame is sent, and taken; the vehicle runs its first cycle. -/
def raceBegins : List (ℕ × Act) :=
  raceTurn 10 :: (21, .vehicle (.listen 20 22 (raceSent [raceTurn 10]).1)) :: raceCycle 30

/-- The plant leaves its limit, of which nothing comes through; the vehicle runs its last cycle. -/
def raceParts : List (ℕ × Act) :=
  raceBegins ++ [(60, .sim (.drain [(raceSent raceBegins).2])), raceTurn 70] ++ raceCycle 90 ++
    [(100, .vehicle .close)]

/-- The simulator takes the vehicle's end. -/
def raceActs : List (ℕ × Act) :=
  raceParts ++ [(110, .sim (.drain [(raceSent raceParts).2])), raceTurn 120, (140, .vehicle (.quit ⟨false, 1, false, 0⟩))]

/-- What the race comes to. -/
theorem race_outcome : (raceAfter raceActs).map (fun w =>
    decide (w.sim.process.code = some 0) && w.vehicle.finished && w.sim.process.model.vehicleSeen.isSome &&
      w.simReason == 2 && w.vehicleReason == 7) = some true := by
  decide +kernel

/-- The race is a run of the pair. -/
theorem race_run : ∃ r : race.Run, r.acts = raceActs ∧ r.world.sim.process.code = some 0 ∧
    r.world.vehicle.finished = true ∧ r.world.sim.process.model.vehicleSeen.isSome = true ∧
    r.world.simReason = 2 ∧ r.world.vehicleReason = 7 := by
  have houtcome := race_outcome
  obtain ⟨world, hworld, hends⟩ := Option.map_eq_some_iff.mp houtcome
  obtain ⟨first, hfirst, hran⟩ := Option.bind_eq_some_iff.mp hworld
  have hstarted : race.start 1 = .ok first := by
    cases hstart : race.start 1 with
    | error failure =>
      rw [hstart] at hfirst
      nomatch hfirst
    | ok w =>
      rw [hstart] at hfirst
      exact congrArg Except.ok (Option.some.inj hfirst)
  simp only [Bool.and_eq_true, decide_eq_true_eq, beq_iff_eq] at hends
  obtain ⟨⟨⟨⟨hcode, hfinished⟩, hseen⟩, hsim⟩, hvehicle⟩ := hends
  exact ⟨⟨1, first, raceActs, world, hstarted, hran⟩, rfl, hcode, hfinished, hseen, hsim, hvehicle⟩

/-- The rocket starts within the limit. -/
theorem tumbling_tilt : Arith.lt 0.30 (Arith.abs tumbling.initial.theta) = false := by decide +kernel

/-- Nothing stops the vehicle of the race. -/
theorem race_unstopped : ∀ act ∈ raceActs, act.2.Unstopped := by
  intro act hact
  simp only [raceActs, raceParts, raceBegins, raceCycle, raceTurn, List.mem_append, List.mem_cons, List.not_mem_nil,
    or_false] at hact
  rcases hact with ((((rfl | rfl | rfl | rfl) | rfl | rfl) | rfl | rfl) | rfl) | rfl | rfl | rfl
  all_goals simp [Act.Unstopped, VehicleAct.Unstopped]

/-- Not every pair that an honest run comes to is expected. -/
theorem pair_unexpected : ¬∀ (s : Setting) (r : s.Run), Arith.lt 0.30 (Arith.abs s.spec.initial.theta) = false →
    (∀ act ∈ r.acts, act.2.Unstopped) → r.world.sim.process.code = some 0 → r.world.vehicle.finished = true →
    r.world.sim.process.model.vehicleSeen.isSome = true →
    (r.world.simReason, r.world.vehicleReason) ∈ Reconcile.expectedPairs := by
  intro hclaim
  obtain ⟨r, hacts, hcode, hfinished, hseen, hsim, hvehicle⟩ := race_run
  have hpair := hclaim race r tumbling_tilt (hacts ▸ race_unstopped) hcode hfinished hseen
  rw [hsim, hvehicle] at hpair
  exact absurd hpair (by decide)

/-- The run of the race leaves a state in which the plant is out of control unheard. -/
theorem pair_expected_iff_race : ∃ r : race.Run, r.world.simReason = 2 ∧ r.world.vehicleReason = 7 ∧
    ∃ w, r.Leaves w ∧ w.Overlooked race := by
  obtain ⟨r, hacts, hcode, hfinished, hseen, hsim, hvehicle⟩ := race_run
  refine ⟨r, hsim, hvehicle, ?_⟩
  have hiff := pair_expected_iff race r tumbling_tilt (hacts ▸ race_unstopped) hcode hseen
  by_contra hnone
  push Not at hnone
  have hpair := hiff.mpr hnone
  rw [hsim, hvehicle] at hpair
  exact absurd hpair (by decide)

end Tvc.Freerun
