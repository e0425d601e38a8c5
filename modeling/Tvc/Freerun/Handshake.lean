import Mathlib.Data.Int.ConditionallyCompleteOrder
import Tvc.Audit.Terminal
import Tvc.Freerun.SimEnd
import Tvc.Freerun.VehicleEnd

/-!
# The terminal handshake of the free-run pair

What one side has seen of the other's end is that end. It is carried by the terminal frames: those in the air, those
that were taken and are not yet used, and those that the admission has parked all tell the one end of their sender, and
tell it after its interval. So an order that is drawn from what the sides heard, or from one clock, is the order in
which they ended.
-/

namespace Tvc.Freerun

variable [Arith F64]

/-- A sensor frame, if it tells of the simulator's end, tells the end it has had before a moment. -/
def Known (d : SimSide) (bound : ℕ) (f : Frame) : Prop :=
  f.terminal = true → ∃ reason span data, d.Over reason span data ∧ f.fields.simReason = BitVec.ofNat 32 reason.toNat ∧
    span.after < bound

/-- The bytes of a sensor frame, if they tell of the simulator's end, are the one frame that does. -/
def Told (d : SimSide) (bound : ℕ) (data : Bytes) : Prop :=
  ∀ f, (Datagram.mk data false).frame = .ok f → f.terminal = true →
    ∃ reason span, d.Over reason span data ∧ f.fields.simReason = BitVec.ofNat 32 reason.toNat ∧ span.after < bound

/-- A reply, if it tells of the vehicle's end, is the one reply that does, made before a moment. -/
def Reported (v : VehicleSide) (bound : ℕ) (data : Bytes) : Prop :=
  ∀ value, decodeReply data = .ok value → stateByte value = 3 →
    ∃ t span, v.Over t span data ∧ reasonByte value = t.reason.toNat ∧ span.after < bound

section Knowledge

variable {d d' : SimSide} {v v' : VehicleSide} {bound bound' : ℕ}

omit [Arith F64] in
/-- What is known stays known. -/
theorem Known.mono {f : Frame} (h : Known d bound f) (hlater : d.Later d') (hbound : bound ≤ bound') :
    Known d' bound' f := by
  intro hterminal
  obtain ⟨reason, span, data, hover, hreason, hafter⟩ := h hterminal
  exact ⟨reason, span, data, hover.later hlater, hreason, hafter.trans_le hbound⟩

omit [Arith F64] in
/-- What is told stays told. -/
theorem Told.mono {data : Bytes} (h : Told d bound data) (hlater : d.Later d') (hbound : bound ≤ bound') :
    Told d' bound' data := by
  intro f hf hterminal
  obtain ⟨reason, span, hover, hreason, hafter⟩ := h f hf hterminal
  exact ⟨reason, span, hover.later hlater, hreason, hafter.trans_le hbound⟩

omit [Arith F64] in
/-- The frame of what is told is known. -/
theorem Told.bears {data : Bytes} (h : Told d bound data) : Admission.Bears (Known d bound) ⟨data, false⟩ := by
  intro f hf hterminal
  obtain ⟨reason, span, hover, hreason, hafter⟩ := h f hf hterminal
  exact ⟨reason, span, data, hover, hreason, hafter⟩

omit [Arith F64] in
/-- What is reported stays reported. -/
theorem Reported.mono {data : Bytes} (h : Reported v bound data) (hlater : v.Later v') (hbound : bound ≤ bound') :
    Reported v' bound' data := by
  intro value hvalue hstate
  obtain ⟨t, span, hover, hreason, hafter⟩ := h value hvalue hstate
  exact ⟨t, span, hlater.ends t span data hover, hreason, hafter.trans_le hbound⟩

end Knowledge

/-- What the pair keeps of the two ends. -/
structure Agreed (s : Setting) (w : World) : Prop where
  vehicle : w.vehicle.Kept s.cfg s.vehicleClock
  sim : w.sim.Kept s.simClock
  heeds : w.vehicle.Heeds (Known w.sim w.vehicle.last)
  informed : ∀ span r, w.vehicle.ended = some span → w.vehicle.simSeen = some r →
    ∃ f, Known w.sim span.before f ∧ f.terminal = true ∧ f.fields.simReason = r
  up : ∀ data ∈ w.up.sent, Told w.sim w.now data
  down : ∀ data ∈ w.down.sent, Reported w.vehicle w.now data
  drained : ∀ packets, w.sim.drained = some packets → ∀ data ∈ packets, Reported w.vehicle w.sim.last data
  seen : ∀ r, w.sim.process.model.vehicleSeen = some r → ∃ t span data, w.vehicle.Over t span data ∧ t.reason.toNat = r ∧
    (w.sim.process.terminationSource = some .vehicle → ∀ sim, w.sim.ended = some sim → span.after < sim.before)

variable {s : Setting} {w w' : World} {moment : ℕ}

/-- Nothing has happened. -/
theorem agreed_start {opened : ℕ} {process : Process} (h : Process.initial s.spec s.seed s.delayTicks = .ok process) :
    Agreed s { sim := { last := opened, opened, process } } := by
  have hprocess : process.phase = .prologue ∧ process.ending = {} := by
    unfold Process.initial at h
    cases hnew : Model.new s.spec s.seed s.delayTicks with
    | error failure =>
      rw [hnew] at h
      nomatch h
    | ok model =>
      rw [hnew] at h
      obtain rfl := Except.ok.inj h
      obtain ⟨hreason, hseen⟩ := Model.new_unended hnew
      refine ⟨rfl, ?_⟩
      unfold Process.ending
      rw [hreason, hseen]
  obtain ⟨hphase, hending⟩ := hprocess
  have hsource : process.terminationSource = none := congrArg Ending.source hending
  have hkept : VehicleSide.Kept s.cfg s.vehicleClock {} :=
    ⟨fun _ => rfl, fun _ hpolled => absurd hpolled.symm (Option.some_ne_none _),
      fun _ _ hflight => absurd hflight.symm (Option.some_ne_none _)⟩
  have hheeds (d : SimSide) : VehicleSide.Heeds (Known d 0) {} :=
    ⟨fun _ _ hflight => absurd hflight.symm (Option.some_ne_none _),
      fun _ _ hflight => absurd hflight.symm (Option.some_ne_none _),
      fun _ hpolled => absurd hpolled.symm (Option.some_ne_none _), fun _ hseen => absurd hseen.symm (Option.some_ne_none _)⟩
  have hsim : SimSide.Kept s.simClock { last := opened, opened, process } := by
    refine ⟨⟨fun _ => hending, fun _ _ => hending, fun _ _ hgrace => ?_⟩, fun _ => ?_, fun source hsome => ?_,
      fun data hdata => ?_, fun hvehicle => ?_⟩
    · nomatch hphase.symm.trans hgrace
    · exact ⟨rfl, congrArg Ending.beforeNs hending, congrArg Ending.terminationNs hending⟩
    · nomatch hsource.symm.trans hsome
    · nomatch (congrArg Ending.cached hending).symm.trans hdata
    · nomatch hsource.symm.trans hvehicle
  refine ⟨hkept, hsim, hheeds _, fun _ _ hspan => absurd hspan.symm (Option.some_ne_none _),
    fun _ hdata => absurd hdata List.not_mem_nil, fun _ hdata => absurd hdata List.not_mem_nil,
    fun _ hpackets => absurd hpackets.symm (Option.some_ne_none _), fun r hr => ?_⟩
  nomatch (congrArg Ending.seen hending).symm.trans hr

/-- An act of the vehicle keeps the agreement. -/
theorem Agreed.vehicle_act {a : VehicleAct} {out : Outcome VehicleSide} (h : Agreed s w) (hlater : w.now < moment)
    (hact : w.vehicle.act s.cfg s.vehicleClock moment a = some out) (hsent : ∀ frame ∈ out.taken, frame ∈ w.up.sent) :
    Agreed s
      { w with
        now := moment
        vehicle := out.side
        up.taken := w.up.taken ++ out.taken
        down.sent := w.down.sent ++ out.handed.toList } := by
  have hdone := h.vehicle.act hact
  obtain ⟨hbefore, hafter⟩ := hdone.after
  have hsame : w.sim.Later w.sim := ⟨le_rfl, fun _ => id, fun _ => id, fun _ => id, fun _ => id⟩
  have htaken : ∀ data ∈ out.taken, Admission.Bears (Known w.sim out.side.last) ⟨data, false⟩ := fun data hdata =>
    ((h.up data (hsent data hdata)).mono hsame (hlater.le.trans hafter)).bears
  refine ⟨hdone.kept, h.sim, ?_, fun span r hspan hr => ?_, fun data hdata => (h.up data hdata).mono hsame hlater.le,
    fun data hdata => ?_, fun packets hpackets data hdata => (h.drained packets hpackets data hdata).mono hdone.later le_rfl,
    fun r hr => ?_⟩
  · exact (h.heeds.mono fun f hf => hf.mono hsame (hbefore.le.trans hafter)).act h.vehicle hact htaken
  · rcases hdone.sight span hspan with ⟨hold, hsight⟩ | ⟨hstarted, hnone⟩
    · exact h.informed span r hold (hsight.symm.trans hr)
    · have hheeds : out.side.Heeds (Known w.sim w.vehicle.last) := h.heeds.act h.vehicle hact (by rw [hnone]; nofun)
      obtain ⟨f, hf, hrest⟩ := hheeds.seen r hr
      exact ⟨f, hf.mono hsame hstarted.le, hrest⟩
  · rcases List.mem_append.mp hdata with hold | hnew
    · exact (h.down data hold).mono hdone.later hlater.le
    · intro value hvalue hstate
      rcases hdone.handed data (Option.mem_toList.mp hnew) with hordinary | ⟨t, span, hover, hpast⟩
      · exact absurd hstate (hordinary value hvalue)
      · refine ⟨t, span, hover, ?_, hpast⟩
        obtain ⟨o, x, hflight, hcycle, hterminal, hreply, hspan⟩ := hover
        obtain ⟨t', span', value', hterminal', -, -, -, -, -, -, hdecode, -, hreason⟩ :=
          (hdone.kept.flown o x hflight).interval hcycle
        obtain rfl := Option.some.inj (hterminal.symm.trans hterminal')
        rw [hreply] at hdecode
        obtain rfl := Except.ok.inj (hdecode.symm.trans hvalue)
        exact hreason
  · obtain ⟨t, span, data, hover, hrest⟩ := h.seen r hr
    exact ⟨t, span, data, hdone.later.ends t span data hover, hrest⟩

/-- An act of the simulator keeps the agreement. -/
theorem Agreed.sim_act {a : SimAct} {out : Outcome SimSide} (h : Agreed s w) (hlater : w.now < moment)
    (hact : w.sim.act s.spec s.copies s.simClock moment a = some out)
    (hsent : ∀ frame ∈ out.taken, frame ∈ w.down.sent) :
    Agreed s
      { w with
        now := moment
        sim := out.side
        down.taken := w.down.taken ++ out.taken
        up.sent := w.up.sent ++ out.handed.toList } := by
  have hdone := h.sim.act hact
  obtain ⟨hbefore, hafter⟩ := hdone.after
  have hsame : w.vehicle.Later w.vehicle := ⟨le_rfl, fun _ _ _ => id⟩
  refine ⟨h.vehicle, hdone.kept, h.heeds.mono fun f hf => hf.mono hdone.later le_rfl, fun span r hspan hr => ?_,
    fun data hdata => ?_, fun data hdata => (h.down data hdata).mono hsame hlater.le,
    fun packets hpackets data hdata => ?_, fun r hr => ?_⟩
  · obtain ⟨f, hf, hrest⟩ := h.informed span r hspan hr
    exact ⟨f, hf.mono hdone.later le_rfl, hrest⟩
  · rcases List.mem_append.mp hdata with hold | hnew
    · exact (h.up data hold).mono hdone.later hlater.le
    · intro f hf hterminal
      rcases hdone.handed data (Option.mem_toList.mp hnew) with hordinary | ⟨reason, span, hover, hpast⟩
      · exact absurd hterminal (by rw [hordinary f hf]; exact Bool.false_ne_true)
      · refine ⟨reason, span, hover, ?_, hpast⟩
        obtain ⟨reason', span', hover', g, hg, -, hreason⟩ := hdone.kept.cached data hover.cached
        obtain rfl := Except.ok.inj (hg.symm.trans hf)
        obtain rfl := Option.some.inj (hover'.reason.symm.trans hover.reason)
        exact hreason
  · rcases hdone.drained packets hpackets with hold | rfl
    · exact (h.drained packets hold data hdata).mono hsame hdone.later.last
    · exact (h.down data (hsent data hdata)).mono hsame (hlater.le.trans hafter)
  · rcases hdone.seen r hr with ⟨hold, hvehicle⟩ | ⟨packets, hpackets, ⟨data, hdata, value, hvalue, hstate, rfl⟩, hstarted⟩
    · obtain ⟨t, span, data, hover, hreason, hcause⟩ := h.seen r hold
      refine ⟨t, span, data, hover, hreason, fun hnew sim hsim => ?_⟩
      obtain ⟨sim', hsim', -⟩ := h.sim.interval _ (hvehicle hnew)
      obtain rfl := Option.some.inj ((hdone.later.ended sim' hsim').symm.trans hsim)
      exact hcause (hvehicle hnew) sim' hsim'
    · obtain ⟨t, span, hover, hreason, hpast⟩ := h.drained packets hpackets data hdata value hvalue hstate
      exact ⟨t, span, data, hover, hreason.symm, fun hnew sim hsim => hpast.trans (hstarted hnew sim hsim)⟩

/-- A step keeps the agreement. -/
theorem Agreed.step {a : Act} (h : Agreed s w) (hstep : s.step w moment a = some w') : Agreed s w' := by
  obtain ⟨hlater, hstepped⟩ := Setting.stepped hstep
  cases hstepped with
  | vehicle hact hsent => exact h.vehicle_act hlater hact hsent
  | sim hact hsent => exact h.sim_act hlater hact hsent

/-- The two sides agree in every run. -/
theorem agreed_run (r : s.Run) : Agreed s r.world :=
  r.keeps (fun _ _ hinitial => agreed_start hinitial) fun _ _ _ _ h hstep => h.step hstep

/-! ## The order of the ends -/

open Reconcile (Termination Order)

omit [Arith F64] in
/-- The result with which the vehicle has ended the run. -/
def VehicleSide.terminal (v : VehicleSide) : Option TerminalResult :=
  v.flight.bind fun flight => flight.2.r.state.terminal

omit [Arith F64] in
/-- What the summary says of the vehicle's end, on the clock of a domain. -/
def VehicleSide.termination (domain : String) (v : VehicleSide) : Termination where
  peer := v.simSeen.isSome
  clockDomain := domain
  terminationNs := v.flight.elim 0 fun flight => flight.2.r.terminationNs
  terminationBeforeNs := v.flight.elim 0 fun flight => flight.2.r.terminationBeforeNs

omit [Arith F64] in
/-- What the report says of the simulator's end, on the clock of a domain. -/
def SimSide.termination (domain : String) (d : SimSide) : Termination where
  peer := d.process.terminationSource == some .vehicle
  clockDomain := domain
  terminationNs := d.process.terminationNs
  terminationBeforeNs := d.process.terminationBeforeNs

/-- An end has an interval on the clock, and no end has none. -/
def Timed (clock : ℕ → ℤ) (ended : Option Span) (t : Termination) : Prop :=
  ended = none ∧ t.terminationBeforeNs = 0 ∧ t.terminationNs = 0 ∨
    ∃ span, ended = some span ∧ span.before < span.moment ∧ span.moment < span.after ∧
      t.terminationBeforeNs = clock span.before ∧ t.terminationNs = clock span.after

/-- The summary gives the interval of the vehicle's end. -/
theorem Agreed.vehicle_timed (h : Agreed s w) (domain : String) :
    Timed s.vehicleClock w.vehicle.ended (w.vehicle.termination domain) := by
  cases hflight : w.vehicle.flight with
  | none =>
    refine .inl ⟨h.vehicle.grounded hflight, ?_, ?_⟩
    all_goals
      unfold VehicleSide.termination
      rw [hflight]
      rfl
  | some flight =>
    obtain ⟨o, x⟩ := flight
    have hflown := h.vehicle.flown o x hflight
    have hbefore : (w.vehicle.termination domain).terminationBeforeNs = x.r.terminationBeforeNs := by
      unfold VehicleSide.termination
      rw [hflight]
      rfl
    have hafter : (w.vehicle.termination domain).terminationNs = x.r.terminationNs := by
      unfold VehicleSide.termination
      rw [hflight]
      rfl
    by_cases hcycle : x.r.terminalCycle = 0
    · obtain ⟨hended, -, hzero, hzero'⟩ := hflown.unended hcycle
      exact .inl ⟨hended, hbefore.trans hzero, hafter.trans hzero'⟩
    · obtain ⟨-, span, -, -, hended, hfirst, hsecond, -, hclock, hclock', -⟩ := hflown.interval hcycle
      exact .inr ⟨span, hended, hfirst, hsecond, hbefore.trans hclock, hafter.trans hclock'⟩

/-- The report gives the interval of the simulator's end. -/
theorem Agreed.sim_timed (h : Agreed s w) (domain : String) :
    Timed s.simClock w.sim.ended (w.sim.termination domain) := by
  cases hsource : w.sim.process.terminationSource with
  | none => exact .inl (h.sim.unended hsource)
  | some source =>
    obtain ⟨span, hended, hfirst, hsecond, -, hbefore, hafter⟩ := h.sim.interval source hsource
    exact .inr ⟨span, hended, hfirst, hsecond, hbefore, hafter⟩

/-- The vehicle heard of the simulator's end after it. -/
theorem Agreed.sim_first (h : Agreed s w) (hseen : w.vehicle.simSeen.isSome = true) :
    w.sim.process.terminationSource = some .simulator ∧ ∃ span, w.sim.ended = some span ∧
      ∀ vehicle, w.vehicle.ended = some vehicle → span.after < vehicle.before := by
  obtain ⟨r, hr⟩ := Option.isSome_iff_exists.mp hseen
  obtain ⟨f, hf, hterminal, -⟩ := h.heeds.seen r hr
  obtain ⟨reason, span, data, hover, -, -⟩ := hf hterminal
  refine ⟨hover.source, span, hover.ended, fun vehicle hended => ?_⟩
  obtain ⟨g, hg, hflag, -⟩ := h.informed vehicle r hended hr
  obtain ⟨_, span', _, hover', -, hpast⟩ := hg hflag
  obtain rfl := Option.some.inj (hover'.ended.symm.trans hover.ended)
  exact hpast

/-- The simulator heard of the vehicle's end after it. -/
theorem Agreed.vehicle_first (h : Agreed s w) (hsource : w.sim.process.terminationSource = some .vehicle) :
    ∃ span, w.vehicle.ended = some span ∧ ∀ sim, w.sim.ended = some sim → span.after < sim.before := by
  obtain ⟨r, hr⟩ := Option.isSome_iff_exists.mp (h.sim.told hsource)
  obtain ⟨t, span, data, ⟨o, x, hflight, hcycle, hterminal, hreply, hended⟩, -, hcause⟩ := h.seen r hr
  exact ⟨span, hended, hcause hsource⟩

/-- One end lies before the other, if there is the other, with a gap between their intervals. -/
def Apart (first other : Option Span) : Prop :=
  ∃ span, first = some span ∧ ∀ span', other = some span' → span.after < span'.before

/-- The ends lie apart in an order. -/
def Precedes (vehicle sim : Option Span) : Order → Prop
  | .vehicleFirst => Apart vehicle sim
  | .simFirst => Apart sim vehicle

/-- One side ended before the other, if the other has ended. -/
def EndedFirst (first other : Option Span) : Prop :=
  ∃ span, first = some span ∧ ∀ span', other = some span' → span.moment < span'.moment

section Timed

variable {clock : ℕ → ℤ} {first other : Option Span} {t t' : Termination}

omit [Arith F64] in
/-- On one clock, readings that are apart are those of intervals that are. -/
theorem Timed.apart (hclock : Monotone clock) (h : Timed clock first t) (h' : Timed clock other t')
    (hbefore : 0 < t'.terminationBeforeNs) (hafter : 0 < t.terminationNs)
    (hread : t.terminationNs < t'.terminationBeforeNs) : Apart first other := by
  rcases h with ⟨-, -, hzero⟩ | ⟨span, hended, -, -, -, hspan⟩
  · omega
  rcases h' with ⟨-, hzero, -⟩ | ⟨span', hended', -, -, hspan', -⟩
  · omega
  rw [hspan, hspan'] at hread
  refine ⟨span, hended, fun b hb => ?_⟩
  obtain rfl := Option.some.inj (hended'.symm.trans hb)
  exact hclock.reflect_lt hread

omit [Arith F64] in
/-- An interval does not end before it begins. -/
theorem Timed.ordered (hclock : Monotone clock) (h : Timed clock first t) :
    t.terminationBeforeNs ≤ t.terminationNs := by
  rcases h with ⟨-, hbefore, hafter⟩ | ⟨span, -, hfirst, hsecond, hbefore, hafter⟩
  · omega
  · rw [hbefore, hafter]
    exact hclock (hfirst.trans hsecond).le

omit [Arith F64] in
/-- A reading of an end is one of an interval. -/
theorem Timed.ended (h : Timed clock first t) (hread : 0 < t.terminationNs) : ∃ span, first = some span := by
  rcases h with ⟨-, -, hzero⟩ | ⟨span, hended, -⟩
  · omega
  · exact ⟨span, hended⟩

omit [Arith F64] in
/-- Ends that lie apart are in the order of their moments. -/
theorem Timed.endedFirst (h : Timed clock first t) (h' : Timed clock other t') (hapart : Apart first other) :
    EndedFirst first other := by
  obtain ⟨span, hfirst, hbetween⟩ := hapart
  refine ⟨span, hfirst, fun span' hother => ?_⟩
  have hgap := hbetween span' hother
  rcases h with ⟨hnone, -⟩ | ⟨a, ha, -, hlast, -⟩
  · nomatch hnone.symm.trans hfirst
  obtain rfl := Option.some.inj (ha.symm.trans hfirst)
  rcases h' with ⟨hnone, -⟩ | ⟨b, hb, hbegin, -⟩
  · nomatch hnone.symm.trans hother
  obtain rfl := Option.some.inj (hb.symm.trans hother)
  omega

omit [Arith F64] in
/-- Two ends do not each lie before the other. -/
theorem Timed.not_both (h : Timed clock first t) (h' : Timed clock other t') (hread : 0 < t.terminationNs)
    (hread' : 0 < t'.terminationNs) (hapart : Apart first other) : ¬Apart other first := by
  obtain ⟨a, ha⟩ := h.ended hread
  obtain ⟨b, hb⟩ := h'.ended hread'
  obtain ⟨a', ha', hbetween⟩ := h.endedFirst h' hapart
  intro hreverse
  obtain ⟨b', hb', hbetween'⟩ := h'.endedFirst h hreverse
  have hlt := hbetween b' hb'
  have hgt := hbetween' a' ha'
  omega

end Timed

/-- What the reports claim to have heard is the order of the ends. -/
theorem Agreed.claimed (h : Agreed s w) (vehicleDomain simDomain : String) {first : Order}
    (hfirst : Reconcile.causalOrder (w.vehicle.termination vehicleDomain) (w.sim.termination simDomain) = some first) :
    Precedes w.vehicle.ended w.sim.ended first := by
  unfold Reconcile.causalOrder at hfirst
  split at hfirst
  · rename_i hpeer
    obtain rfl := Option.some.inj hfirst
    exact h.vehicle_first (beq_iff_eq.mp hpeer)
  · split at hfirst
    · rename_i hpeer
      obtain rfl := Option.some.inj hfirst
      exact (h.sim_first hpeer).2
    · nomatch hfirst

/-- What one clock shows is the order of the ends. -/
theorem Agreed.shown (h : Agreed s w) (hshared : s.vehicleClock = s.simClock) (hclock : Monotone s.simClock)
    (vehicleDomain simDomain : String) {first : Order}
    (hmeasured : Reconcile.measured (w.vehicle.termination vehicleDomain) (w.sim.termination simDomain) = true)
    (hfirst : Reconcile.clockOrder (w.vehicle.termination vehicleDomain) (w.sim.termination simDomain) = some first) :
    Precedes w.vehicle.ended w.sim.ended first := by
  have hvehicle : Timed s.simClock w.vehicle.ended (w.vehicle.termination vehicleDomain) :=
    hshared ▸ h.vehicle_timed vehicleDomain
  have hsim := h.sim_timed simDomain
  simp only [Reconcile.measured, List.all_cons, List.all_nil, Bool.and_true, Bool.and_eq_true,
    decide_eq_true_eq] at hmeasured
  obtain ⟨hv, hs, hvb, hsb⟩ := hmeasured
  unfold Reconcile.clockOrder at hfirst
  split at hfirst
  · obtain rfl := Option.some.inj hfirst
    exact hvehicle.apart hclock hsim hsb hv ‹_›
  · split at hfirst
    · obtain rfl := Option.some.inj hfirst
      exact hsim.apart hclock hvehicle hvb hs ‹_›
    · nomatch hfirst

/-- With one clock that never runs back, the order of the ends is never contradictory, and names the side that ended
first. -/
theorem Agreed.order (h : Agreed s w) (hshared : s.vehicleClock = s.simClock) (hclock : Monotone s.simClock)
    (vehicleDomain simDomain : String) :
    ∃ order, Reconcile.terminalOrder (w.vehicle.termination vehicleDomain) (w.sim.termination simDomain) = .ok order ∧
      (order = some .vehicleFirst → EndedFirst w.vehicle.ended w.sim.ended) ∧
      (order = some .simFirst → EndedFirst w.sim.ended w.vehicle.ended) := by
  have hvehicle : Timed s.simClock w.vehicle.ended (w.vehicle.termination vehicleDomain) :=
    hshared ▸ h.vehicle_timed vehicleDomain
  have hsim := h.sim_timed simDomain
  have hone : (w.sim.termination simDomain).peer = true → (w.vehicle.termination vehicleDomain).peer = false := by
    intro hpeer
    by_contra hboth
    have hsource := (h.sim_first (Bool.not_eq_false _ ▸ hboth)).1
    nomatch hsource.symm.trans (beq_iff_eq.mp hpeer)
  have hagree : Reconcile.measured (w.vehicle.termination vehicleDomain) (w.sim.termination simDomain) = true →
      Reconcile.sharedClock (w.vehicle.termination vehicleDomain) (w.sim.termination simDomain) = true →
      ∀ causal ∈ Reconcile.causalOrder (w.vehicle.termination vehicleDomain) (w.sim.termination simDomain),
        ∀ order ∈ Reconcile.clockOrder (w.vehicle.termination vehicleDomain) (w.sim.termination simDomain),
          causal = order := by
    intro hmeasured _ causal hcausal order horder
    have hclaimed := h.claimed vehicleDomain simDomain hcausal
    have hshown := h.shown hshared hclock vehicleDomain simDomain hmeasured horder
    simp only [Reconcile.measured, List.all_cons, List.all_nil, Bool.and_true, Bool.and_eq_true,
      decide_eq_true_eq] at hmeasured
    have hnever := hvehicle.not_both hsim hmeasured.1 hmeasured.2.1
    cases causal <;> cases order
    · rfl
    · exact absurd hshown (hnever hclaimed)
    · exact absurd hclaimed (hnever hshown)
    · rfl
  obtain ⟨order, hok, hrests⟩ := Reconcile.terminalOrder_ok hone (hvehicle.ordered hclock) (hsim.ordered hclock) hagree
  have hprecedes : ∀ first ∈ order, Precedes w.vehicle.ended w.sim.ended first := fun first hfirst =>
    (hrests first hfirst).elim (h.claimed vehicleDomain simDomain)
      fun ⟨hmeasured, hshown⟩ => h.shown hshared hclock vehicleDomain simDomain hmeasured hshown
  exact ⟨order, hok, fun hfirst => hvehicle.endedFirst hsim (hprecedes _ hfirst),
    fun hfirst => hsim.endedFirst hvehicle (hprecedes _ hfirst)⟩

/-! ## The agreement -/

/-- A reply tells of the vehicle's end. -/
def TellsEnd (data : Bytes) : Prop := ∃ value, decodeReply data = .ok value ∧ stateByte value = 3

/-- A sensor frame tells of the simulator's end. -/
def AnnouncesEnd (data : Bytes) : Prop := ∃ f, (Datagram.mk data false).frame = .ok f ∧ f.terminal = true

/-- A result that the vehicle has stays what it is. -/
theorem VehicleSide.Later.terminal {cfg : RunConfig} {clock : ℕ → ℤ} {v v' : VehicleSide} (h : v.Later v')
    (hkept : v.Kept cfg clock) {t : TerminalResult} (ht : v.terminal = some t) : v'.terminal = some t := by
  obtain ⟨⟨o, x⟩, hflight, hterminal⟩ := Option.bind_eq_some_iff.mp ht
  have hflown := hkept.flown o x hflight
  have hcycle : x.r.terminalCycle ≠ 0 := fun hzero =>
    absurd (hterminal.symm.trans (hflown.unended hzero).2.1) (Option.some_ne_none t)
  obtain ⟨t', span, -, hterminal', hended, -⟩ := hflown.interval hcycle
  obtain rfl := Option.some.inj (hterminal'.symm.trans hterminal)
  obtain ⟨o', x', hflight', -, hsame, -, -⟩ := h.ends t' span _ ⟨o, x, hflight, hcycle, hterminal', rfl, hended⟩
  exact Option.bind_eq_some_iff.mpr ⟨(o', x'), hflight', hsame⟩

/-- A step writes no reason again. -/
theorem Agreed.once {a : Act} (h : Agreed s w) (hstep : s.step w moment a = some w') :
    (∀ t, w.vehicle.terminal = some t → w'.vehicle.terminal = some t) ∧
      ∀ reason, w.sim.process.model.reason = some reason → w'.sim.process.model.reason = some reason := by
  obtain ⟨-, hstepped⟩ := Setting.stepped hstep
  cases hstepped with
  | vehicle hact => exact ⟨fun t ht => (h.vehicle.act hact).later.terminal h.vehicle ht, fun reason hreason => hreason⟩
  | sim hact => exact ⟨fun t ht => ht, (h.sim.act hact).later.reason⟩

/-- In every run of the pair over a channel that loses, repeats, delays and reorders as it likes: what a side has seen
of the other's end is that end; each side's reason is written once, and its copies are one frame; the two sides do not
both name the other; and with one clock that never runs back the order of the ends is drawn, and is theirs. -/
theorem handshake_agreement (s : Setting) (r : s.Run) :
    (∀ reason, r.world.sim.process.model.vehicleSeen = some reason →
      ∃ t, r.world.vehicle.terminal = some t ∧ t.reason.toNat = reason) ∧
    (∀ seen, r.world.vehicle.simSeen = some seen →
      ∃ reason, r.world.sim.process.model.reason = some reason ∧ seen.toNat = reason.toNat) ∧
    (∀ acts w, s.run r.world acts = some w →
      (∀ t, r.world.vehicle.terminal = some t → w.vehicle.terminal = some t) ∧
      ∀ reason, r.world.sim.process.model.reason = some reason → w.sim.process.model.reason = some reason) ∧
    (∀ a ∈ r.world.down.sent, ∀ b ∈ r.world.down.sent, TellsEnd a → TellsEnd b → a = b) ∧
    (∀ a ∈ r.world.up.sent, ∀ b ∈ r.world.up.sent, AnnouncesEnd a → AnnouncesEnd b → a = b) ∧
    ¬(r.world.sim.process.terminationSource = some .vehicle ∧ r.world.vehicle.simSeen.isSome = true) ∧
    (s.vehicleClock = s.simClock → Monotone s.simClock → ∀ vehicleDomain simDomain, ∃ order,
      Reconcile.terminalOrder (r.world.vehicle.termination vehicleDomain) (r.world.sim.termination simDomain) =
        .ok order ∧
      (order = some .vehicleFirst → EndedFirst r.world.vehicle.ended r.world.sim.ended) ∧
      (order = some .simFirst → EndedFirst r.world.sim.ended r.world.vehicle.ended)) := by
  have h := agreed_run r
  refine ⟨fun reason hreason => ?_, fun seen hseen => ?_, fun acts w hrun => ?_, fun a ha b hb htells htells' => ?_,
    fun a ha b hb htells htells' => ?_, fun ⟨hsource, hseen⟩ => ?_, fun hshared hclock => h.order hshared hclock⟩
  · obtain ⟨t, span, data, ⟨o, x, hflight, -, hterminal, -, -⟩, hreason, -⟩ := h.seen reason hreason
    refine ⟨t, ?_, hreason⟩
    unfold VehicleSide.terminal
    rw [hflight]
    exact hterminal
  · obtain ⟨f, hf, hterminal, rfl⟩ := h.heeds.seen seen hseen
    obtain ⟨reason, span, data, hover, hreason, -⟩ := hf hterminal
    refine ⟨reason, hover.reason, ?_⟩
    rw [hreason]
    cases reason <;> rfl
  · refine (Setting.run_keeps (P := fun w => Agreed s w ∧
      (∀ t, r.world.vehicle.terminal = some t → w.vehicle.terminal = some t) ∧
      ∀ reason, r.world.sim.process.model.reason = some reason → w.sim.process.model.reason = some reason)
      (fun w moment a w' hw hstep => ?_) ⟨h, fun _ => id, fun _ => id⟩ hrun).2
    obtain ⟨hagreed, hvehicle, hsim⟩ := hw
    obtain ⟨hvehicle', hsim'⟩ := hagreed.once hstep
    exact ⟨hagreed.step hstep, fun t ht => hvehicle' t (hvehicle t ht), fun reason hr => hsim' reason (hsim reason hr)⟩
  · obtain ⟨value, hvalue, hstate⟩ := htells
    obtain ⟨value', hvalue', hstate'⟩ := htells'
    obtain ⟨t, span, ⟨o, x, hflight, -, -, hreply, -⟩, -⟩ := h.down a ha value hvalue hstate
    obtain ⟨t', span', ⟨o', x', hflight', -, -, hreply', -⟩, -⟩ := h.down b hb value' hvalue' hstate'
    obtain ⟨rfl, rfl⟩ := Prod.mk.inj (Option.some.inj (hflight.symm.trans hflight'))
    exact hreply.symm.trans hreply'
  · obtain ⟨f, hf, hterminal⟩ := htells
    obtain ⟨g, hg, hterminal'⟩ := htells'
    obtain ⟨reason, span, hover, -⟩ := h.up a ha f hf hterminal
    obtain ⟨reason', span', hover', -⟩ := h.up b hb g hg hterminal'
    exact Option.some.inj (hover.cached.symm.trans hover'.cached)
  · exact absurd (h.sim_first hseen).1 (by rw [hsource]; decide)

end Tvc.Freerun
