import Tvc.Freerun.Accounts
import Tvc.Freerun.Pairing

/-!
# What the auditor makes of the terminal exchange

A copy that is sent to a side which still has its receiving open, but reads no more, counts for the auditor as lost on
the way: the closing is noted after the cycle, and the last receive call comes before it. Where no side misses in this
way what is required of it, no leg of the exchange is called unexplained.
-/

namespace Tvc.Freerun

open Reconcile (terminalAudit VehicleReport SimReport)

section Reports

variable [Arith F64]

/-- What the summary says of the exchange, on the clock of a domain. -/
def World.vehicleReport (s : Setting) (domain : String) (w : World) : VehicleReport where
  termination := w.vehicle.termination domain
  terminalCopies := s.cfg.terminalCopies
  downAttempts := w.vehicle.flight.elim 0 fun flight => flight.2.r.termAttempts
  downTxFail := w.vehicle.flight.elim 0 fun flight => flight.2.r.termFailed
  downTransmitted := w.vehicle.flight.elim 0 fun flight => flight.2.r.termSent
  upReceivedRaw := w.vehicle.upReceived
  lifetimes :=
    { sendFirstNs := w.vehicle.flight.elim 0 fun flight => flight.2.r.termFirst
      sendLastNs := w.vehicle.flight.elim 0 fun flight => flight.2.r.termLast
      receiveOpenNs := s.vehicleClock w.vehicle.opened
      receiveClosedNs := w.vehicle.closed.elim 0 s.vehicleClock }

/-- What the simulator's report says of the exchange, on the clock of a domain. -/
def World.simReport (s : Setting) (domain : String) (w : World) : SimReport where
  termination := w.sim.termination domain
  upAttempts := w.sim.process.model.term.upAttempts
  upIntentionallyLost := w.sim.process.model.term.upIntentionallyLost
  upTxFail := w.sim.process.model.term.upTxFail
  upTransmitted := w.sim.process.model.term.upTransmitted
  downReceivedRaw := w.sim.process.model.term.downReceivedRaw
  downIntentionallyLost := w.sim.process.model.term.downIntentionallyLost
  downSurvived := w.sim.process.model.term.downSurvived
  lifetimes :=
    { sendFirstNs := w.sim.process.firstTerminalSend
      sendLastNs := w.sim.process.lastTerminalSend
      receiveOpenNs := s.simClock w.sim.opened
      receiveClosedNs := w.sim.closed.elim 0 s.simClock }

variable {s : Setting} {domain : String} {w : World}

/-- Accounts at whose end a leg is not called unexplained: the uplink. -/
theorem Booked.up_explained (h : Booked s domain w) (hshared : s.vehicleClock = s.simClock)
    (hclosed : w.vehicle.closed.isSome = true) (hrequired : w.RequiresUp domain)
    (hreceived : w.vehicle.upReceived = 0) (hsent : 0 < w.sim.process.copies.transmitted) :
    w.vehicle.closed.elim 0 s.vehicleClock < w.sim.process.copies.lastSend := by
  obtain ⟨c, hclosed⟩ := Option.isSome_iff_exists.mp hclosed
  rw [hclosed, Option.elim_some, hshared]
  rcases h.closedUp c hclosed with (hpos | ⟨-, hnever⟩ | ⟨o, x, hflight, hn⟩) | hnone | ⟨t, -, htime, hlater⟩
  · omega
  · exact absurd hrequired hnever
  · -- A vehicle that has run no cycle has neither seen nor brought about an end.
    obtain ⟨hcycle, hseen⟩ := h.counts.fresh o x hflight hn
    obtain ⟨-, -, -, hzero⟩ := (h.agreed.vehicle.flown o x hflight).unended hcycle
    rcases Reconcile.terminalOrder_simFirst hrequired with hpeer | hmeasured
    · unfold VehicleSide.termination VehicleSide.simSeen at hpeer
      rw [hflight] at hpeer
      simp [hseen] at hpeer
    · unfold VehicleSide.termination at hmeasured
      rw [hflight] at hmeasured
      exact absurd hmeasured (by simp [hzero])
  · omega
  · rw [htime]
    exact hlater

/-- The downlink. -/
theorem Booked.down_explained (h : Booked s domain w) (hshared : s.vehicleClock = s.simClock)
    (hclosed : w.sim.closed.isSome = true) (hrequired : w.RequiresDown domain)
    (hsurvived : w.sim.process.copies.survived = 0)
    (hsent : w.sim.process.copies.received < w.vehicle.flight.elim 0 fun flight => flight.2.r.termSent) :
    w.sim.closed.elim 0 s.simClock < w.vehicle.flight.elim 0 fun flight => flight.2.r.termLast := by
  obtain ⟨c, hclosed⟩ := Option.isSome_iff_exists.mp hclosed
  rw [hclosed, Option.elim_some, ← hshared]
  rcases h.closedDown c hclosed with (hpos | ⟨-, hnever⟩) | hcounted
  · omega
  · exact absurd hrequired hnever
  · cases hflight : w.vehicle.flight with
    | none =>
      rw [hflight] at hsent
      exact absurd hsent (Nat.not_lt_zero _)
    | some flight =>
      obtain ⟨o, x⟩ := flight
      rw [hflight, Option.elim_some] at hsent
      rcases hcounted o x hflight with hall | ⟨t, -, htime, hlater⟩
      · exact absurd hsent (not_lt.mpr hall)
      · exact hlater.trans_eq htime.symm

/-- In every run of the pair over ways that lose, repeat and reorder nothing, on one clock that never runs back, in which
every step is in time, once both sides have closed no leg of the exchange is called unexplained, and no loss on the way
is given as a cause. -/
theorem terminal_explained (s : Setting) (r : s.Run) (domain : String) (hshared : s.vehicleClock = s.simClock)
    (hclock : Monotone s.simClock) (hlossless : s.Lossless) (htimely : s.Along (s.Timely domain) r.first r.acts)
    (hvehicle : r.world.vehicle.closed.isSome = true) (hsim : r.world.sim.closed.isSome = true) :
    ∀ audit, terminalAudit (r.world.vehicleReport s domain) (r.world.simReport s domain) = .ok audit →
      audit.up.residual ≠ .unexplained ∧ audit.down.residual ≠ .unexplained ∧
        .unexplainedTransportLoss ∉ audit.causes := by
  have hbooked : Booked s domain r.world :=
    htimely.keeps (fun w moment a w' ha hw hstep => hw.step hshared hclock hlossless ha hstep)
      (r.begins fun opened process h => booked_start h) r.ran
  intro audit haudit
  have hup : audit.up.residual ≠ .unexplained := by
    intro hresidual
    obtain ⟨horder, hreceived, hsent, hlast⟩ := Reconcile.terminalAudit_up haudit hresidual
    exact absurd hlast (not_le.mpr (hbooked.up_explained hshared hvehicle horder hreceived hsent))
  have hdown : audit.down.residual ≠ .unexplained := by
    intro hresidual
    obtain ⟨hrequired, hsent, hsurvived, hlast⟩ := Reconcile.terminalAudit_down haudit hresidual
    exact absurd hlast (not_le.mpr (hbooked.down_explained hshared hsim hrequired hsurvived hsent))
  refine ⟨hup, hdown, fun hcause => ?_⟩
  obtain ⟨-, -, -, -, -, -, -, -, hlegs⟩ := Reconcile.terminalAudit_ok haudit
  obtain ⟨leg, hleg, hresidual⟩ := hlegs hcause
  simp only [List.mem_cons, List.not_mem_nil, or_false] at hleg
  rcases hleg with rfl | rfl
  · exact hup hresidual
  · exact hdown hresidual

/-- The ways deliver at once: what is taken is all that waits and there is room for. -/
def Setting.Instant (s : Setting) : Prop :=
  ∀ room way taken, s.discipline room way taken = true → taken = way.waiting.take room

/-- A receive call finds nothing only where nothing waits, and none raises an exception. -/
def Setting.Prompt (_ : Setting) (w : World) (_ : ℕ) : Act → Prop
  | .vehicle (.poll _ _ (.error _)) => w.up.waiting = []
  | .sim (.fault _ _) => False
  | _ => True

instance (s : Setting) (w : World) (moment : ℕ) (a : Act) : Decidable (s.Prompt w moment a) := by
  unfold Setting.Prompt
  split <;> infer_instance

/-- The pair after some acts. -/
def Setting.after (s : Setting) (opened : ℕ) (acts : List (ℕ × Act)) : Option World :=
  (s.start opened).toOption.bind fun w => s.run w acts

/-- The frame that is sent last up to then, by the simulator and by the vehicle. -/
def Setting.sentLast (s : Setting) (opened : ℕ) (acts : List (ℕ × Act)) : Bytes × Bytes :=
  ((s.after opened acts).map fun w => (w.up.sent.getLastD [], w.down.sent.getLastD [])).getD ([], [])

/-- Acts that can happen make a run. -/
theorem Setting.run_of_after {opened : ℕ} {acts : List (ℕ × Act)} {P : World → Bool}
    (h : (s.after opened acts).map P = some true) :
    ∃ r : s.Run, r.acts = acts ∧ r.first ∈ (s.start opened).toOption ∧ P r.world = true := by
  obtain ⟨world, hworld, hends⟩ := Option.map_eq_some_iff.mp h
  obtain ⟨first, hfirst, hran⟩ := Option.bind_eq_some_iff.mp hworld
  have hstarted : s.start opened = .ok first := by
    cases hstart : s.start opened with
    | error failure =>
      rw [hstart] at hfirst
      nomatch hfirst
    | ok w =>
      rw [hstart] at hfirst
      exact congrArg Except.ok (Option.some.inj hfirst)
  exact ⟨⟨opened, first, acts, world, hstarted, hran⟩, rfl, hfirst, hends⟩

omit [Arith F64] in
/-- What is found in a result is there. -/
theorem ok_of_any {α : Type} {result : Except String α} {p : α → Bool} (h : result.toOption.any p = true) :
    ∃ a, result = .ok a ∧ p a = true := by
  cases result with
  | error message => nomatch h
  | ok a => exact ⟨a, rfl, h⟩

end Reports

/-! ## Two runs -/

attribute [local instance] ieee

/-- A way that delivers at once. -/
def atOnce (room : ℕ) (way : Way) (taken : List Bytes) : Bool := taken == way.waiting.take room

/-- Two ticks are some. -/
theorem pair_ticks : 0 < 2 := by decide

/-- No command comes after the end. -/
theorem pair_commands : ∀ c ∈ ([] : List (ℕ × Opcode)), c.1 < 2 := List.forall_mem_nil _

/-- A rocket at rest for two ticks, beside the vehicle of the race; of its end each side sends one copy. -/
def brief : Setting :=
  { race with
    spec := .still 2 [] true pair_ticks pair_commands increasing_nil
    copies := 1
    cfg := { race.cfg with terminalCopies := 1 }
    discipline := atOnce }

/-- The first frame is sent, and taken; the vehicle runs its first cycle, and the simulator takes its reply. -/
def briefBegins : List (ℕ × Act) :=
  let first := raceTurn 10 :: (21, .vehicle (.listen 20 22 (brief.sentLast 1 [raceTurn 10]).1)) :: raceCycle 30
  first ++ [(60, .sim (.drain [(brief.sentLast 1 first).2]))]

/-- Both sides end: the simulator takes the vehicle's end, and closes. -/
def briefEnds (acts : List (ℕ × Act)) : List (ℕ × Act) :=
  acts ++ [(110, .sim (.drain [(brief.sentLast 1 acts).2])), raceTurn 120, (140, .sim .close),
    (150, .vehicle (.quit ⟨false, 1, false, 0⟩))]

/-- The vehicle reads, and finds nothing; the simulator ends the run and sends its frame; the vehicle runs its last cycle
and closes. -/
def lateActs : List (ℕ × Act) :=
  briefEnds <| briefBegins ++ [(71, .vehicle (.poll 0 70 (.error EAGAIN))), raceTurn 80,
    (97, .vehicle (.cycle ⟨72, 93, 94, 95, 96, 98, 99⟩ false true true)), (100, .vehicle .close)]

/-- The datagrams of one frame. -/
theorem batch_single (d : Datagram) : [d].length ≤ kBatchSize := by
  rw [List.length_singleton, kBatchSize]
  omega

/-- The simulator ends the run and sends its frame; the vehicle takes it in its last cycle, and closes. -/
def timelyActs : List (ℕ × Act) :=
  let told := briefBegins ++ [raceTurn 70]
  briefEnds <| told ++ [(91, .vehicle (.poll 0 90 (.ok ⟨[⟨(brief.sentLast 1 told).1, false⟩], batch_single _⟩))),
    (97, .vehicle (.cycle ⟨92, 93, 94, 95, 96, 98, 99⟩ false true true)), (100, .vehicle .close)]

/-- The clock of the pair does not run back. -/
theorem brief_monotone : Monotone brief.simClock := fun _ _ h => Int.ofNat_le.mpr h

/-- Its ways deliver at once. -/
theorem brief_instant : brief.Instant := fun _ _ _ h => beq_iff_eq.mp h

/-- So they lose nothing. -/
theorem brief_lossless : brief.Lossless := fun room way _ h => brief_instant room way _ h ▸ List.take_prefix room way.waiting

/-- The run in which the vehicle reads before the frame is sent takes what there is to take. -/
theorem late_prompt : ∀ w ∈ (brief.start 1).toOption, brief.Along brief.Prompt w lateActs := by decide +kernel

/-- What it comes to. -/
theorem late_outcome : (brief.after 1 lateActs).map (fun w =>
    w.vehicle.finished && w.vehicle.closed.isSome && w.sim.closed.isSome && decide (w.sim.process.code = some 0) &&
      (terminalAudit (w.vehicleReport brief "m") (w.simReport brief "m")).toOption.any fun audit =>
        audit.path.isSome && audit.up.required == some true && audit.up.residual == .unexplained) = some true := by
  decide +kernel

/-- Not in every run over ways that deliver at once, with one clock, in which nothing raises an exception and both sides
finish, are the legs explained. -/
theorem terminal_unexplained : ¬∀ (s : Setting) (r : s.Run) (domain : String), s.vehicleClock = s.simClock →
    Monotone s.simClock → s.Instant → s.Along s.Prompt r.first r.acts → r.world.vehicle.finished = true →
    r.world.sim.process.code = some 0 → r.world.vehicle.closed.isSome = true → r.world.sim.closed.isSome = true →
    ∀ audit, terminalAudit (r.world.vehicleReport s domain) (r.world.simReport s domain) = .ok audit →
      audit.path.isSome = true → audit.up.residual ≠ .unexplained ∧ audit.down.residual ≠ .unexplained ∧
        .unexplainedTransportLoss ∉ audit.causes := by
  intro hclaim
  obtain ⟨r, hacts, hfirst, hends⟩ := Setting.run_of_after late_outcome
  simp only [Bool.and_eq_true, decide_eq_true_eq] at hends
  obtain ⟨⟨⟨⟨hfinished, hvehicle⟩, hsim⟩, hcode⟩, haudited⟩ := hends
  obtain ⟨audit, haudit, hlegs⟩ := ok_of_any haudited
  simp only [Bool.and_eq_true, beq_iff_eq] at hlegs
  obtain ⟨⟨hordered, -⟩, hresidual⟩ := hlegs
  have hprompt := late_prompt r.first hfirst
  rw [← hacts] at hprompt
  have hnot := (hclaim brief r "m" rfl brief_monotone brief_instant hprompt hfinished hcode hvehicle hsim audit haudit
    hordered).1
  exact hnot hresidual

/-- The other run is in time. -/
theorem timely_along : ∀ w ∈ (brief.start 1).toOption, brief.Along (brief.Timely "m") w timelyActs := by decide +kernel

/-- What it comes to. -/
theorem timely_outcome : (brief.after 1 timelyActs).map (fun w =>
    w.vehicle.finished && w.vehicle.closed.isSome && w.sim.closed.isSome && decide (w.sim.process.code = some 0) &&
      (terminalAudit (w.vehicleReport brief "m") (w.simReport brief "m")).toOption.any fun audit =>
        audit.path.isSome && audit.up.required == some true && audit.down.required == some true) = some true := by
  decide +kernel

/-- The legs of the run in which the vehicle reads the frame are required, and explained. -/
theorem terminal_explained_timely : ∃ r : brief.Run, ∃ audit,
    terminalAudit (r.world.vehicleReport brief "m") (r.world.simReport brief "m") = .ok audit ∧
      audit.up.required = some true ∧ audit.down.required = some true ∧
      audit.up.residual ≠ .unexplained ∧ audit.down.residual ≠ .unexplained ∧
      .unexplainedTransportLoss ∉ audit.causes := by
  obtain ⟨r, hacts, hfirst, hends⟩ := Setting.run_of_after timely_outcome
  simp only [Bool.and_eq_true, decide_eq_true_eq] at hends
  obtain ⟨⟨⟨⟨-, hvehicle⟩, hsim⟩, -⟩, haudited⟩ := hends
  obtain ⟨audit, haudit, hlegs⟩ := ok_of_any haudited
  simp only [Bool.and_eq_true, beq_iff_eq] at hlegs
  obtain ⟨⟨-, hup⟩, hdown⟩ := hlegs
  have htimely := timely_along r.first hfirst
  rw [← hacts] at htimely
  exact ⟨r, audit, haudit, hup, hdown,
    terminal_explained brief r "m" rfl brief_monotone brief_lossless htimely hvehicle hsim audit haudit⟩

end Tvc.Freerun
