import Tvc.Floats

/-!
# The terminal exchange as `scripts/reconcile.py` reads it

What the two sides say of the end of a free run is put in order, by what each says to have heard and by the intervals
that they measured on one clock. An exception is its message.
-/

namespace Tvc.Reconcile

/-- The side that ended first. -/
inductive Order
  | vehicleFirst | simFirst
  deriving DecidableEq, Repr

/-- What a side reports of its end: whether the other side brought it about, and the interval on the clock of a
domain. -/
structure Termination where
  peer : Bool
  clockDomain : String
  terminationNs : ℤ
  terminationBeforeNs : ℤ

/-- The order that the reports claim. -/
def causalOrder (vehicle simulator : Termination) : Option Order :=
  if simulator.peer then some .vehicleFirst else if vehicle.peer then some .simFirst else none

/-- The order that the intervals show. -/
def clockOrder (vehicle simulator : Termination) : Option Order :=
  if vehicle.terminationNs < simulator.terminationBeforeNs then some .vehicleFirst
  else if simulator.terminationNs < vehicle.terminationBeforeNs then some .simFirst
  else none

/-- The clocks of the two sides are one. -/
def sharedClock (vehicle simulator : Termination) : Bool :=
  vehicle.clockDomain != "" && vehicle.clockDomain == simulator.clockDomain

/-- Both sides measured an interval. -/
def measured (vehicle simulator : Termination) : Bool :=
  [vehicle.terminationNs, simulator.terminationNs, vehicle.terminationBeforeNs, simulator.terminationBeforeNs].all
    fun t => decide (0 < t)

/-- `terminal_order`. -/
def terminalOrder (vehicle simulator : Termination) : Except String (Option Order) :=
  if simulator.peer && vehicle.peer then .error "contradictory terminal causality"
  else if sharedClock vehicle simulator && measured vehicle simulator then
    if vehicle.terminationNs < vehicle.terminationBeforeNs || simulator.terminationNs < simulator.terminationBeforeNs then
      .error "invalid termination interval"
    else if (causalOrder vehicle simulator).any fun causal => (clockOrder vehicle simulator).any (causal != ·) then
      .error "terminal causality contradicts shared-clock order"
    else .ok ((causalOrder vehicle simulator).or (clockOrder vehicle simulator))
  else .ok (causalOrder vehicle simulator)

/-- What an order that is returned rests on, when the intervals do not contradict the claims. -/
theorem terminalOrder_ok {vehicle simulator : Termination} (hone : simulator.peer = true → vehicle.peer = false)
    (hvehicle : vehicle.terminationBeforeNs ≤ vehicle.terminationNs)
    (hsimulator : simulator.terminationBeforeNs ≤ simulator.terminationNs)
    (hcausal : measured vehicle simulator = true → sharedClock vehicle simulator = true →
      ∀ causal ∈ causalOrder vehicle simulator, ∀ order ∈ clockOrder vehicle simulator, causal = order) :
    ∃ order, terminalOrder vehicle simulator = .ok order ∧
      ∀ first ∈ order, causalOrder vehicle simulator = some first ∨
        measured vehicle simulator = true ∧ clockOrder vehicle simulator = some first := by
  unfold terminalOrder
  have hsingle : (simulator.peer && vehicle.peer) = false := by
    cases hpeer : simulator.peer with
    | false => rfl
    | true => exact hone hpeer
  rw [if_neg (by rw [hsingle]; exact Bool.false_ne_true)]
  cases hshared : sharedClock vehicle simulator && measured vehicle simulator with
  | false => exact ⟨_, if_neg Bool.false_ne_true, fun first hfirst => .inl hfirst⟩
  | true =>
    obtain ⟨hsame, hmeasured⟩ := Bool.and_eq_true_iff.mp hshared
    rw [if_pos rfl, if_neg (by simp [not_lt.mpr hvehicle, not_lt.mpr hsimulator]), if_neg]
    · refine ⟨_, rfl, fun first hfirst => ?_⟩
      rcases Option.or_eq_some_iff.mp hfirst with hclaimed | ⟨-, hshown⟩
      · exact .inl hclaimed
      · exact .inr ⟨hmeasured, hshown⟩
    · have hagree := hcausal hmeasured hsame
      generalize causalOrder vehicle simulator = causal at hagree ⊢
      generalize clockOrder vehicle simulator = order at hagree ⊢
      cases causal with
      | none => exact Bool.false_ne_true
      | some causal =>
        cases order with
        | none => exact Bool.false_ne_true
        | some order => simp [hagree causal rfl order rfl]

/-- Where the simulator is said to have ended first, the vehicle has heard of it, or has measured its own end. -/
theorem terminalOrder_simFirst {vehicle simulator : Termination}
    (h : terminalOrder vehicle simulator = .ok (some .simFirst)) :
    vehicle.peer = true ∨ 0 < vehicle.terminationNs := by
  have hclaimed (hcausal : causalOrder vehicle simulator = some .simFirst) : vehicle.peer = true := by
    unfold causalOrder at hcausal
    split at hcausal
    · exact absurd hcausal (by decide)
    · split at hcausal
      · assumption
      · exact absurd hcausal (by decide)
  unfold terminalOrder at h
  split at h
  · exact absurd h (by simp)
  split at h
  · rename_i hmeasured
    obtain ⟨-, hmeasured⟩ := Bool.and_eq_true_iff.mp hmeasured
    exact .inr (of_decide_eq_true (List.all_eq_true.mp hmeasured vehicle.terminationNs List.mem_cons_self))
  · exact .inl (hclaimed (Except.ok.inj h))

/-! ## The legs of the exchange -/

/-- What `terminal_residual` makes of the copies that were not received. -/
inductive Residual
  | notEvaluated | zero | trailing | unexplained | unresolved
  deriving DecidableEq, Repr

/-- `terminal_residual`: how many copies were not received, and what they are. The two counts are natural numbers by
their type. -/
def terminalResidual (transmitted received : ℕ) (firstSend lastSend receiveOpen receiveClosed : ℤ)
    (required answered : Bool) : Except String (ℕ × Residual) :=
  if [firstSend, lastSend, receiveOpen, receiveClosed].any fun t => decide (t < 0) then
    .error "invalid nonnegative counter"
  else if transmitted < received then .error "terminal receipts exceed successful sends"
  else if receiveClosed < receiveOpen || lastSend < firstSend then .error "invalid terminal lifetime"
  else
    let residual := transmitted - received
    if !required then .ok (residual, .notEvaluated)
    else if residual == 0 then .ok (residual, .zero)
    else if firstSend == 0 || lastSend == 0 then .error "missing terminal send lifetime"
    else if receiveClosed < firstSend then .ok (residual, .trailing)
    else if receiveOpen ≤ firstSend && lastSend ≤ receiveClosed && !answered then .ok (residual, .unexplained)
    else .ok (residual, .unresolved)

/-- The first and the last terminal send of a side, and the times between which it read its socket. -/
structure Lifetimes where
  sendFirstNs : ℤ
  sendLastNs : ℤ
  receiveOpenNs : ℤ
  receiveClosedNs : ℤ
  deriving DecidableEq, Repr

/-- What the summary says of the terminal exchange. -/
structure VehicleReport where
  termination : Termination
  terminalCopies : ℕ
  downAttempts : ℕ
  downTxFail : ℕ
  downTransmitted : ℕ
  upReceivedRaw : ℕ
  lifetimes : Lifetimes

/-- What the simulator's report says of the terminal exchange. -/
structure SimReport where
  termination : Termination
  upAttempts : ℕ
  upIntentionallyLost : ℕ
  upTxFail : ℕ
  upTransmitted : ℕ
  downReceivedRaw : ℕ
  downIntentionallyLost : ℕ
  downSurvived : ℕ
  lifetimes : Lifetimes

/-- One way of the exchange. -/
structure Leg where
  attempts : ℕ
  intentionallyLost : ℕ
  txFail : ℕ
  transmitted : ℕ
  receivedRaw : ℕ
  survived : Option ℕ
  required : Option Bool
  complete : Bool
  opportunities : ℕ
  budget : ℕ
  unobserved : ℕ
  residual : Residual
  deriving DecidableEq, Repr

/-- `path`. -/
inductive Path
  | vehicleFirst | simFirstUpDelivered | simFirstUpNotDelivered
  deriving DecidableEq, Repr

/-- The path that an order takes. -/
def pathOf (upReceivedRaw : ℕ) : Order → Path
  | .vehicleFirst => .vehicleFirst
  | .simFirst => if upReceivedRaw != 0 then .simFirstUpDelivered else .simFirstUpNotDelivered

/-- `require_down`. -/
def Path.requiresDown (path : Path) : Bool := path == .vehicleFirst || path == .simFirstUpDelivered

/-- `residual`, which leaves the times out where the clocks are not one. -/
def legResidual (shared : Bool) (transmitted received : ℕ) (send receive : Lifetimes) (required : Option Bool)
    (answered : Bool) : Except String (ℕ × Residual) :=
  let required := required.getD false
  if shared then
    terminalResidual transmitted received send.sendFirstNs send.sendLastNs receive.receiveOpenNs receive.receiveClosedNs
      required answered
  else if transmitted < received then .error "terminal receipts exceed sends"
  else
    .ok (transmitted - received,
      if !required then .notEvaluated else if transmitted == received then .zero else .unresolved)

/-- What `reconcile_freerun` gives for why a required leg is not complete. -/
inductive Cause
  | sendFailure | opportunityShortfall | unexplainedTransportLoss | impairmentModel
  deriving DecidableEq, Repr

/-- `terminal_causes`. -/
def terminalCauses (legs : List Leg) : List Cause :=
  let required := legs.filter fun leg => leg.required.getD false
  let failed := required.filter fun leg => !leg.complete
  if failed.isEmpty then []
  else
    let causes :=
      (if failed.any fun leg => leg.txFail != 0 then [.sendFailure] else []) ++
        (if failed.any fun leg => leg.opportunities < leg.budget then [.opportunityShortfall] else []) ++
        (if failed.any fun leg => leg.residual == .unexplained then [.unexplainedTransportLoss] else [])
    if causes.isEmpty && failed.all fun leg =>
        leg.budget ≤ leg.opportunities && leg.txFail == 0 && leg.intentionallyLost == leg.opportunities then
      [.impairmentModel]
    else causes

/-- `terminal` of the result. -/
structure TerminalAudit where
  path : Option Path
  requiredLegsComplete : Option Bool
  causes : List Cause
  up : Leg
  down : Leg
  deriving DecidableEq, Repr

/-- The uplink's leg, but for its residual. -/
def upLeg (vehicle : VehicleReport) (sim : SimReport) (required : Option Bool) (residual : ℕ × Residual) : Leg where
  attempts := sim.upAttempts
  intentionallyLost := sim.upIntentionallyLost
  txFail := sim.upTxFail
  transmitted := sim.upTransmitted
  receivedRaw := vehicle.upReceivedRaw
  survived := none
  required
  complete := decide (0 < vehicle.upReceivedRaw)
  opportunities := sim.upAttempts
  budget := vehicle.terminalCopies
  unobserved := residual.1
  residual := residual.2

/-- The downlink's leg, but for its residual. -/
def downLeg (vehicle : VehicleReport) (sim : SimReport) (required : Option Bool) (residual : ℕ × Residual) : Leg where
  attempts := vehicle.downAttempts
  intentionallyLost := sim.downIntentionallyLost
  txFail := vehicle.downTxFail
  transmitted := vehicle.downTransmitted
  receivedRaw := sim.downReceivedRaw
  survived := some sim.downSurvived
  required
  complete := decide (0 < sim.downSurvived)
  opportunities := sim.downReceivedRaw
  budget := min vehicle.terminalCopies 14
  unobserved := residual.1
  residual := residual.2

/-- The terminal block of `reconcile_freerun`. -/
def terminalAudit (vehicle : VehicleReport) (sim : SimReport) : Except String TerminalAudit := do
  let order ← terminalOrder vehicle.termination sim.termination
  let path := order.map (pathOf vehicle.upReceivedRaw)
  let requireUp := order.map fun order => order == .simFirst
  let requireDown := path.map Path.requiresDown
  let shared := sharedClock vehicle.termination sim.termination
  let upResidual ← legResidual shared sim.upTransmitted vehicle.upReceivedRaw sim.lifetimes vehicle.lifetimes requireUp
    (decide (0 < vehicle.upReceivedRaw))
  let up := upLeg vehicle sim requireUp upResidual
  let downResidual ← legResidual shared vehicle.downTransmitted sim.downReceivedRaw vehicle.lifetimes sim.lifetimes
    requireDown (decide (0 < sim.downSurvived))
  let down := downLeg vehicle sim requireDown downResidual
  return {
    path
    requiredLegsComplete := order.map fun _ => ([up, down].filter fun leg => leg.required.getD false).all Leg.complete
    causes := if order.isSome then terminalCauses [up, down] else []
    up
    down }

/-- When a leg is called unexplained: it is required, some of its copies were not received, none survived, and the
receiver closed no earlier than the last of them was sent. -/
theorem legResidual_unexplained {shared : Bool} {transmitted received unobserved : ℕ} {send receive : Lifetimes}
    {required : Option Bool} {answered : Bool}
    (h : legResidual shared transmitted received send receive required answered = .ok (unobserved, .unexplained)) :
    required = some true ∧ received < transmitted ∧ answered = false ∧ send.sendLastNs ≤ receive.receiveClosedNs := by
  unfold legResidual at h
  dsimp only at h
  split at h
  · unfold terminalResidual at h
    dsimp only at h
    split at h
    · nomatch h
    split at h
    · nomatch h
    split at h
    · nomatch h
    split at h
    · nomatch h
    rename_i hrequired
    split at h
    · nomatch h
    rename_i hresidual
    split at h
    · nomatch h
    split at h
    · nomatch h
    split at h
    · rename_i hwithin
      simp only [Bool.and_eq_true, decide_eq_true_eq, Bool.not_eq_true', beq_iff_eq,
        Bool.not_eq_false, Nat.sub_eq_zero_iff_le, not_le] at hrequired hresidual hwithin
      refine ⟨?_, hresidual, hwithin.2, hwithin.1.2⟩
      rcases required with - | required
      · simp at hrequired
      · exact congrArg some hrequired
    · nomatch h
  · split at h
    · nomatch h
    · have hnever := (Prod.mk.inj (Except.ok.inj h)).2
      cases hrequired : required.getD false with
      | false => simp [hrequired] at hnever
      | true =>
        rw [hrequired, Bool.not_true, if_neg Bool.false_ne_true] at hnever
        split at hnever <;> nomatch hnever

/-- A cause that is given as a loss on the way is that of an unexplained leg. -/
theorem terminalCauses_unexplained {legs : List Leg} (h : .unexplainedTransportLoss ∈ terminalCauses legs) :
    ∃ leg ∈ legs, leg.residual = .unexplained := by
  unfold terminalCauses at h
  dsimp only at h
  generalize hfailed : (legs.filter fun leg => leg.required.getD false).filter (fun leg => !leg.complete) = failed at h
  have hmember : ∀ leg ∈ failed, leg ∈ legs := fun leg hleg =>
    List.mem_of_mem_filter (List.mem_of_mem_filter (hfailed ▸ hleg))
  cases hany : failed.any fun leg => leg.residual == .unexplained with
  | true =>
    obtain ⟨leg, hleg, hresidual⟩ := List.any_eq_true.mp hany
    exact ⟨leg, hmember leg hleg, beq_iff_eq.mp hresidual⟩
  | false =>
    rw [hany, if_neg Bool.false_ne_true, List.append_nil] at h
    generalize failed.any (fun leg => leg.txFail != 0) = fails at h
    generalize failed.any (fun leg => decide (leg.opportunities < leg.budget)) = short at h
    generalize failed.isEmpty = empty at h
    generalize failed.all _ = impaired at h
    exact absurd h (by revert fails short empty impaired; decide)

/-- A chain that returns has returned at its first step. -/
theorem of_bind {α β : Type} {x : Except String α} {f : α → Except String β} {b : β} (h : x.bind f = .ok b) :
    ∃ a, x = .ok a ∧ f a = .ok b := by
  cases x with
  | error message => nomatch h
  | ok a => exact ⟨a, rfl, h⟩

/-- What a terminal block that is returned was put together from. -/
theorem terminalAudit_ok {vehicle : VehicleReport} {sim : SimReport} {audit : TerminalAudit}
    (h : terminalAudit vehicle sim = .ok audit) :
    ∃ order upResidual downResidual,
      terminalOrder vehicle.termination sim.termination = .ok order ∧
      legResidual (sharedClock vehicle.termination sim.termination) sim.upTransmitted vehicle.upReceivedRaw
        sim.lifetimes vehicle.lifetimes (order.map fun order => order == .simFirst)
        (decide (0 < vehicle.upReceivedRaw)) = .ok upResidual ∧
      legResidual (sharedClock vehicle.termination sim.termination) vehicle.downTransmitted sim.downReceivedRaw
        vehicle.lifetimes sim.lifetimes ((order.map (pathOf vehicle.upReceivedRaw)).map Path.requiresDown)
        (decide (0 < sim.downSurvived)) = .ok downResidual ∧
      audit.up.residual = upResidual.2 ∧ audit.down.residual = downResidual.2 ∧
      (.unexplainedTransportLoss ∈ audit.causes → ∃ leg ∈ [audit.up, audit.down], leg.residual = .unexplained) := by
  unfold terminalAudit at h
  obtain ⟨order, horder, h⟩ := of_bind h
  obtain ⟨upResidual, hup, h⟩ := of_bind h
  obtain ⟨downResidual, hdown, h⟩ := of_bind h
  obtain rfl := Except.ok.inj h
  refine ⟨order, upResidual, downResidual, horder, hup, hdown, rfl, rfl, fun hcause => ?_⟩
  dsimp only at hcause
  split at hcause
  · exact terminalCauses_unexplained hcause
  · exact absurd hcause List.not_mem_nil

/-- The uplink is unexplained where the simulator ended first, and the vehicle has received nothing though it closed no
earlier than the last copy was sent. -/
theorem terminalAudit_up {vehicle : VehicleReport} {sim : SimReport} {audit : TerminalAudit}
    (h : terminalAudit vehicle sim = .ok audit) (hresidual : audit.up.residual = .unexplained) :
    terminalOrder vehicle.termination sim.termination = .ok (some .simFirst) ∧ vehicle.upReceivedRaw = 0 ∧
      0 < sim.upTransmitted ∧ sim.lifetimes.sendLastNs ≤ vehicle.lifetimes.receiveClosedNs := by
  obtain ⟨order, upResidual, -, horder, hup, -, hsame, -⟩ := terminalAudit_ok h
  obtain ⟨unobserved, residual⟩ := upResidual
  obtain rfl : residual = .unexplained := hsame.symm.trans hresidual
  obtain ⟨hrequired, hmissing, hnone, hclosed⟩ := legResidual_unexplained hup
  obtain ⟨first, rfl, hfirst⟩ := Option.map_eq_some_iff.mp hrequired
  obtain rfl := beq_iff_eq.mp hfirst
  have hnone : vehicle.upReceivedRaw = 0 := Nat.eq_zero_of_not_pos (of_decide_eq_false hnone)
  exact ⟨horder, hnone, hnone ▸ hmissing, hclosed⟩

/-- The downlink is unexplained where it is required, no copy survived and some were not received, though the simulator
closed no earlier than the last of them was sent. -/
theorem terminalAudit_down {vehicle : VehicleReport} {sim : SimReport} {audit : TerminalAudit}
    (h : terminalAudit vehicle sim = .ok audit) (hresidual : audit.down.residual = .unexplained) :
    (terminalOrder vehicle.termination sim.termination = .ok (some .vehicleFirst) ∨
        terminalOrder vehicle.termination sim.termination = .ok (some .simFirst) ∧ 0 < vehicle.upReceivedRaw) ∧
      sim.downReceivedRaw < vehicle.downTransmitted ∧ sim.downSurvived = 0 ∧
      vehicle.lifetimes.sendLastNs ≤ sim.lifetimes.receiveClosedNs := by
  obtain ⟨order, -, downResidual, horder, -, hdown, -, hsame, -⟩ := terminalAudit_ok h
  obtain ⟨unobserved, residual⟩ := downResidual
  obtain rfl : residual = .unexplained := hsame.symm.trans hresidual
  obtain ⟨hrequired, hmissing, hnone, hclosed⟩ := legResidual_unexplained hdown
  refine ⟨?_, hmissing, Nat.eq_zero_of_not_pos (of_decide_eq_false hnone), hclosed⟩
  obtain ⟨path, hpath, hrequires⟩ := Option.map_eq_some_iff.mp hrequired
  obtain ⟨first, rfl, rfl⟩ := Option.map_eq_some_iff.mp hpath
  cases first with
  | vehicleFirst => exact .inl horder
  | simFirst =>
    refine .inr ⟨horder, Nat.pos_of_ne_zero fun hzero => ?_⟩
    rw [hzero] at hrequires
    nomatch hrequires

/-- The pairs of the simulator's and the vehicle's reasons that `reconcile_freerun` expects. -/
def expectedPairs : List (ℕ × ℕ) :=
  [(1, 1), (1, 7), (1, 4), (2, 2), (3, 2), (2, 4), (3, 4), (4, 1), (4, 7), (4, 2), (4, 3), (4, 4)]

end Tvc.Reconcile
