import Tvc.Admission.Provenance
import Tvc.Freerun.SimEnd

/-!
# The reason of the simulator

A simulator that runs on without an exception has a plant in control until the plant step that ends the run; the reason
of the end is that of the plant or of the horizon, or the vehicle's. So the frames it sends before the end show a
plant in control, and the one that tells of the end tells one of three reasons.
-/

namespace Tvc.Freerun

variable [Arith F64]

/-- The plant is in control. -/
def Controlled (truth : TruthState F64) : Prop := Plant.lossOfControl truth = none

/-- The tilt of a plant in control. -/
theorem Controlled.tilt {truth : TruthState F64} (h : Controlled truth) :
    Arith.lt 0.30 (Arith.abs truth.theta) = false := by
  unfold Controlled Plant.lossOfControl at h
  split at h
  · nomatch h
  · split at h
    · nomatch h
    · exact Bool.eq_false_iff.mpr ‹_›

/-- A finite plant within the limit is in control. -/
theorem controlled_of_tilt {truth : TruthState F64}
    (hfinite : Classify.isFinite truth.theta = true ∧ Classify.isFinite truth.omega = true)
    (htilt : Arith.lt 0.30 (Arith.abs truth.theta) = false) : Controlled truth := by
  unfold Controlled Plant.lossOfControl
  rw [if_neg (by simp [hfinite]), if_neg (by rw [htilt]; exact Bool.false_ne_true)]

namespace Model

variable {spec : Scenario F64} {truth : TruthState F64} {k : ℕ} {reason : SimReason}

/-- The reasons that a plant step can give. -/
theorem reasonAfter_cases (h : reasonAfter spec truth k = some reason) :
    Controlled truth ∧ reason = .horizon ∨
      Plant.lossOfControl truth = some reason ∧ (reason = .locAngle ∨ reason = .locNonfinite) := by
  rcases Option.or_eq_some_iff.mp h with hlost | ⟨hnone, hlast⟩
  · refine .inr ⟨hlost, ?_⟩
    unfold Plant.lossOfControl at hlost
    split at hlost
    · exact .inr (Option.some.inj hlost).symm
    · split at hlost
      · exact .inl (Option.some.inj hlost).symm
      · nomatch hlost
  · split at hlast
    · exact .inl ⟨hnone, (Option.some.inj hlast).symm⟩
    · nomatch hlast

/-- A plant step that does not end the run leaves the plant in control. -/
theorem controlled_of_reasonAfter (h : reasonAfter spec truth k = none) : Controlled truth :=
  (Option.or_eq_none_iff.mp h).1

end Model

namespace Process

variable {spec : Scenario F64} {p q : Process} {e : SimEvent} {handed : Option Bytes} {copies : ℕ}

/-- A body after which the process runs on has drained. -/
theorem drained_of_body {k : ℕ} (hphase : p.phase = .body k) (h : p.turn spec copies e = (q, handed))
    (hgoes : q.GoesOn) : ∃ packets, e.drained = .ok packets := by
  cases hdrained : e.drained with
  | ok packets => exact ⟨packets, rfl⟩
  | error failure =>
    unfold turn at h
    rw [hphase] at h
    unfold body at h
    rw [hdrained] at h
    dsimp only at h
    cases hslept : e.slept with
    | error failure' =>
      rw [hslept] at h
      split at h <;> obtain ⟨rfl, -⟩ := Prod.mk.inj h
      · exact absurd hgoes (not_goesOn_fail p _)
      · exact absurd rfl (hgoes 0)
    | ok _ =>
      rw [hslept] at h
      split at h <;> obtain ⟨rfl, -⟩ := Prod.mk.inj h
      · exact absurd hgoes (not_goesOn_fail p _)
      · exact absurd rfl (hgoes 0)

/-- A turn of the grace period after which the process runs on. -/
theorem turn_grace {tick offset : ℕ} (hphase : p.phase = .grace tick offset) (hreasoned : p.model.reason.isSome = true)
    (h : p.turn spec copies e = (q, handed)) (hgoes : q.GoesOn) :
    q.model.truth = p.model.truth ∧ q.model.reason = p.model.reason ∧ q.phase = .grace tick (offset + 1) := by
  obtain ⟨reason, hreasoned⟩ := Option.isSome_iff_exists.mp hreasoned
  unfold turn at h
  rw [hphase] at h
  dsimp only at h
  split at h
  · unfold grace at h
    split at h
    · obtain ⟨rfl, -⟩ := Prod.mk.inj h
      exact absurd hgoes (not_goesOn_fail p _)
    · obtain ⟨rfl, -⟩ := Prod.mk.inj h
      exact absurd hgoes (not_goesOn_fail p _)
    · rename_i packets _ _
      dsimp only at h
      generalize hreceived : Model.receive spec (p.noteDrain packets e).model packets tick = received at h
      obtain ⟨model, outcome⟩ := received
      obtain ⟨⟨_, _, _, hbare⟩, -, hreason⟩ := Model.receive_course hreceived
      have htruth : model.truth = p.model.truth := (Model.fields_of_bare hbare).1
      have hkept : model.reason = p.model.reason := by
        rw [hreason, show (p.noteDrain packets e).model.reason = some reason from hreasoned, hreasoned]
        split <;> rfl
      cases outcome with
      | error failure =>
        obtain ⟨rfl, -⟩ := Prod.mk.inj h
        exact absurd hgoes (not_goesOn_fail _ failure)
      | ok selected =>
      dsimp only at h
      split at h
      · obtain ⟨rfl, -⟩ := Prod.mk.inj h
        exact absurd rfl (hgoes 0)
      split at h
      · generalize hoffer : Process.offer spec _ (tick + 1) true false e = offered at h
        obtain ⟨sent, outcome⟩ := offered
        cases outcome with
        | error failure =>
          obtain ⟨rfl, -⟩ := Prod.mk.inj h
          exact absurd hgoes (not_goesOn_fail sent failure)
        | ok frame =>
          obtain ⟨rfl, -⟩ := Prod.mk.inj h
          obtain ⟨hsame, -, -, -, -, hsame', -⟩ := Model.fields_of_bare (offer_ok hoffer).1
          exact ⟨hsame.trans htruth, hsame'.trans hkept, rfl⟩
      · obtain ⟨rfl, -⟩ := Prod.mk.inj h
        exact ⟨htruth, hkept, rfl⟩
  · obtain ⟨rfl, -⟩ := Prod.mk.inj h
    exact absurd rfl (hgoes 3)

omit [Arith F64] in
/-- An exception does not end the process with success. -/
theorem fail_ne_zero (p : Process) (failure : Failure) : (p.fail failure).phase ≠ .finished 0 := by
  rw [fail_phase]
  cases failure <;> simp [Failure.code]

/-- A turn that ends the process with success leaves the plant; if the vehicle's reason was seen, it is the reason of
the end, unless the process has its own. -/
theorem turn_finished (hstanding : p.Standing) (hgoes : p.GoesOn) (h : p.turn spec copies e = (q, handed))
    (hdone : q.phase = .finished 0) :
    q.model.truth = p.model.truth ∧ (q.model.vehicleSeen.isSome = true →
      (∃ k, p.phase = .body k) ∧ q.model.reason = some .vehicleTerminal ∧ q.terminationSource = some .vehicle ∨
        (∃ tick offset, p.phase = .grace tick offset) ∧ q.model.reason = p.model.reason ∧
          q.terminationSource = p.terminationSource) := by
  unfold turn at h
  split at h
  · unfold prologue at h
    split at h
    · obtain ⟨rfl, -⟩ := Prod.mk.inj h
      exact absurd hdone (fail_ne_zero _ _)
    · obtain ⟨rfl, -⟩ := Prod.mk.inj h
      nomatch hdone
  · rename_i k hphase
    have hopen := hstanding.body k hphase
    have hunseen : p.model.vehicleSeen = none := congrArg Ending.seen hopen
    have hliving : p.model.reason = none := congrArg Ending.reason hopen
    split at h
    · unfold body at h
      split at h
      · obtain ⟨rfl, -⟩ := Prod.mk.inj h
        exact absurd hdone (fail_ne_zero _ _)
      · obtain ⟨rfl, -⟩ := Prod.mk.inj h
        exact absurd hdone (fail_ne_zero _ _)
      · rename_i packets _ _
        dsimp only at h
        generalize hreceived : Model.receive spec (p.noteDrain packets e).model packets k = received at h
        obtain ⟨model, outcome⟩ := received
        obtain ⟨⟨_, _, _, hbare⟩, -, hreason⟩ := Model.receive_course hreceived
        have htruth : model.truth = p.model.truth := (Model.fields_of_bare hbare).1
        cases outcome with
        | error failure =>
          obtain ⟨rfl, -⟩ := Prod.mk.inj h
          exact absurd hdone (fail_ne_zero _ _)
        | ok selected =>
        dsimp only at h
        split at h
        · rename_i hsome
          obtain ⟨rfl, -⟩ := Prod.mk.inj h
          have hheard : model.reason = some .vehicleTerminal := by
            rw [hreason, hsome, show (p.noteDrain packets e).model.reason = none from hliving]
            rfl
          refine ⟨htruth, fun _ => .inl ⟨⟨k, hphase⟩, ?_, rfl⟩⟩
          show model.reason.or _ = _
          rw [hheard]
          rfl
        · unfold advance at h
          split at h
          · obtain ⟨rfl, -⟩ := Prod.mk.inj h
            exact absurd hdone (fail_ne_zero _ _)
          · dsimp only at h
            split at h
            · obtain ⟨rfl, -⟩ := Prod.mk.inj h
              exact absurd hdone (fail_ne_zero _ _)
            · obtain ⟨rfl, -⟩ := Prod.mk.inj h
              dsimp only at hdone
              split at hdone <;> nomatch hdone
    · obtain ⟨rfl, -⟩ := Prod.mk.inj h
      refine ⟨rfl, fun hseen => ?_⟩
      have hseen : p.model.vehicleSeen.isSome = true := hseen
      rw [hunseen] at hseen
      nomatch hseen
  · rename_i tick offset hphase
    obtain ⟨hreasoned, -, -, -⟩ := hstanding.grace tick offset hphase
    obtain ⟨reason, hreasoned⟩ := Option.isSome_iff_exists.mp hreasoned
    split at h
    · unfold grace at h
      split at h
      · obtain ⟨rfl, -⟩ := Prod.mk.inj h
        exact absurd hdone (fail_ne_zero _ _)
      · obtain ⟨rfl, -⟩ := Prod.mk.inj h
        exact absurd hdone (fail_ne_zero _ _)
      · rename_i packets _ _
        dsimp only at h
        generalize hreceived : Model.receive spec (p.noteDrain packets e).model packets tick = received at h
        obtain ⟨model, outcome⟩ := received
        obtain ⟨⟨_, _, _, hbare⟩, -, hreason⟩ := Model.receive_course hreceived
        have htruth : model.truth = p.model.truth := (Model.fields_of_bare hbare).1
        have hkept : model.reason = some reason := by
          rw [hreason, show (p.noteDrain packets e).model.reason = some reason from hreasoned]
          split <;> rfl
        cases outcome with
        | error failure =>
          obtain ⟨rfl, -⟩ := Prod.mk.inj h
          exact absurd hdone (fail_ne_zero _ _)
        | ok selected =>
        dsimp only at h
        split at h
        · obtain ⟨rfl, -⟩ := Prod.mk.inj h
          refine ⟨htruth, fun _ => .inr ⟨⟨tick, offset, hphase⟩, ?_, rfl⟩⟩
          show model.reason.or _ = _
          rw [hkept, hreasoned]
          rfl
        split at h
        · split at h
          · obtain ⟨rfl, -⟩ := Prod.mk.inj h
            exact absurd hdone (fail_ne_zero _ _)
          · obtain ⟨rfl, -⟩ := Prod.mk.inj h
            nomatch hdone
        · obtain ⟨rfl, -⟩ := Prod.mk.inj h
          nomatch hdone
    · obtain ⟨rfl, -⟩ := Prod.mk.inj h
      nomatch hdone
  · rename_i code hphase
    exact absurd hphase (hgoes code)

/-- What a process knows of the plant by where it stands; of one that an exception has ended, nothing. -/
structure Flies (spec : Scenario F64) (p : Process) : Prop where
  prologue : p.phase = .prologue → p.model.truth = spec.initial
  body : ∀ k, p.phase = .body k → Controlled p.model.truth
  grace : ∀ tick offset, p.phase = .grace tick offset →
    p.model.reason = Model.reasonAfter spec p.model.truth tick
  done : p.phase = .finished 0 → p.model.vehicleSeen.isSome = true →
    Controlled p.model.truth ∧ p.model.reason = some .vehicleTerminal ∧ p.terminationSource = some .vehicle ∨
      p.terminationSource = some .simulator ∧
        ∃ k reason, p.model.reason = some reason ∧ Model.reasonAfter spec p.model.truth k = some reason

/-- The phases are told apart. -/
theorem flies_of_phase {phase : SimPhase} (hphase : p.phase = phase)
    (hprologue : phase = .prologue → p.model.truth = spec.initial)
    (hbody : ∀ k, phase = .body k → Controlled p.model.truth)
    (hgrace : ∀ tick offset, phase = .grace tick offset → p.model.reason = Model.reasonAfter spec p.model.truth tick)
    (hdone : phase = .finished 0 → p.model.vehicleSeen.isSome = true →
      Controlled p.model.truth ∧ p.model.reason = some .vehicleTerminal ∧ p.terminationSource = some .vehicle ∨
        p.terminationSource = some .simulator ∧
          ∃ k reason, p.model.reason = some reason ∧ Model.reasonAfter spec p.model.truth k = some reason) :
    p.Flies spec :=
  ⟨fun h => hprologue (hphase.symm.trans h), fun k h => hbody k (hphase.symm.trans h),
    fun tick offset h => hgrace tick offset (hphase.symm.trans h), fun h => hdone (hphase.symm.trans h)⟩

/-- A turn. -/
theorem Flies.turn (hinitial : Controlled spec.initial) (hflies : p.Flies spec) (hstanding : p.Standing)
    (hgoes : p.GoesOn) (h : p.turn spec copies e = (q, handed)) : q.Flies spec := by
  by_cases hlater : q.GoesOn
  · cases hphase : p.phase with
    | prologue =>
      obtain ⟨hfirst, hbare, -⟩ := turn_prologue hphase h hlater
      refine flies_of_phase hfirst nofun (fun k _ => ?_) nofun nofun
      rw [show q.model.truth = p.model.truth from (Model.fields_of_bare hbare).1, hflies.prologue hphase]
      exact hinitial
    | body k =>
      obtain ⟨packets, hdrained⟩ := drained_of_body hphase h hlater
      obtain ⟨model, advanced, selected, arriving, hbodied⟩ := turn_body hphase hdrained h hlater
      obtain ⟨htruth, -, -, -, -, hreason, -⟩ := Model.fields_of_bare hbodied.course
      have hafter : advanced.reason = Model.reasonAfter spec advanced.truth k := by
        obtain ⟨-, -, hbare⟩ := Model.advance_ok hbodied.moved
        obtain ⟨hmoved, -, -, -, -, hended, -⟩ := Model.fields_of_bare hbare
        rw [show advanced.truth = _ from hmoved]
        exact hended
      have htruth : q.model.truth = advanced.truth := htruth
      refine flies_of_phase hbodied.phase ?_ (fun k' hbody => ?_) (fun tick offset hgrace => ?_) ?_
      · split <;> nofun
      · split at hbody
        · nomatch hbody
        · rename_i hnone
          rw [htruth]
          have hcalm : Model.reasonAfter spec advanced.truth k = none := by
            rw [← hafter]
            simpa using hnone
          exact Model.controlled_of_reasonAfter hcalm
      · split at hgrace
        · obtain ⟨rfl, -⟩ := SimPhase.grace.inj hgrace
          rw [htruth, ← hafter]
          exact hreason
        · nomatch hgrace
      · split <;> nofun
    | grace tick offset =>
      obtain ⟨htruth, hreason, hnext⟩ := turn_grace hphase (hstanding.grace tick offset hphase).1 h hlater
      refine flies_of_phase hnext nofun nofun (fun tick' offset' hgrace => ?_) nofun
      obtain ⟨rfl, -⟩ := SimPhase.grace.inj hgrace
      rw [hreason, htruth]
      exact hflies.grace tick offset hphase
    | finished code => exact absurd hphase (hgoes code)
  · unfold GoesOn at hlater
    push Not at hlater
    obtain ⟨code, hcode⟩ := hlater
    refine flies_of_phase hcode nofun nofun nofun fun hzero hseen => ?_
    obtain rfl := SimPhase.finished.inj hzero
    obtain ⟨htruth, hends⟩ := turn_finished hstanding hgoes h hcode
    rw [htruth]
    rcases hends hseen with ⟨⟨k, hphase⟩, hreason, hsource⟩ | ⟨⟨tick, offset, hphase⟩, hreason, hsource⟩
    · exact .inl ⟨hflies.body k hphase, hreason, hsource⟩
    · obtain ⟨hsome, -, hended, -⟩ := hstanding.grace tick offset hphase
      obtain ⟨reason, hsome⟩ := Option.isSome_iff_exists.mp hsome
      refine .inr ⟨hsource.trans hended, tick, reason, hreason.trans hsome, ?_⟩
      rw [← hflies.grace tick offset hphase]
      exact hsome

/-- A turn moves no plant that is out of control, unless the process fails. -/
theorem Flies.turn_wild (hinitial : Controlled spec.initial) (hflies : p.Flies spec) (hstanding : p.Standing)
    (hgoes : p.GoesOn) (hwild : ¬Controlled p.model.truth) (h : p.turn spec copies e = (q, handed)) :
    q.model.truth = p.model.truth ∨ ∃ code, q.phase = .finished code ∧ code ≠ 0 := by
  by_cases hlater : q.GoesOn
  · cases hphase : p.phase with
    | prologue => exact absurd (hflies.prologue hphase ▸ hinitial) hwild
    | body k => exact absurd (hflies.body k hphase) hwild
    | grace tick offset => exact .inl (turn_grace hphase (hstanding.grace tick offset hphase).1 h hlater).1
    | finished code => exact absurd hphase (hgoes code)
  · unfold GoesOn at hlater
    push Not at hlater
    obtain ⟨code, hcode⟩ := hlater
    by_cases hzero : code = 0
    · exact .inl (turn_finished hstanding hgoes h (hzero ▸ hcode)).1
    · exact .inr ⟨code, hcode, hzero⟩

omit [Arith F64] in
/-- A process without an exit code goes on. -/
theorem goesOn_of_code (h : p.code = none) : p.GoesOn := by
  intro code hphase
  unfold Process.code at h
  rw [hphase] at h
  nomatch h

/-- An exception ends a process of which nothing is known. -/
theorem flies_fail (p : Process) (failure : Failure) : (p.fail failure).Flies spec := by
  have hphase := p.fail_phase failure
  have hne := p.fail_ne_zero failure
  exact flies_of_phase rfl (fun h => absurd (hphase.symm.trans h) nofun) (fun k h => absurd (hphase.symm.trans h) nofun)
    (fun tick offset h => absurd (hphase.symm.trans h) nofun) (fun h => absurd h hne)

end Process

/-- A sensor frame shows a plant within the limit, or tells one of the simulator's own reasons. -/
def Honest (f : Frame) : Prop :=
  (f.terminal = false → Arith.lt 0.30 (Arith.abs f.fields.theta) = false) ∧
    (f.terminal = true → f.fields.simReason = 1 ∨ f.fields.simReason = 2 ∨ f.fields.simReason = 3)

/-- The frame of a plant within the limit. -/
theorem honest_ordinary {tick : ℕ} {truth : TruthState F64} {reason : Option SimReason} {sentNs : ℤ} {frame : Bytes}
    (h : Process.frameOf tick (observe tick truth) false reason sentNs = .ok frame)
    (htilt : Arith.lt 0.30 (Arith.abs truth.theta) = false) : Admission.Bears Honest ⟨frame, false⟩ := by
  intro f hf
  have hordinary := ordinary_frameOf (o := observe tick truth) h f hf
  obtain ⟨-, -, hframe⟩ := Process.frameOf_fields (o := observe tick truth) h
  obtain rfl := Except.ok.inj (hframe.symm.trans hf)
  exact ⟨fun _ => htilt, fun hterminal => absurd (hordinary.symm.trans hterminal) Bool.false_ne_true⟩

/-- The frame that tells of an end that a plant step brought. -/
theorem honest_terminal {spec : Scenario F64} {tick k : ℕ} {truth truth' : TruthState F64} {reason : SimReason}
    {sentNs : ℤ} {frame : Bytes} (h : Process.frameOf tick (observe tick truth) true (some reason) sentNs = .ok frame)
    (hreason : Model.reasonAfter spec truth' k = some reason) : Admission.Bears Honest ⟨frame, false⟩ := by
  intro f hf
  obtain ⟨g, hg, hterminal, htells⟩ := announces_frameOf (o := observe tick truth) h
  obtain rfl := Except.ok.inj (hg.symm.trans hf)
  refine ⟨fun hordinary => absurd (hordinary.symm.trans hterminal) Bool.false_ne_true, fun _ => ?_⟩
  rw [htells]
  rcases Model.reasonAfter_cases hreason with ⟨-, rfl⟩ | ⟨-, rfl | rfl⟩
  · exact .inl rfl
  · exact .inr (.inl rfl)
  · exact .inr (.inr rfl)

namespace SimSide

variable {spec : Scenario F64} {copies moment : ℕ} {clock : ℕ → ℤ} {d : SimSide}

/-- What a simulator keeps whose plant is within the limit at first. -/
structure Candid (spec : Scenario F64) (d : SimSide) : Prop where
  flies : d.process.Flies spec
  cached : ∀ data, d.process.cachedTerminal = some data → Admission.Bears Honest ⟨data, false⟩

/-- An act of the simulator: it hands honest frames to the air. -/
theorem Candid.act {a : SimAct} {out : Outcome SimSide} (hinitial : Controlled spec.initial) (h : Candid spec d)
    (hkept : Kept clock d) (hact : d.act spec copies clock moment a = some out) :
    Candid spec out.side ∧ ∀ data ∈ out.handed, Admission.Bears Honest ⟨data, false⟩ := by
  cases acted hact with
  | drained => exact ⟨⟨h.flies, h.cached⟩, nofun⟩
  | closed => exact ⟨⟨h.flies, h.cached⟩, nofun⟩
  | @faulted failure packets hlater hidle hdrains hroom =>
    obtain ⟨reason, -, hending⟩ := d.process.fail_ending failure
    refine ⟨⟨d.process.flies_fail failure, fun data hdata => h.cached data ?_⟩, nofun⟩
    exact (congrArg Ending.cached hending).symm.trans hdata
  | @turned moments sendOk q handed horder hdrained hcode hturn =>
    have hgoes := Process.goesOn_of_code hcode
    have hflies := h.flies.turn hinitial hkept.standing hgoes hturn
    obtain ⟨hturned, -⟩ := Process.turn_ending hturn hkept.standing
    suffices hhonest : (∀ data ∈ handed, Admission.Bears Honest ⟨data, false⟩) ∧
        ∀ data, q.cachedTerminal = some data → Admission.Bears Honest ⟨data, false⟩ by
      refine ⟨⟨hflies, hhonest.2⟩, fun data hdata => hhonest.1 data ?_⟩
      cases sendOk with
      | false => nomatch hdata
      | true => exact hdata
    have hcached : q.ending.cached = q.cachedTerminal := rfl
    rw [← hcached]
    generalize q.ending = ending at hturned
    cases hturned with
    | quiet => exact ⟨nofun, h.cached⟩
    | @ordinary tick truth handed hopen hfirst hlater hframe =>
      refine ⟨fun data hdata => honest_ordinary (hframe data hdata) ?_, nofun⟩
      by_cases hprologue : d.process.phase = .prologue
      · rw [(hfirst hprologue).2, h.flies.prologue hprologue]
        exact hinitial.tilt
      · exact Controlled.tilt (hlater hprologue)
    | told => exact ⟨nofun, nofun⟩
    | @ended k truth reason cached handed hopen hphase hreason hframe hhanded =>
      have htells : ∀ data, cached = some data → Admission.Bears Honest ⟨data, false⟩ := fun data hdata =>
        honest_terminal (hframe data hdata) hreason
      exact ⟨fun data hdata => htells data (hhanded data hdata), htells⟩
    | repeated hhanded => exact ⟨fun data hdata => h.cached data (hhanded data hdata), h.cached⟩

end SimSide

end Tvc.Freerun
