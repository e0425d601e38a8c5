import Tvc.Freerun.Cycles
import Tvc.Freerun.Turns
import Tvc.Lockstep.Refinement

/-!
# Free run at nominal timing

Where every frame is in the batch of its own cycle, and every command in the drain of its own body, the two
schedules of free run interleave into the loop of the headless reference with a delay of one tick: a cycle of
the vehicle, the receipt of its command, a step of the plant, and the frame of the next cycle. The simulator
draws its losses at other places than the reference, and leaves a lost frame out where the reference sends an
invalid one; nothing that the two share can tell.
-/

namespace Tvc.Freerun

/-! ## The admission -/

namespace Admission

open SlotWindow (entries)

variable {s : Admission} {n : ℕ}

/-- An admission that holds nothing but past samples. -/
structure Quiet (n : ℕ) (s : Admission) : Prop where
  between : Between 0 n s
  future : ∀ i, s.future i = none
  latch : s.terminalLatch = none
  newest : ∀ f ∈ s.newestReceived, f.tick < n
  held : ∀ x ∈ s.held, x.tick < n

/-- A new admission holds nothing. -/
theorem quiet_initial {skewMax : ℕ} (hskew : skewMax ≤ kMaxSkew) (warmup : ℕ) :
    Quiet 0 (initial 0 skewMax warmup) :=
  ⟨between_initial hskew 0 warmup, fun _ => rfl, rfl, nofun, nofun⟩

/-- A cycle of a quiet admission starts with nothing. -/
theorem Quiet.opened (h : Quiet n s) :
    let o := s.opened n
    o.future = (fun _ => none) ∧ o.due = none ∧ o.candidateFrame = none ∧ o.terminalCandidate = none ∧
      o.terminalLatch = none ∧ o.terminalSeen = [] ∧ o.newestReceived = s.newestReceived ∧ o.held = s.held ∧
      o.expected = n ∧ o.isOpen = true ∧ o.cycle.rxCount = 0 ∧ o.cycles = n := by
  have hdue : s.dueAt n = none := h.future _
  refine ⟨funext fun j => h.future _, hdue, ?_, ?_, h.latch, rfl, rfl, rfl, rfl, rfl, rfl, h.between.cycles⟩
  · change (s.dueAt n).filter _ = none
    rw [hdue]
    rfl
  · change (if s.terminalLatch.isNone then (s.dueAt n).filter Frame.terminal else none) = none
    rw [hdue, h.latch]
    rfl

/-- The frame of a quiet cycle becomes its candidate. -/
theorem Quiet.receive (h : Quiet n s) {d : Datagram} {f : Frame} (hd : d.frame = .ok f) (htick : f.tick = n)
    (hterminal : f.terminal = false) (hfinite : f.finite = true) :
    let u := ((s.opened n).receive d).1
    u.candidateFrame = some f ∧ u.terminalCandidate = none ∧ u.terminalLatch = none ∧ u.future = (fun _ => none) ∧
      u.newestReceived = RunningMax.pick Frame.tick s.newestReceived f ∧ u.held = s.held ∧ u.isOpen = true ∧
      u.cycle.discards = [] := by
  intro u
  obtain ⟨hfuture, hdue, hcandidate, hcandidates, hlatch, hseen, hnewest, hheld, hexpected, hopen, hrx, hcycles⟩ := h.opened
  have haccepts : (s.opened n).Accepts := by
    refine ⟨hopen, ?_⟩
    rw [hrx, batchCap]
    split <;> decide
  have hclass : (s.opened n).countRx.classify f = .current := by
    have hnone : (s.opened n).countRx.identity f = none := by
      rw [identity_eq_none, hterminal]
      intro g hg
      have hparked : g ∉ (s.opened n).parked := by
        rw [mem_parked]
        rintro ⟨i, -, hi⟩
        rw [hfuture] at hi
        cases hi
      have hknown : g ∈ (s.opened n).known false := hg
      simp only [known, hnewest, hdue, hcandidates, hlatch, hseen, Option.toList_none, List.append_nil,
        Bool.false_eq_true, if_false, List.mem_append, hparked, or_false, Option.mem_toList] at hknown
      have hpast := h.newest g hknown
      omega
    have hlater : ((s.opened n).held.any fun held => decide (f.tick ≤ held.tick)) = false := by
      rw [hheld]
      cases hsample : s.held with
      | none => rfl
      | some x =>
        have hpast := h.held x hsample
        exact decide_eq_false (by omega)
    have hnow : f.tick ≤ (s.opened n).countRx.expected := htick.le
    have hused : nonfinite f = false := by rw [nonfinite, hfinite, Bool.not_true, Bool.and_false]
    unfold classify
    rw [hused, hnone]
    dsimp only
    rw [show (s.opened n).countRx.held = (s.opened n).held from rfl, hlater, Bool.and_false,
      if_neg Bool.false_ne_true, if_neg Bool.false_ne_true, if_pos hnow]
  have hu : u = (s.opened n).countRx.absorb f .current := by
    rw [← hclass]
    simp only [u, receive_of_accepts haccepts, hd]
  have hcompetes : competes f .current = true := by rw [competes, hterminal]; rfl
  have hdueTerminal : dueTerminal (s.opened n).countRx.expected f .current = false := by
    rw [dueTerminal, hterminal, Bool.false_and, Bool.false_and]
  rw [hu]
  refine ⟨?_, ?_, hlatch, ?_, ?_, hheld, hopen, ?_⟩
  · simp only [absorb, hcompetes, if_true]
    exact congrArg (RunningMax.pick Frame.tick · f) hcandidate
  · simp only [absorb, hdueTerminal, Bool.false_and, Bool.false_eq_true, if_false]
    exact hcandidates
  · exact hfuture
  · exact congrArg (RunningMax.pick Frame.tick · f) hnewest
  · have hnone : (s.opened n).countRx.discardOf f .current = none := by
      rw [discardOf, hterminal, if_neg Bool.false_ne_true]
      exact congrArg (Option.map _) hcandidate
    change pushDiscard (s.opened n).countRx.cycle.discards ((s.opened n).countRx.discardOf f .current) = []
    rw [hnone]
    rfl

/-- What a quiet cycle makes of the frame of its tick, if there is one. -/
theorem Quiet.cycle (h : Quiet n s) {datagrams : List Datagram} {frame : Option Frame}
    (hframes : datagrams.map Datagram.frame = frame.toList.map .ok)
    (hframe : ∀ f ∈ frame, f.tick = n ∧ f.terminal = false ∧ f.valid = true ∧ f.finite = true) :
    let t := (Machine.run call s (cycleCalls n datagrams)).1
    Quiet (n + 1) t ∧ t.held = (frame.map Frame.sample).or s.held ∧ t.cycle.fresh = frame.map Frame.sample ∧
      t.cycle.terminal = none ∧ t.cycle.discards = [] := by
  intro t
  obtain ⟨hbetween, -⟩ := h.between.cycle datagrams
  rw [Nat.zero_add] at hbetween
  have hopened := beginCycle_of_admissible h.between.reachable.shape.slots h.between.reachable.shape.unstarted
    h.between.admissible
  rw [Nat.zero_add] at hopened
  have ht : t = (Machine.run call (s.opened n) (datagrams.map .receive)).1.finishCycle := by
    simp only [t, cycleCalls]
    rw [run_concat, Machine.run_cons, call, hopened]
    rfl
  -- What is open before the cycle closes.
  obtain ⟨u, hu, hcandidate, hcandidates, hlatch, hfuture, hnewest, hheld, hopen, hdiscards⟩ : ∃ u,
      (Machine.run call (s.opened n) (datagrams.map .receive)).1 = u ∧ u.candidateFrame = frame ∧
        u.terminalCandidate = none ∧ u.terminalLatch = none ∧ u.future = (fun _ => none) ∧
        (∀ f ∈ u.newestReceived, f.tick < n + 1) ∧ u.held = s.held ∧ u.isOpen = true ∧ u.cycle.discards = [] := by
    cases frame with
    | none =>
      obtain rfl : datagrams = [] := List.map_eq_nil_iff.mp hframes
      obtain ⟨hfuture, -, hcandidate, hcandidates, hlatch, -, hnewest, hheld, -, hopen, -⟩ := h.opened
      refine ⟨_, rfl, hcandidate, hcandidates, hlatch, hfuture, fun f hf => ?_, hheld, hopen, rfl⟩
      have hpast := h.newest f (hnewest ▸ hf)
      omega
    | some f =>
      obtain ⟨d, rfl⟩ := List.length_eq_one_iff.mp (by simpa using congrArg List.length hframes)
      obtain ⟨htick, hterminal, -, hfinite⟩ := hframe f rfl
      have hd : d.frame = .ok f := List.head_eq_of_cons_eq hframes
      obtain ⟨hcandidate, hcandidates, hlatch, hfuture, hnewest, hheld, hopen, hdiscards⟩ :=
        h.receive hd htick hterminal hfinite
      refine ⟨_, rfl, hcandidate, hcandidates, hlatch, hfuture, fun g hg => ?_, hheld, hopen, hdiscards⟩
      rcases RunningMax.mem_pick (hnewest ▸ hg) with rfl | hold
      · omega
      · have hpast := h.newest g hold
        omega
  have hsample : u.freshSample = frame.map Frame.sample := by
    rw [freshSample, hcandidate]
    cases frame with
    | none => rfl
    | some f => rw [Option.filter_some, (hframe f rfl).2.2.1, if_pos rfl]
  have hholding : u.Holding := by
    have hadmissible := h.between.admissible
    rw [Nat.zero_add] at hadmissible
    rw [← hu]
    exact ((h.between.reachable.opened hadmissible).run _).holding
  obtain ⟨hfresh, -⟩ := closed_cycle hholding hopen
  have hsettled : t.held = (frame.map Frame.sample).or s.held := by
    rw [ht, hu, finishCycle_of_open hopen, ← hsample, ← hheld]
    rfl
  rw [hu, finishCycle_of_open hopen] at ht
  have hnolatch : t.terminalLatch = none := by
    rw [ht]
    change u.terminalLatch.or u.terminalCandidate = none
    rw [hlatch, hcandidates]
    rfl
  refine ⟨⟨hbetween, fun i => ?_, hnolatch, ?_, fun x hx => ?_⟩, hsettled, by rw [ht, hfresh, hsample], ?_,
    by rw [ht]; exact hdiscards⟩
  · rw [ht]
    exact congrFun hfuture i
  · rw [ht]
    exact hnewest
  · rw [hsettled] at hx
    cases frame with
    | none => exact (h.held x hx).trans (Nat.lt_succ_self n)
    | some f =>
      obtain rfl := Option.some.inj hx
      exact Nat.lt_succ_of_le (hframe f rfl).1.le
  · rw [ht]
    change (u.terminalLatch.or u.terminalCandidate).map Frame.toTerminal = none
    rw [hlatch, hcandidates]
    rfl

end Admission

/-! ## The pair -/

open Lockstep (referenceInputs plantAfter headless_fields upTo_succ upTo_rows)

/-- Both processes of free run, with the frame of the next cycle if it was handed to the socket. -/
structure Pair where
  sim : Process
  vehicle : Loop
  sent : Option Bytes

section Timing

variable [Arith F64]

/-- A tick at nominal timing: what was handed to the socket is what the cycle receives, the first frame being
carried to its cycle; the cycle does not end the run; and its reply is all that is in the drain of the body. -/
structure NominalTick (spec : Scenario F64) (cfg : Config) (copies : ℕ) (carry : Datagram) (p q : Pair)
    (e : BodyEvent) (s : SimEvent) : Prop where
  batch : datagramsOf p.vehicle.n carry e = p.sent.toList.map (Datagram.mk · false)
  runs : p.vehicle.Runs cfg e
  cycle : q.vehicle = p.vehicle.body cfg carry e
  living : q.vehicle.running = true
  drained : s.drained = .ok [q.vehicle.r.reply]
  body : p.sim.turn spec copies s = (q.sim, q.sent)

/-- The pair before tick `n`, after a run at nominal timing that neither side has ended. -/
inductive NominalRun (spec : Scenario F64) (seed : U64) (cfg : Config) (origin : ℤ) (copies : ℕ) (carry : Datagram) :
    ℕ → Pair → Prop
  | start {initial sim : Process} {s : SimEvent} {frame : Bytes} (hinitial : Process.initial spec seed 1 = .ok initial)
      (hturn : initial.turn spec copies s = (sim, some frame)) (hphase : sim.phase = .body 0)
      (hcarry : carry = ⟨frame, false⟩) :
      NominalRun spec seed cfg origin copies carry 0 ⟨sim, .initial cfg 0 origin, some frame⟩
  | tick {n : ℕ} {p q : Pair} {e : BodyEvent} {s : SimEvent} (hrun : NominalRun spec seed cfg origin copies carry n p)
      (htick : NominalTick spec cfg copies carry p q e s) (hphase : q.sim.phase = .body (n + 1)) :
      NominalRun spec seed cfg origin copies carry (n + 1) q

/-- The pair holds before a tick what the reference holds, and has offered the frame of the tick. -/
structure Aligned (spec : Scenario F64) (n : ℕ) (p : Pair) (l : Headless.Loop F64) : Prop where
  phase : p.sim.phase = .body n
  truth : p.sim.model.truth = l.truth
  act : p.sim.model.act = l.act
  delay : p.sim.model.delay = l.delay
  streamUp : p.sim.model.streamUp = (drawDrop l.streamUp spec.lossUp).2
  streamDown : p.sim.model.streamDown = l.streamDown
  reason : p.sim.model.reason = none
  unseen : p.sim.model.vehicleSeen = none
  sent : if Headless.dropOf spec n .up (drawDrop l.streamUp spec.lossUp).1 then p.sent = none
    else ∃ frame sentNs, p.sent = some frame ∧ Process.frameOf n (observe n l.truth) false none sentNs = .ok frame
  finite : l.truth.theta.isFinite = true ∧ l.truth.omega.isFinite = true
  live : l.broken = false
  pending : l.pendingReason = none
  count : p.vehicle.n = n
  base : p.vehicle.r.tickBase = 0
  quiet : Admission.Quiet n p.vehicle.r.admission
  state : p.vehicle.r.state = l.state
  simSeen : p.vehicle.r.simSeen = none
  held : p.vehicle.r.admission.held.map observation = l.held
  sound : ∃ last, Episode.Sound last l.state
  length : l.rows.length = n

variable {spec : Scenario F64} {cfg : Config} {copies n : ℕ} {carry : Datagram} {p q : Pair} {l : Headless.Loop F64}
  {e : BodyEvent} {s : SimEvent}

/-- The frame of a tick, as the vehicle receives it. -/
theorem Aligned.frame (h : Aligned spec n p l) : ∃ frame : Option Frame,
    (p.sent.toList.map (Datagram.mk · false)).map Datagram.frame = frame.toList.map .ok ∧
      (∀ f ∈ frame, f.tick = n ∧ f.terminal = false ∧ f.valid = true ∧ f.finite = true) ∧
      frame.map (fun f => observation f.sample) =
        if Headless.dropOf spec n .up (drawDrop l.streamUp spec.lossUp).1 then none
        else some (observe n l.truth) := by
  have hsent := h.sent
  split at hsent
  · rename_i hdrop
    refine ⟨none, by rw [hsent]; rfl, nofun, by rw [if_pos hdrop]; rfl⟩
  · rename_i hdrop
    obtain ⟨frame, sentNs, hsent, hframe⟩ := hsent
    obtain ⟨hsmall, hreceived⟩ := Process.frameOf_ok (o := observe n l.truth) hframe
    have htick : (BitVec.ofNat 64 n).toNat = n := (BitVec.toNat_ofNat n 64).trans (Nat.mod_eq_of_lt hsmall)
    refine ⟨some (.ofFields (Process.sensorFieldsOf (observe n l.truth) sentNs)), ?_, ?_, ?_⟩
    · rw [hsent]
      exact congrArg (· :: []) hreceived
    · rintro f hf
      obtain rfl := Option.some.inj hf
      exact ⟨htick, (by decide : ((1 &&& 0xff07 : U32) &&& 2 != 0) = false),
        (by decide : ((1 &&& 0xff07 : U32) &&& 1 != 0) = true), Bool.and_eq_true_iff.mpr h.finite⟩
    · rw [if_neg hdrop]
      have hobserved : observation (Frame.ofFields (Process.sensorFieldsOf (observe n l.truth) sentNs)).sample =
          ⟨(BitVec.ofNat 64 n).toNat, l.truth.theta, l.truth.omega, true⟩ := rfl
      rw [Option.map_some, hobserved, htick]
      rfl

/-- The sample of the reference: that of the tick unless it is lost. -/
theorem referenceInputs_sample (spec : Scenario F64) {l : Headless.Loop F64}
    (hfinite : l.truth.theta.isFinite = true ∧ l.truth.omega.isFinite = true) (n : ℕ) :
    let sample := if Headless.dropOf spec n .up (drawDrop l.streamUp spec.lossUp).1 then none
      else some (observe n l.truth)
    (referenceInputs spec l n).held = sample.or l.held ∧ (referenceInputs spec l n).fresh = sample.isSome := by
  unfold referenceInputs
  cases Headless.dropOf spec n .up (drawDrop l.streamUp spec.lossUp).1 with
  | true => exact ⟨rfl, rfl⟩
  | false =>
    have hfresh : Headless.isFresh (Headless.observation n l.truth false) = true := by
      change (true && l.truth.theta.isFinite && l.truth.omega.isFinite) = true
      rw [hfinite.1, hfinite.2]
      rfl
    dsimp only
    rw [hfresh]
    exact ⟨rfl, rfl⟩

/-- The vehicle admits what the reference holds. -/
theorem Aligned.admitted (h : Aligned spec n p l)
    (hbatch : datagramsOf p.vehicle.n carry e = p.sent.toList.map (Datagram.mk · false)) :
    let t := p.vehicle.admitted carry e
    Admission.Quiet (n + 1) t ∧ t.held.map observation = (referenceInputs spec l n).held ∧
      t.cycle.fresh.isSome = (referenceInputs spec l n).fresh ∧ t.cycle.terminal = none ∧
      t.cycle.staleness = (referenceInputs spec l n).staleness := by
  intro t
  obtain ⟨frame, hframes, hframe, hsample⟩ := h.frame
  have ht : t = (Machine.run Admission.call p.vehicle.r.admission
      (cycleCalls n (p.sent.toList.map (Datagram.mk · false)))).1 := by
    unfold t Loop.admitted
    rw [hbatch, h.base, h.count, Nat.zero_add]
  obtain ⟨hquiet, hheld, hfresh, hterminal, -⟩ := h.quiet.cycle hframes hframe
  obtain ⟨-, hadmitted⟩ := h.quiet.between.cycle (p.sent.toList.map (Datagram.mk · false))
  rw [Nat.zero_add] at hadmitted
  rw [← ht] at hquiet hheld hfresh hterminal hadmitted
  obtain ⟨hsampled, hrefreshed⟩ := referenceInputs_sample spec h.finite n
  rw [← hsample] at hsampled hrefreshed
  have hsame : t.held.map observation = (referenceInputs spec l n).held := by
    rw [hheld, hsampled, ← h.held]
    cases frame <;> rfl
  refine ⟨hquiet, hsame, ?_, hterminal, ?_⟩
  · rw [hfresh, hrefreshed]
    cases frame <;> rfl
  · have hage : (referenceInputs spec l n).staleness = Headless.ageOf (t.held.map observation) n := by
      rw [hsame]
      rfl
    rw [hadmitted.staleness, hage]
    unfold Headless.ageOf
    cases t.held <;> rfl

/-- Neither the schedule nor a signal has a part in a cycle that does not end the run. -/
theorem unstopped {s : EpisodeState F64} {i : EpisodeInput F64} (hsim : i.simReason = none)
    (hstop : ∀ reason ∈ i.stopReason, reason = .signal) (hlive : (Episode.step s i).state.mode ≠ .terminated) :
    i.horizonReached = false ∧ i.stopReason = none := by
  have houtcome := Episode.step_outcome s i
  generalize Episode.step s i = r at houtcome hlive
  cases houtcome with
  | ended hmode => exact absurd hmode hlive
  | stopped => exact absurd rfl hlive
  | ran _ hreason _ =>
    have hreason : Episode.terminalReason (Episode.countSettled s.settleCount i.held) i = .none := hreason
    unfold Episode.terminalReason at hreason
    rw [hsim, Option.any_none, if_neg Bool.false_ne_true] at hreason
    cases hcause : i.stopReason with
    | some reason =>
      rw [hcause, hstop reason hcause] at hreason
      nomatch hreason
    | none =>
      refine ⟨?_, rfl⟩
      rw [hcause] at hreason
      cases hhorizon : i.horizonReached with
      | false => rfl
      | true =>
        simp only [hhorizon, Bool.true_or, ↓reduceIte] at hreason
        repeat' split at hreason
        all_goals nomatch hreason

/-- The reference has no reason of its own to end the run in a tick before the last. -/
theorem Aligned.reasonOf (h : Aligned spec n p l) (hn : n < spec.ticks - 1) :
    Headless.reasonOf spec l.pendingReason n = none := by
  rw [Headless.reasonOf, h.pending, beq_false_of_ne hn.ne, Bool.and_false, if_neg Bool.false_ne_true]

/-- The vehicle hands to the policy what the reference does, in a cycle that does not end the run. -/
theorem Aligned.input (h : Aligned spec n p l) (htick : NominalTick spec cfg copies carry p q e s)
    (hcommands : spec.commands = []) (hn : n < spec.ticks - 1) :
    p.vehicle.input cfg carry e = referenceInputs spec l n ∧
      (Episode.step l.state (referenceInputs spec l n)).state.mode ≠ .terminated := by
  obtain ⟨-, hheld, hfresh, hterminal, hage⟩ := h.admitted htick.batch
  have hlive : (Episode.step p.vehicle.r.state (p.vehicle.input cfg carry e)).state.mode ≠ .terminated := by
    have hliving := htick.living
    obtain ⟨-, -, -, -, hrunning, -⟩ := Loop.body_of_runs carry htick.runs
    rw [htick.cycle, hrunning] at hliving
    simpa using hliving
  have hsim : (p.vehicle.input cfg carry e).simReason = none := by
    change (((p.vehicle.admitted carry e).cycle.terminal.map Terminal.reason).or p.vehicle.r.simSeen).map _ = none
    rw [hterminal, h.simSeen]
    rfl
  have hstop : ∀ reason ∈ (p.vehicle.input cfg carry e).stopReason, reason = .signal := by
    intro reason hreason
    have hsignal : (if e.stop then some Reason.signal else none) = some reason := hreason
    split at hsignal
    · exact (Option.some.inj hsignal).symm
    · nomatch hsignal
  obtain ⟨hhorizon, hstopped⟩ := unstopped hsim hstop hlive
  have hreference : referenceInputs spec l n =
      ⟨n, (referenceInputs spec l n).held, (referenceInputs spec l n).fresh, (referenceInputs spec l n).staleness, none,
        false, none, none⟩ := by
    have hopcode : spec.commandAt n = none := by rw [Scenario.commandAt, hcommands]; rfl
    unfold referenceInputs
    rw [hopcode, h.reasonOf hn]
    rfl
  have hinput : p.vehicle.input cfg carry e = referenceInputs spec l n := by
    rw [hreference, ← hheld, ← hfresh, ← hage]
    have hticks : p.vehicle.r.tickBase + p.vehicle.n = n := by rw [h.base, h.count, Nat.zero_add]
    have hfields : p.vehicle.input cfg carry e =
        ⟨p.vehicle.r.tickBase + p.vehicle.n, (p.vehicle.admitted carry e).held.map observation,
          (p.vehicle.admitted carry e).cycle.fresh.isSome, (p.vehicle.admitted carry e).cycle.staleness, none,
          (p.vehicle.input cfg carry e).horizonReached, (p.vehicle.input cfg carry e).simReason,
          (p.vehicle.input cfg carry e).stopReason⟩ := rfl
    rw [hfields, hsim, hhorizon, hstopped, hticks]
  exact ⟨hinput, by rw [← h.state, ← hinput]; exact hlive⟩

omit [Arith F64] in
/-- The simulator reads the mode and the command in the reply of a cycle. -/
theorem reply_reads (i : EpisodeInput F64) (admission : Admission) (cycle : ℕ) (e : BodyEvent) (deadline : ℤ)
    (result : EpisodeOutput F64) : ∃ value,
      decodeReply (replyOf i cycle (recordOf i admission e deadline result) e) = .ok value ∧
        stateByte value = result.state.mode.toNat ∧ value.float .delta = result.requestedDelta := by
  refine ⟨_, Lockstep.decode_replyFrame cycle _, ?_, rfl⟩
  have hstatus := Lockstep.statusOf_low (recordOf i admission e deadline result)
    (Lockstep.rungOf i.staleness i.fresh) 0
  have hsame : Lockstep.statusOf (recordOf i admission e deadline result) (Lockstep.rungOf i.staleness i.fresh) 0 =
      (recordOf i admission e deadline result).state.setWidth 32 |||
        ((recordOf i admission e deadline result).reason.setWidth 32 <<< 8) |||
          (BitVec.ofNat 32 (Lockstep.rungOf i.staleness i.fresh) <<< 16) := by
    simp [Lockstep.statusOf]
  rw [hsame] at hstatus
  refine hstatus.trans ?_
  unfold recordOf
  cases result.state.mode <;> rfl

/-- What the two sides show of a tick is what the reference has for it. -/
structure Agrees (p q : Pair) (arriving : Option F64) (row : Headless.Row F64) (after : Headless.Loop F64) : Prop where
  truth : p.sim.model.truth = row.truth
  held : q.vehicle.r.admission.held.map observation = row.held
  staleness : q.vehicle.r.admission.cycle.staleness = row.staleness
  command : q.vehicle.records.getLast?.map Telem.ControlRecord.cmd = some row.episode.requestedDelta
  arriving : arriving = row.arriving
  actuator : q.sim.model.act = row.actuator
  streamUp : p.sim.model.streamUp = after.streamUp
  streamDown : q.sim.model.streamDown = after.streamDown

/-- The truth is finite while the plant is under control. -/
theorem finite_of_upright {truth : TruthState F64} (h : Plant.lossOfControl truth = none) :
    truth.theta.isFinite = true ∧ truth.omega.isFinite = true := by
  unfold Plant.lossOfControl at h
  split at h
  · nomatch h
  · rename_i hfinite
    have hboth : Classify.isFinite truth.theta = true ∧ Classify.isFinite truth.omega = true := by simpa using hfinite
    exact hboth

/-- A body leaves of the simulator what a tick leaves of the reference. -/
structure Simulated (spec : Scenario F64) (n : ℕ) (l l' : Headless.Loop F64) (q : Process) (advanced : Model)
    (arriving : Option F64) : Prop where
  arriving : arriving = (l.delay ++
    [if Headless.dropOf spec n .down (drawDrop l.streamDown spec.lossDown).1 then none
      else some (Episode.step l.state (referenceInputs spec l n)).requestedDelta]).headD none
  truth : q.model.truth = l'.truth
  act : q.model.act = l'.act
  delay : q.model.delay = l'.delay
  streamUp : q.model.streamUp = (drawDrop l'.streamUp spec.lossUp).2
  streamDown : q.model.streamDown = l'.streamDown
  unseen : q.model.vehicleSeen = none
  reason : q.model.reason = advanced.reason
  movedTruth : advanced.truth = l'.truth
  movedStream : advanced.streamUp = l'.streamUp
  movedReason : advanced.reason = Model.reasonAfter spec l'.truth n
  live : l'.broken = false
  pending : l'.pendingReason = Plant.lossOfControl l'.truth

/-- A body whose drain holds the reply of a cycle that does not end the run. -/
theorem Aligned.simulated (h : Aligned spec n p l) {data : Bytes} {value : Wire.Fields} {model advanced : Model}
    {selected arriving : Option F64} (hdecode : decodeReply data = .ok value) (hordinary : stateByte value ≠ 3)
    (hdelta : value.float .delta = (Episode.step l.state (referenceInputs spec l n)).requestedDelta)
    (hlive : (Episode.step l.state (referenceInputs spec l n)).state.terminal.isSome = false)
    (hb : Process.Bodied spec p.sim q.sim n [data] q.sent s model advanced selected arriving) :
    Simulated spec n l (Headless.tick spec l n) q.sim advanced arriving := by
  obtain ⟨last, hsound⟩ := h.sound
  have hresult := EpisodeRef.step_agrees hsound.settled (referenceInputs spec l n)
  obtain ⟨hmodel, hselected⟩ := Model.receive_reply hdecode hordinary h.unseen hb.received
  obtain ⟨-, harriving, hadvanced⟩ := Model.advance_ok hb.moved
  obtain ⟨-, -, hlup, hldown, hldelay, hlact, -, -, hlend⟩ := headless_fields spec l n
  rw [hresult] at hldelay hlact hlend
  rw [h.reasonOf hb.inTime, hlive, h.live, h.pending] at hlend
  rw [h.streamDown, hdelta] at hselected
  -- The delay takes in the same command on both sides.
  obtain ⟨htruth, hact, hdelay, hup, hdown, -, hseen⟩ := Model.fields_of_bare hmodel
  have htruth : model.truth = l.truth := htruth.trans h.truth
  have hact : model.act = l.act := hact.trans h.act
  have hdelay : model.delay = l.delay := hdelay.trans h.delay
  have hup : model.streamUp = p.sim.model.streamUp := hup
  have hdown : model.streamDown = (drawDrop p.sim.model.streamDown spec.lossDown).2 := hdown
  rw [hdelay, hselected] at harriving
  rw [hdelay, hselected, hact, htruth, harriving, ← hlact, ← hldelay] at hadvanced
  -- Neither side ends before the plant moves.
  rw [← hlact, plantAfter, if_neg (by decide)] at hlend
  obtain ⟨hlbroken, hlplant⟩ := Prod.mk.inj hlend
  obtain ⟨hltruth, hlpending⟩ := Prod.mk.inj hlplant
  rw [← hltruth] at hadvanced
  rw [← hltruth, Option.or_none] at hlpending
  obtain ⟨hmtruth, hmact, hmdelay, hmup, hmdown, hmreason, hmseen⟩ := Model.fields_of_bare hadvanced
  obtain ⟨hqtruth, hqact, hqdelay, hqup, hqdown, hqreason, hqseen⟩ := Model.fields_of_bare hb.course
  have hmup : advanced.streamUp = (Headless.tick spec l n).streamUp :=
    hmup.trans (hup.trans (h.streamUp.trans hlup.symm))
  have hmdown : advanced.streamDown = (Headless.tick spec l n).streamDown := by
    rw [hldown, ← h.streamDown, ← hdown]
    exact hmdown
  refine ⟨harriving, hqtruth.trans hmtruth, hqact.trans hmact, hqdelay.trans hmdelay, ?_, hqdown.trans hmdown,
    hqseen.trans (hmseen.trans (hseen.trans h.unseen)), hqreason, hmtruth, hmup, hmreason, hlbroken, hlpending⟩
  rw [← hmup]
  exact hqup

/-- A tick at nominal timing is a tick of the reference. -/
theorem Aligned.tick (h : Aligned spec n p l) (htick : NominalTick spec cfg copies carry p q e s)
    (hcommands : spec.commands = []) (hgoes : q.sim.GoesOn) :
    (∃ model advanced selected arriving row,
      Process.Bodied spec p.sim q.sim n [q.vehicle.r.reply] q.sent s model advanced selected arriving ∧
        (Headless.tick spec l n).rows = l.rows ++ [row] ∧ Agrees p q arriving row (Headless.tick spec l n)) ∧
      (q.sim.phase = .body (n + 1) → Aligned spec (n + 1) q (Headless.tick spec l n)) := by
  obtain ⟨model, advanced, selected, arriving, hb⟩ := Process.turn_body h.phase htick.drained htick.body hgoes
  obtain ⟨hinput, hlive⟩ := h.input htick hcommands hb.inTime
  obtain ⟨hquiet, hheld, -, hterminal, hage⟩ := h.admitted htick.batch
  obtain ⟨hadmission, hstate, hbase, hcount, -, hseen, record, hrecord, hreply, hrecords⟩ :=
    Loop.body_of_runs carry htick.runs
  rw [← htick.cycle] at hadmission hstate hbase hcount hreply hrecords hseen
  rw [hinput, h.state] at hstate hrecord
  rw [hinput] at hreply
  obtain ⟨last, hsound⟩ := h.sound
  have hresult := EpisodeRef.step_agrees hsound.settled (referenceInputs spec l n)
  have hnext := hsound.step_sound (referenceInputs spec l n)
  -- The reply shows the command, and that the run goes on.
  obtain ⟨value, hdecode, hmode, hdelta⟩ := reply_reads (referenceInputs spec l n) (p.vehicle.admitted carry e) p.vehicle.n
    e (p.vehicle.r.origin + p.vehicle.n * kPeriodNs) (Episode.step l.state (referenceInputs spec l n))
  rw [← hrecord, ← hreply] at hdecode
  have hordinary : stateByte value ≠ 3 := by
    rw [hmode]
    revert hlive
    cases (Episode.step l.state (referenceInputs spec l n)).state.mode <;> decide
  have hongoing : (Episode.step l.state (referenceInputs spec l n)).state.terminal.isSome = false :=
    Bool.eq_false_iff.mpr fun hsome => hlive (hnext.terminal.mpr hsome)
  have hs := h.simulated hdecode hordinary hdelta hongoing hb
  obtain ⟨hlstate, hlheld, hlup, -, -, hlact, -, hlrows, -⟩ := headless_fields spec l n
  rw [hresult] at hlstate hlact hlrows
  refine ⟨⟨model, advanced, selected, arriving, _, hb, hlrows, h.truth, ?_, ?_, ?_, hs.arriving, hs.act.trans hlact,
    h.streamUp.trans hlup.symm, hs.streamDown⟩, fun hphase => ?_⟩
  · rw [hadmission]
    exact hheld
  · rw [hadmission]
    exact hage
  · rw [hrecords, List.getLast?_concat, hrecord]
    rfl
  · have hunended : advanced.reason = none := by
      have hphases := hb.phase.symm.trans hphase
      cases hreason : advanced.reason with
      | none => rfl
      | some reason =>
        rw [hreason, Option.isSome_some, if_pos rfl] at hphases
        cases hphases
    obtain ⟨hupright, -⟩ := Option.or_eq_none_iff.mp (hs.movedReason.symm.trans hunended)
    have hoffered := hb.offered hunended
    rw [hs.movedTruth, hs.movedStream] at hoffered
    refine ⟨hphase, hs.truth, hs.act, hs.delay, hs.streamUp, hs.streamDown, hs.reason.trans hunended, hs.unseen, ?_,
      finite_of_upright hupright, hs.live, hs.pending.trans hupright, ?_, hbase.trans h.base, ?_, ?_, ?_, ?_, ?_, ?_⟩
    · split at hoffered
      · rename_i hdrop
        rw [if_pos hdrop]
        exact hoffered
      · rename_i hdrop
        obtain ⟨frame, hsent, hframe⟩ := hoffered
        rw [if_neg hdrop]
        exact ⟨frame, s.sentNs, hsent, hframe⟩
    · rw [hcount, h.count]
    · rw [hadmission]
      exact hquiet
    · rw [hstate, hlstate]
    · rw [hseen, hterminal, h.simSeen]
      rfl
    · rw [hadmission, hheld, hlheld]
    · rw [hlstate]
      exact ⟨_, hnext⟩
    · rw [hlrows, List.length_append, h.length]
      rfl

/-! ## Over a whole run -/

variable {seed : U64} {origin : ℤ}

/-- What the simulator accepts, and how it starts. -/
theorem initial_ok {initial : Process} {delayTicks : Fin 2} (h : Process.initial spec seed delayTicks = .ok initial) :
    spec.commands = [] ∧ initial =
      { model :=
          { truth := spec.initial
            act := Actuator.initial
            delay := List.replicate delayTicks none
            streamUp := Rng.streamState seed .linkLossUp
            streamDown := Rng.streamState seed .linkLossDown } } := by
  unfold Process.initial Model.new at h
  split at h
  · nomatch h
  · split at h
    · nomatch h
    · rename_i hcommands
      exact ⟨by simpa using hcommands, (Except.ok.inj h).symm⟩

/-- The pair starts as the reference does, if the reference delivers its first sample. -/
theorem aligned_start {initial sim : Process} {frame : Bytes} (hauto : cfg.autoArm = spec.autoArm)
    (hdelivered : Headless.dropOf spec 0 .up (drawDrop (Rng.streamState seed .linkLossUp) spec.lossUp).1 = false)
    (hinitial : Process.initial spec seed 1 = .ok initial) (hturn : initial.turn spec copies s = (sim, some frame))
    (hphase : sim.phase = .body 0) :
    Aligned spec 0 ⟨sim, .initial cfg 0 origin, some frame⟩ (Headless.upTo spec seed 1 0) := by
  obtain ⟨-, rfl⟩ := initial_ok hinitial
  have hgoes : sim.GoesOn := fun code hcode => by rw [hphase] at hcode; nomatch hcode
  obtain ⟨-, hbare, frame', hframe', hsent⟩ := Process.turn_prologue rfl hturn hgoes
  obtain rfl := Option.some.inj hframe'
  obtain ⟨htruth, hact, hdelay, hup, hdown, hreason, hseen⟩ := Model.fields_of_bare hbare
  refine ⟨hphase, htruth, hact, hdelay, hup, hdown, hreason, hseen, ?_, spec.initial_finite, rfl, rfl, rfl, rfl,
    Admission.quiet_initial cfg.skew_le cfg.warmup, ?_, rfl, rfl, ⟨none, ?_⟩, rfl⟩
  · have hdrop : ¬Headless.dropOf spec 0 .up (drawDrop (Rng.streamState seed .linkLossUp) spec.lossUp).1 = true := by
      rw [hdelivered]
      decide
    exact (if_neg hdrop).mpr ⟨frame, s.sentNs, rfl, hsent⟩
  · change Episode.initial cfg.autoArm = EpisodeRef.initial spec.autoArm
    rw [hauto]
    rfl
  · exact Episode.sound_run spec.autoArm []

/-- After any run at nominal timing the pair holds what the reference holds. -/
theorem aligned_run (hauto : cfg.autoArm = spec.autoArm)
    (hdelivered : Headless.dropOf spec 0 .up (drawDrop (Rng.streamState seed .linkLossUp) spec.lossUp).1 = false)
    (h : NominalRun spec seed cfg origin copies carry n p) :
    spec.commands = [] ∧ Aligned spec n p (Headless.upTo spec seed 1 n) := by
  induction h with
  | start hinitial hturn hphase _ => exact ⟨(initial_ok hinitial).1, aligned_start hauto hdelivered hinitial hturn hphase⟩
  | tick _ htick hphase ih =>
    obtain ⟨hcommands, haligned⟩ := ih
    have hgoes : Process.GoesOn _ := fun code hcode => by rw [hphase] at hcode; nomatch hcode
    obtain ⟨-, hnext⟩ := haligned.tick htick hcommands hgoes
    refine ⟨hcommands, ?_⟩
    rw [upTo_succ, if_neg (by rw [haligned.live]; exact Bool.false_ne_true)]
    exact hnext hphase

/-- Free run at nominal timing is the reference with a delay of one tick: in every tick that neither side has
ended, and in the one in which the simulator ends the run, the truth, the held sample and its age, the command,
what arrives at the actuator, the actuator and both streams are those of the reference. -/
theorem freerun_nominal (spec : Scenario F64) (seed : U64) (cfg : Config) (origin : ℤ) (copies : ℕ)
    (hauto : cfg.autoArm = spec.autoArm)
    (hdelivered : Headless.dropOf spec 0 .up (drawDrop (Rng.streamState seed .linkLossUp) spec.lossUp).1 = false)
    {carry : Datagram} {n : ℕ} {p q : Pair} {e : BodyEvent} {s : SimEvent}
    (hrun : NominalRun spec seed cfg origin copies carry n p) (htick : NominalTick spec cfg copies carry p q e s)
    (hgoes : q.sim.GoesOn) :
    ∃ model advanced selected arriving row,
      Process.Bodied spec p.sim q.sim n [q.vehicle.r.reply] q.sent s model advanced selected arriving ∧
        (Headless.rows spec seed 1)[n]? = some row ∧
        Agrees p q arriving row (Headless.upTo spec seed 1 (n + 1)) := by
  obtain ⟨hcommands, haligned⟩ := aligned_run hauto hdelivered hrun
  obtain ⟨⟨model, advanced, selected, arriving, row, hbodied, hrows, hagrees⟩, -⟩ := haligned.tick htick hcommands hgoes
  have hupTo : Headless.upTo spec seed 1 (n + 1) = Headless.tick spec (Headless.upTo spec seed 1 n) n := by
    rw [upTo_succ, if_neg (by rw [haligned.live]; exact Bool.false_ne_true)]
  have hlength := haligned.length
  obtain ⟨later, hlater⟩ := upTo_rows spec seed 1 (show n + 1 ≤ spec.ticks by have hin := hbodied.inTime; omega)
  refine ⟨model, advanced, selected, arriving, row, hbodied, ?_, hupTo ▸ hagrees⟩
  rw [Headless.rows, hlater, hupTo, hrows, List.append_assoc, List.getElem?_append_right (by omega), hlength,
    Nat.sub_self, List.cons_append, List.getElem?_cons_zero]

end Timing

/-! ## A calm run -/

attribute [local instance] ieee

/-- A scenario at rest for three ticks. -/
def calm : Scenario F64 := .still 3 [] true (by decide) nofun .nil

/-- A turn in which these packets are in the drain. -/
def calmTurn (packets : List Bytes) : SimEvent := ⟨.ok (), .ok packets, 2, 3, 4, 5, 6, 7, 8, true⟩

/-- A body whose batch is empty. -/
def calmBody : BodyEvent :=
  ⟨0, 1, 2, 3, 4, 5, 6, 7, .ok ⟨[], by decide⟩, false, true, true⟩

/-- The simulator before its first frame. -/
def calmStart : Process :=
  { model :=
      { truth := calm.initial
        act := Actuator.initial
        delay := [none]
        streamUp := Rng.streamState 0 .linkLossUp
        streamDown := Rng.streamState 0 .linkLossDown } }

/-- The simulator after its first frame, and the frame. -/
def calmSent : Process × Option Bytes := calmStart.turn calm 12 (calmTurn [])

/-- The vehicle after its first cycle. -/
def calmCycle : Loop :=
  (Loop.initial { autoArm := true } 0 0).body { autoArm := true } ⟨calmSent.2.getD [], false⟩ calmBody

/-- The first tick of the calm run. -/
theorem freerun_nominal_calm : ∃ carry p q arriving row, NominalRun calm 0 { autoArm := true } 0 12 carry 0 p ∧
    (Headless.rows calm 0 1)[0]? = some row ∧ Agrees p q arriving row (Headless.upTo calm 0 1 1) := by
  have hinitial : Process.initial calm 0 1 = .ok calmStart := rfl
  have hphase : calmSent.1.phase = .body 0 := by decide +kernel
  have hsent : calmStart.turn calm 12 (calmTurn []) = (calmSent.1, some (calmSent.2.getD [])) := by
    have hsome : calmSent.2.isSome = true := by decide +kernel
    have hpair (x : Process × Option Bytes) (h : x.2.isSome = true) : x = (x.1, some (x.2.getD [])) := by
      obtain ⟨sim, _ | frame⟩ := x
      · nomatch h
      · rfl
    exact hpair calmSent hsome
  have hrun : NominalRun calm 0 { autoArm := true } 0 12 ⟨calmSent.2.getD [], false⟩ 0
      ⟨calmSent.1, .initial { autoArm := true } 0 0, some (calmSent.2.getD [])⟩ :=
    .start hinitial hsent hphase rfl
  have hliving : calmCycle.running = true := by decide +kernel
  have hnext : (calmSent.1.turn calm 12 (calmTurn [calmCycle.r.reply])).1.phase = .body 1 := by decide +kernel
  obtain ⟨⟨sim, sent⟩, hturn⟩ : ∃ x, calmSent.1.turn calm 12 (calmTurn [calmCycle.r.reply]) = x := ⟨_, rfl⟩
  rw [hturn] at hnext
  have htick : NominalTick calm { autoArm := true } 12 ⟨calmSent.2.getD [], false⟩
      ⟨calmSent.1, .initial { autoArm := true } 0 0, some (calmSent.2.getD [])⟩ ⟨sim, calmCycle, sent⟩ calmBody
      (calmTurn [calmCycle.r.reply]) :=
    ⟨rfl, by decide, by rw [calmCycle], hliving, rfl, hturn⟩
  obtain ⟨-, -, -, arriving, row, -, hrow, hagrees⟩ := freerun_nominal calm 0 { autoArm := true } 0 12 rfl
    (by decide +kernel) hrun htick fun code hcode => by
      rw [hnext] at hcode
      nomatch hcode
  exact ⟨_, _, _, arriving, row, hrun, hrow, hagrees⟩

end Tvc.Freerun
