import Tvc.Freerun.Turns

/-!
# What a turn of the simulator does to the end of the run

A process keeps of the end of the run its reason, the vehicle's reason as far as it has seen it, the side that
ended the run with the interval in which it did, and the terminal frame it has made. A turn leaves them, or ends
the run in one of two ways.
-/

namespace Tvc.Freerun

variable [Arith F64] {spec : Scenario F64}

/-- A packet of a drain tells of the vehicle's end. -/
def Tells (packets : List Bytes) (reason : ℕ) : Prop :=
  ∃ data ∈ packets, ∃ value, decodeReply data = .ok value ∧ stateByte value = 3 ∧ reasonByte value = reason

omit [Arith F64] in
/-- More packets tell no less. -/
theorem Tells.mono {packets packets' : List Bytes} {reason : ℕ} (h : Tells packets reason)
    (hsub : ∀ data ∈ packets, data ∈ packets') : Tells packets' reason := by
  obtain ⟨data, hmem, hvalue⟩ := h
  exact ⟨data, hsub data hmem, hvalue⟩

namespace Model

variable {m m' : Model}

/-- The vehicle's reason is that of before, or one that a packet tells. -/
def SeenFrom (m m' : Model) (packets : List Bytes) : Prop :=
  m'.vehicleSeen = m.vehicleSeen ∨ ∃ reason, m'.vehicleSeen = some reason ∧ Tells packets reason

/-- A new model has not ended, and has seen no end. -/
theorem new_unended {seed : U64} {delayTicks : Fin 2} (h : new spec seed delayTicks = .ok m) :
    m.reason = none ∧ m.vehicleSeen = none := by
  unfold new at h
  split at h
  · nomatch h
  · split at h
    · nomatch h
    · rw [← Except.ok.inj h]
      exact ⟨rfl, rfl⟩

/-- The loss of a frame draws once, whatever it decides. -/
theorem loss_model {direction : Direction} {tick : ℕ} {terminal prologue : Bool}
    {outcome : Except Failure (Bool × Bool)} (h : m.loss spec direction tick terminal prologue = (m', outcome)) :
    m' = (m.draw spec direction).2 := by
  unfold loss at h
  dsimp only at h
  split at h
  · exact (Prod.mk.inj h).1.symm
  · split at h <;> exact (Prod.mk.inj h).1.symm

/-- A packet moves the stream of the downlink, and nothing else of the model but what was seen. -/
theorem receivePacket_course {k : ℕ} {data : Bytes} {outcome : Except Failure (Option Wire.Fields)}
    (h : m.receivePacket spec k data = (m', outcome)) :
    (∃ streamDown vehicleSeen, m'.bare = { m.bare with streamDown, vehicleSeen }) ∧ SeenFrom m m' [data] := by
  unfold receivePacket at h
  cases hdecode : decodeReply data with
  | error failure =>
    rw [hdecode] at h
    obtain ⟨rfl, -⟩ := Prod.mk.inj h
    exact ⟨⟨_, _, rfl⟩, .inl rfl⟩
  | ok value =>
  rw [hdecode] at h
  dsimp only at h
  cases hloss : m.loss spec .down k (stateByte value == 3) false with
  | mk drawn result =>
  rw [hloss] at h
  obtain rfl := loss_model hloss
  cases result with
  | error failure =>
    obtain ⟨rfl, -⟩ := Prod.mk.inj h
    exact ⟨⟨_, _, draw_down spec m⟩, .inl (fields_of_bare (draw_down spec m)).2.2.2.2.2.2⟩
  | ok decided =>
  obtain ⟨raw, drop⟩ := decided
  dsimp only at h
  have hcounted : ((m.draw spec .down).2.countReceived value (stateByte value == 3) drop).bare =
      { m.bare with streamDown := (drawDrop m.streamDown spec.lossDown).2 } := by
    rw [countReceived_bare, draw_down]
  have hseen : ((m.draw spec .down).2.countReceived value (stateByte value == 3) drop).vehicleSeen = m.vehicleSeen :=
    (fields_of_bare hcounted).2.2.2.2.2.2
  generalize (m.draw spec .down).2.countReceived value (stateByte value == 3) drop = counted at h hcounted hseen
  split at h
  · obtain ⟨rfl, -⟩ := Prod.mk.inj h
    exact ⟨⟨_, _, hcounted⟩, .inl hseen⟩
  split at h
  · obtain ⟨rfl, -⟩ := Prod.mk.inj h
    exact ⟨⟨_, _, hcounted⟩, .inl hseen⟩
  split at h
  · rename_i hterminal
    split at h
    · obtain ⟨rfl, -⟩ := Prod.mk.inj h
      exact ⟨⟨_, _, hcounted⟩, .inl hseen⟩
    · obtain ⟨rfl, -⟩ := Prod.mk.inj h
      refine ⟨⟨(drawDrop m.streamDown spec.lossDown).2, some (reasonByte value), ?_⟩, .inr ⟨_, rfl, data, List.mem_singleton_self data, value, hdecode,
        beq_iff_eq.mp hterminal, rfl⟩⟩
      exact congrArg (fun bare : Model => { bare with vehicleSeen := some (reasonByte value) }) hcounted
  · obtain ⟨rfl, -⟩ := Prod.mk.inj h
    exact ⟨⟨_, _, hcounted⟩, .inl hseen⟩

/-- The same of all packets. -/
theorem receivePackets_course {k : ℕ} {packets : List Bytes} {outcome : Except Failure (List Wire.Fields)}
    (h : m.receivePackets spec k packets = (m', outcome)) :
    (∃ streamDown vehicleSeen, m'.bare = { m.bare with streamDown, vehicleSeen }) ∧ SeenFrom m m' packets := by
  induction packets generalizing m m' outcome with
  | nil =>
    obtain ⟨rfl, -⟩ := Prod.mk.inj h
    exact ⟨⟨_, _, rfl⟩, .inl rfl⟩
  | cons data packets ih =>
    rw [receivePackets] at h
    cases hfirst : m.receivePacket spec k data with
    | mk first survivor =>
    rw [hfirst] at h
    obtain ⟨⟨streamDown, vehicleSeen, hbare⟩, hseen⟩ := receivePacket_course hfirst
    have hhead : ∀ d ∈ [data], d ∈ data :: packets := fun d hd => by simp_all
    have hwide : SeenFrom m first (data :: packets) := by
      rcases hseen with hsame | ⟨reason, hsome, htells⟩
      · exact .inl hsame
      · exact .inr ⟨reason, hsome, htells.mono hhead⟩
    cases survivor with
    | error failure =>
      obtain ⟨rfl, -⟩ := Prod.mk.inj h
      exact ⟨⟨_, _, hbare⟩, hwide⟩
    | ok survivor =>
    dsimp only at h
    cases hrest : first.receivePackets spec k packets with
    | mk last survivors =>
    rw [hrest] at h
    obtain ⟨⟨streamDown', vehicleSeen', hbare'⟩, hseen'⟩ := ih hrest
    have hcourse : ∃ streamDown vehicleSeen, last.bare = { m.bare with streamDown, vehicleSeen } := by
      rw [hbare] at hbare'
      exact ⟨_, _, hbare'⟩
    have hlast : SeenFrom m last (data :: packets) := by
      rcases hseen' with hsame | ⟨reason, hsome, htells⟩
      · rcases hwide with hkept | ⟨reason, hsome, htells⟩
        · exact .inl (hsame.trans hkept)
        · exact .inr ⟨reason, hsame.trans hsome, htells⟩
      · exact .inr ⟨reason, hsome, htells.mono fun d hd => List.mem_cons_of_mem data hd⟩
    cases survivors with
    | error failure =>
      obtain ⟨rfl, -⟩ := Prod.mk.inj h
      exact ⟨hcourse, hlast⟩
    | ok survivors =>
      obtain ⟨rfl, -⟩ := Prod.mk.inj h
      exact ⟨hcourse, hlast⟩

/-- A receipt moves the stream of the downlink; if it succeeds, a vehicle's reason that was seen ends the run. -/
theorem receive_course {k : ℕ} {packets : List Bytes} {outcome : Except Failure (Option F64)}
    (h : m.receive spec packets k = (m', outcome)) :
    (∃ streamDown reason vehicleSeen, m'.bare = { m.bare with streamDown, reason, vehicleSeen }) ∧
      SeenFrom m m' packets ∧
      m'.reason =
        if outcome.toOption.isSome && m'.vehicleSeen.isSome then m.reason.or (some .vehicleTerminal) else m.reason := by
  unfold receive at h
  cases hpackets : m.receivePackets spec k packets with
  | mk received survivors =>
  rw [hpackets] at h
  obtain ⟨⟨streamDown, vehicleSeen, hbare⟩, hseen⟩ := receivePackets_course hpackets
  have hreason : received.reason = m.reason := (fields_of_bare hbare).2.2.2.2.2.1
  cases survivors with
  | error failure =>
    obtain ⟨rfl, rfl⟩ := Prod.mk.inj h
    exact ⟨⟨_, _, _, hbare⟩, hseen, hreason⟩
  | ok survivors =>
  dsimp only at h
  cases hsome : received.vehicleSeen.isSome with
  | true =>
    rw [hsome, if_pos rfl] at h
    obtain ⟨rfl, rfl⟩ := Prod.mk.inj h
    have hbare' : Model.bare { received with
        down.superseded := received.down.superseded + survivors.length
        reason := received.reason.or (some .vehicleTerminal) } =
        { m.bare with streamDown, reason := received.reason.or (some .vehicleTerminal), vehicleSeen } :=
      congrArg (fun bare : Model => { bare with reason := received.reason.or (some .vehicleTerminal) }) hbare
    refine ⟨⟨_, _, _, hbare'⟩, hseen, ?_⟩
    dsimp only
    rw [hsome, hreason]
    rfl
  | false =>
    rw [hsome, if_neg Bool.false_ne_true] at h
    split at h
    · obtain ⟨rfl, rfl⟩ := Prod.mk.inj h
      refine ⟨⟨_, _, _, hbare⟩, hseen, ?_⟩
      rw [hsome, hreason]
      rfl
    · obtain ⟨rfl, rfl⟩ := Prod.mk.inj h
      refine ⟨⟨_, _, _, hbare⟩, hseen, ?_⟩
      dsimp only
      rw [hsome, hreason]
      rfl

end Model

/-- What a process keeps of the end of the run. -/
structure Ending where
  reason : Option SimReason := none
  seen : Option ℕ := none
  source : Option Source := none
  beforeNs : ℤ := 0
  terminationNs : ℤ := 0
  cached : Option Bytes := none

namespace Process

variable {p q : Process} {e : SimEvent}

omit [Arith F64] in
/-- The end of the run, as a process knows of it. -/
def ending (p : Process) : Ending :=
  ⟨p.model.reason, p.model.vehicleSeen, p.terminationSource, p.terminationBeforeNs, p.terminationNs, p.cachedTerminal⟩

omit [Arith F64] in
/-- Counting an offer. -/
theorem countOffer_ending (p : Process) (terminal prologue : Bool) (e : SimEvent) :
    (p.countOffer terminal prologue e).ending = p.ending := by
  cases terminal <;> cases prologue <;> rfl

omit [Arith F64] in
/-- Counting a loss. -/
theorem countLost_ending (p : Process) (terminal raw : Bool) : (p.countLost terminal raw).ending = p.ending := by
  cases terminal <;> rfl

omit [Arith F64] in
/-- Counting a send. -/
theorem countSend_ending (p : Process) (frame : Bytes) (terminal raw : Bool) (e : SimEvent) :
    (p.countSend frame terminal raw e).ending = p.ending := by
  unfold countSend
  cases e.sendOk <;> cases terminal <;> cases p.terminalLogged <;> rfl

/-- What an offer does to the end of the run, with its outcome: it is refused, it is ordinary, or it announces
the end with the one frame that does. -/
inductive Offered (p : Process) (tick : ℕ) (sentNs : ℤ) : Bool → Ending → Except Failure (Option Bytes) → Prop
  | refused (terminal : Bool) (failure : Failure) : Offered p tick sentNs terminal p.ending (.error failure)
  | ordinary {handed : Option Bytes}
      (hframe : ∀ f ∈ handed, frameOf tick (observe tick p.model.truth) false p.model.reason sentNs = .ok f) :
      Offered p tick sentNs false p.ending (.ok handed)
  | announced {frame : Bytes} {handed : Option Bytes}
      (hframe : p.cachedTerminal = some frame ∨
        p.cachedTerminal = none ∧ frameOf tick (observe tick p.model.truth) true p.model.reason sentNs = .ok frame)
      (hhanded : ∀ f ∈ handed, f = frame) :
      Offered p tick sentNs true { p.ending with cached := some frame } (.ok handed)

omit [Arith F64] in
/-- An offer does to the end what it does at the same truth and the same end. -/
theorem Offered.congr {p' : Process} {tick : ℕ} {sentNs : ℤ} {terminal : Bool} {ending : Ending}
    {outcome : Except Failure (Option Bytes)} (h : Offered p tick sentNs terminal ending outcome)
    (hending : p.ending = p'.ending) (htruth : p.model.truth = p'.model.truth) :
    Offered p' tick sentNs terminal ending outcome := by
  have hcached : p.cachedTerminal = p'.cachedTerminal := congrArg Ending.cached hending
  have hreason : p.model.reason = p'.model.reason := congrArg Ending.reason hending
  cases h with
  | refused => exact hending ▸ .refused terminal _
  | ordinary hframe =>
    rw [htruth, hreason] at hframe
    exact hending ▸ .ordinary hframe
  | announced hframe hhanded =>
    rw [hcached, htruth, hreason] at hframe
    exact hending ▸ .announced hframe hhanded

omit [Arith F64] in
/-- Preparing a frame, whatever comes of it. -/
theorem prepare_ending {tick : ℕ} {terminal : Bool} {sentNs : ℤ} {outcome : Except Failure Bytes}
    (h : p.prepare tick terminal sentNs = (q, outcome)) :
    Offered p tick sentNs terminal q.ending (outcome.map some) ∧ q.phase = p.phase := by
  unfold prepare at h
  split at h
  · rename_i frame hcached
    obtain ⟨rfl, rfl⟩ := Prod.mk.inj h
    refine ⟨?_, rfl⟩
    cases terminal with
    | false => nomatch hcached
    | true =>
      have hcached : p.cachedTerminal = some frame := hcached
      have hsame : p.ending = { p.ending with cached := some frame } := by rw [← hcached]; rfl
      rw [hsame]
      exact .announced (.inl hcached) fun f hf => (Option.some.inj hf).symm
  · rename_i hcached
    split at h
    · obtain ⟨rfl, rfl⟩ := Prod.mk.inj h
      exact ⟨.refused terminal _, rfl⟩
    · rename_i frame hframe
      obtain ⟨rfl, rfl⟩ := Prod.mk.inj h
      cases terminal with
      | false => exact ⟨.ordinary fun f hf => Option.some.inj hf ▸ hframe, rfl⟩
      | true => exact ⟨.announced (.inr ⟨hcached, hframe⟩) fun f hf => (Option.some.inj hf).symm, rfl⟩

omit [Arith F64] in
/-- A frame may be withheld. -/
theorem Offered.withheld {tick : ℕ} {sentNs : ℤ} {terminal : Bool} {ending : Ending} {handed : Option Bytes}
    (h : Offered p tick sentNs terminal ending (.ok handed)) : Offered p tick sentNs terminal ending (.ok none) := by
  cases h with
  | ordinary => exact .ordinary nofun
  | announced hframe => exact .announced hframe nofun

omit [Arith F64] in
/-- An ordinary offer may be refused in the end. -/
theorem Offered.dropped {tick : ℕ} {sentNs : ℤ} {ending : Ending} {handed : Option Bytes}
    (h : Offered p tick sentNs false ending (.ok handed)) (failure : Failure) :
    Offered p tick sentNs false ending (.error failure) := by
  cases h with
  | ordinary => exact .refused false failure

omit [Arith F64] in
/-- A refused offer leaves the end. -/
theorem Offered.of_error {tick : ℕ} {sentNs : ℤ} {terminal : Bool} {ending : Ending} {failure : Failure}
    (h : Offered p tick sentNs terminal ending (.error failure)) : ending = p.ending := by
  cases h with
  | refused => rfl

omit [Arith F64] in
/-- An ordinary offer leaves the end. -/
theorem Offered.of_ordinary {tick : ℕ} {sentNs : ℤ} {ending : Ending} {handed : Option Bytes}
    (h : Offered p tick sentNs false ending (.ok handed)) :
    ending = p.ending ∧
      ∀ f ∈ handed, frameOf tick (observe tick p.model.truth) false p.model.reason sentNs = .ok f := by
  cases h with
  | ordinary hframe => exact ⟨rfl, hframe⟩

omit [Arith F64] in
/-- An offer of the end makes the frame once. -/
theorem Offered.of_terminal {tick : ℕ} {sentNs : ℤ} {ending : Ending} {handed : Option Bytes}
    (h : Offered p tick sentNs true ending (.ok handed)) : ∃ frame,
      ending = { p.ending with cached := some frame } ∧
      (p.cachedTerminal = some frame ∨
        p.cachedTerminal = none ∧ frameOf tick (observe tick p.model.truth) true p.model.reason sentNs = .ok frame) ∧
      ∀ f ∈ handed, f = frame := by
  cases h with
  | announced hframe hhanded => exact ⟨_, rfl, hframe, hhanded⟩

/-- An offer; the first one is ordinary. -/
theorem offer_ending {tick : ℕ} {terminal prologue : Bool} {outcome : Except Failure (Option Bytes)}
    (hfirst : prologue = true → terminal = false) (h : p.offer spec tick terminal prologue e = (q, outcome)) :
    Offered p tick e.sentNs terminal q.ending outcome ∧ q.phase = p.phase := by
  unfold offer at h
  dsimp only at h
  generalize hloss : Model.loss spec
      { p.model with
        events.sensorObservations :=
          p.model.events.sensorObservations + (!terminal || p.cachedTerminal.isNone).toNat } .up tick terminal prologue =
      lost at h
  obtain ⟨model, outcome'⟩ := lost
  have hmodel := Model.loss_model hloss
  have hbare : model.bare = { p.model.bare with streamUp := (drawDrop p.model.streamUp spec.lossUp).2 } := by
    rw [hmodel]
    exact Model.draw_up ..
  obtain ⟨htruth, -, -, -, -, hreason, hseen⟩ := Model.fields_of_bare hbare
  have htruth : model.truth = p.model.truth := htruth
  have hreason : model.reason = p.model.reason := hreason
  have hseen : model.vehicleSeen = p.model.vehicleSeen := hseen
  clear hmodel hbare hloss
  cases outcome' with
  | error failure =>
    obtain ⟨rfl, rfl⟩ := Prod.mk.inj h
    refine ⟨?_, rfl⟩
    have hsame : Process.ending { p with model } = p.ending := by
      unfold ending
      rw [hreason, hseen]
    rw [show ending _ = p.ending from hsame]
    exact .refused terminal failure
  | ok decided =>
  obtain ⟨raw, drop⟩ := decided
  dsimp only at h
  generalize hdrawn : Process.mk .. = drawn at h
  have hending : drawn.ending = p.ending := by
    rw [← hdrawn]
    unfold ending
    rw [hreason, hseen]
  have hphase : drawn.phase = p.phase := by rw [← hdrawn]
  have hmodel : drawn.model = model := by rw [← hdrawn]
  clear hdrawn
  have hcounted : (drawn.countOffer terminal prologue e).ending = p.ending := (countOffer_ending ..).trans hending
  have hsame : SameCourse drawn (drawn.countOffer terminal prologue e) := drawn.sameCourse_countOffer terminal prologue e
  have htruth : (drawn.countOffer terminal prologue e).model.truth = p.model.truth := by
    rw [← htruth, ← hmodel]
    exact (Model.fields_of_bare hsame.1).1
  generalize drawn.countOffer terminal prologue e = counted at h hcounted hsame htruth
  cases hprepare : counted.prepare tick terminal e.sentNs with
  | mk prepared outcome' =>
  rw [hprepare] at h
  obtain ⟨hoffered, hprepared⟩ := prepare_ending hprepare
  have hoffered := hoffered.congr hcounted htruth
  have hprepared := hprepared.trans (hsame.2.trans hphase)
  cases outcome' with
  | error failure =>
    obtain ⟨rfl, rfl⟩ := Prod.mk.inj h
    exact ⟨hoffered, hprepared⟩
  | ok frame =>
  dsimp only at h
  cases drop with
  | true =>
    obtain ⟨rfl, rfl⟩ := Prod.mk.inj h
    rw [countLost_ending]
    exact ⟨hoffered.withheld, ((prepared.sameCourse_countLost terminal raw).2).trans hprepared⟩
  | false =>
    rw [if_neg Bool.false_ne_true] at h
    obtain ⟨rfl, rfl⟩ := Prod.mk.inj h
    have hstamped : (if terminal && prepared.firstTerminalSend == 0 then
        { prepared with firstTerminalSend := e.sentNs } else prepared).ending = prepared.ending ∧
        (if terminal && prepared.firstTerminalSend == 0 then
          { prepared with firstTerminalSend := e.sentNs } else prepared).phase = prepared.phase := by
      split <;> exact ⟨rfl, rfl⟩
    generalize (if terminal && prepared.firstTerminalSend == 0 then
      { prepared with firstTerminalSend := e.sentNs } else prepared) = stamped at hstamped ⊢
    refine ⟨?_, (sameCourse_countSend stamped frame terminal raw e).2.trans (hstamped.2.trans hprepared)⟩
    rw [countSend_ending, hstamped.1]
    split
    · rename_i hfailed
      obtain rfl := hfirst (Bool.and_eq_true_iff.mp hfailed).1
      exact hoffered.dropped _
    · exact hoffered

/-! ## A turn -/

omit [Arith F64] in
/-- The reason stays, or is that of a process that found none. -/
def ReasonFrom (p : Process) (reason : Option SimReason) : Prop :=
  reason = p.model.reason ∨ p.model.reason = none ∧ reason = some .peerLost

omit [Arith F64] in
/-- The end of the process. -/
theorem finish_ending (p : Process) (code : ℕ) :
    ∃ reason, ReasonFrom p reason ∧ (p.finish code).ending = { p.ending with reason } := by
  refine ⟨_, ?_, rfl⟩
  unfold ReasonFrom finish
  cases p.model.reason with
  | none => exact .inr ⟨rfl, rfl⟩
  | some reason => exact .inl rfl

omit [Arith F64] in
/-- An exception that ends the process. -/
theorem fail_ending (p : Process) (failure : Failure) :
    ∃ reason, ReasonFrom p reason ∧ (p.fail failure).ending = { p.ending with reason } := by
  unfold fail
  dsimp only
  split
  · exact ⟨p.model.reason, .inl rfl, rfl⟩
  · exact finish_ending { p with error := some failure } failure.code

omit [Arith F64] in
/-- A process that an exception has ended. -/
theorem fail_phase (p : Process) (failure : Failure) : (p.fail failure).phase = .finished failure.code := by
  unfold fail
  dsimp only
  split <;> rfl

/-- What a process knows of the end by where it stands. -/
structure Standing (p : Process) : Prop where
  first : p.phase = .prologue → p.ending = {}
  body : ∀ k, p.phase = .body k → p.ending = {}
  grace : ∀ tick offset, p.phase = .grace tick offset →
    p.model.reason.isSome = true ∧ p.model.vehicleSeen = none ∧ p.terminationSource = some .simulator ∧
      p.cachedTerminal.isSome = true

omit [Arith F64] in
/-- A process that has finished. -/
theorem standing_finished {code : ℕ} (h : p.phase = .finished code) : Standing p where
  first hphase := absurd (h.symm.trans hphase) (by simp)
  body k hphase := absurd (h.symm.trans hphase) (by simp)
  grace tick offset hphase := absurd (h.symm.trans hphase) (by simp)

/-- What a turn does to the end of the run, with the frame it hands to the socket: nothing, but that the process may
stop and may have seen the vehicle's reason; an ordinary frame; the vehicle's end; its own; or one more copy. -/
inductive Turned (spec : Scenario F64) (p : Process) (e : SimEvent) : Ending → Option Bytes → Prop
  | quiet {seen : Option ℕ} {reason : Option SimReason}
      (hseen : seen = p.model.vehicleSeen ∨ ∃ packets r, e.drained = .ok packets ∧ seen = some r ∧ Tells packets r)
      (hreason : ReasonFrom p reason) :
      Turned spec p e { p.ending with seen, reason } none
  | ordinary {tick : ℕ} {truth : TruthState F64} {handed : Option Bytes} (hopen : p.ending = {})
      (hfirst : p.phase = .prologue → tick = 0 ∧ truth = p.model.truth)
      (hlater : p.phase ≠ .prologue → Plant.lossOfControl truth = none)
      (hframe : ∀ f ∈ handed, frameOf tick (observe tick truth) false none e.sentNs = .ok f) :
      Turned spec p e {} handed
  | told {packets : List Bytes} {r : ℕ} (hopen : p.ending = {}) (hdrained : e.drained = .ok packets)
      (htells : Tells packets r) :
      Turned spec p e ⟨some .vehicleTerminal, some r, some .vehicle, e.receiveStartedNs, e.receiveEndedNs, none⟩ none
  | ended {k : ℕ} {truth : TruthState F64} {reason : SimReason} {cached handed : Option Bytes} (hopen : p.ending = {})
      (hphase : p.phase = .body k) (hreason : Model.reasonAfter spec truth k = some reason)
      (hframe : ∀ f ∈ cached, frameOf (k + 1) (observe (k + 1) truth) true (some reason) e.sentNs = .ok f)
      (hhanded : ∀ f ∈ handed, cached = some f) :
      Turned spec p e ⟨some reason, none, some .simulator, e.advanceStartedNs, e.advanceEndedNs, cached⟩ handed
  | repeated {handed : Option Bytes} (hhanded : ∀ f ∈ handed, p.cachedTerminal = some f) :
      Turned spec p e p.ending handed

/-- An exception that ends the process leaves the rest of what it keeps. -/
theorem turned_failed {failed : Process} {seen : Option ℕ} (failure : Failure)
    (hending : failed.ending = { p.ending with seen })
    (hseen : seen = p.model.vehicleSeen ∨ ∃ packets r, e.drained = .ok packets ∧ seen = some r ∧ Tells packets r) :
    Turned spec p e (failed.fail failure).ending none := by
  obtain ⟨reason, hreason, hfailed⟩ := fail_ending failed failure
  have hsame : failed.model.reason = p.model.reason := congrArg Ending.reason hending
  rw [hfailed, hending]
  refine .quiet hseen ?_
  unfold ReasonFrom at hreason ⊢
  rwa [hsame] at hreason

/-- The first turn. -/
theorem prologue_ending {handed : Option Bytes} (h : p.prologue spec e = (q, handed)) (hstanding : Standing p)
    (hphase : p.phase = .prologue) : Turned spec p e q.ending handed ∧ Standing q := by
  unfold prologue at h
  have hopen := hstanding.first hphase
  have hreason : p.model.reason = none := congrArg Ending.reason hopen
  generalize hoffer : p.offer spec 0 false true e = offered at h
  obtain ⟨sent, outcome⟩ := offered
  obtain ⟨hoffered, -⟩ := offer_ending (fun _ => rfl) hoffer
  cases outcome with
  | error failure =>
    obtain ⟨rfl, rfl⟩ := Prod.mk.inj h
    exact ⟨turned_failed failure hoffered.of_error (.inl rfl), standing_finished (fail_phase sent failure)⟩
  | ok frame =>
    obtain ⟨rfl, rfl⟩ := Prod.mk.inj h
    obtain ⟨hsame, hframe⟩ := hoffered.of_ordinary
    have hsent : ∀ rows phase, Process.ending { sent with rows, phase } = {} := fun _ _ => hsame.trans hopen
    refine ⟨?_, fun _ => hsent _ _, fun _ _ => hsent _ _, fun _ _ hgrace => absurd hgrace (by simp)⟩
    rw [hreason] at hframe
    rw [hsent]
    exact .ordinary hopen (fun _ => ⟨rfl, rfl⟩) (fun hlater => absurd hphase hlater) hframe

omit [Arith F64] in
/-- Noting a plant step notes the end of the run with it. -/
theorem noteAdvance_ending (p : Process) (k : ℕ) (model : Model) (selected arriving : Option F64) (e : SimEvent) :
    (p.noteAdvance k model selected arriving e).ending =
        { reason := model.reason
          seen := model.vehicleSeen
          source := if model.reason.isSome then some .simulator else p.terminationSource
          beforeNs := if model.reason.isSome then e.advanceStartedNs else p.terminationBeforeNs
          terminationNs := if model.reason.isSome then e.advanceEndedNs else p.terminationNs
          cached := p.cachedTerminal } ∧
      (p.noteAdvance k model selected arriving e).model = model := by
  unfold noteAdvance
  cases model.reason.isSome <;> exact ⟨rfl, rfl⟩

/-- A plant step that is refused, or one that is taken. -/
theorem advance_course {k : ℕ} {m m' : Model} {selected : Option F64} {outcome : Except Failure (Option F64)}
    (h : m.advance spec k selected = (m', outcome)) :
    m'.vehicleSeen = m.vehicleSeen ∧
      m'.reason = if outcome.toOption.isSome then Model.reasonAfter spec m'.truth k else m.reason := by
  unfold Model.advance at h
  split at h
  · obtain ⟨rfl, rfl⟩ := Prod.mk.inj h
    exact ⟨rfl, rfl⟩
  · dsimp only at h
    split at h
    · obtain ⟨rfl, rfl⟩ := Prod.mk.inj h
      exact ⟨rfl, rfl⟩
    · obtain ⟨rfl, rfl⟩ := Prod.mk.inj h
      exact ⟨rfl, rfl⟩

/-- A body from the plant step on. -/
theorem advance_ending {before : Process} {k : ℕ} {selected : Option F64} {handed : Option Bytes}
    (h : before.advance spec k selected e = (q, handed)) (hopen : p.ending = {}) (hbefore : before.ending = {})
    (hphase : p.phase = .body k) : Turned spec p e q.ending handed ∧ Standing q := by
  unfold advance at h
  have hseen : before.model.vehicleSeen = none := congrArg Ending.seen hbefore
  have hreason : before.model.reason = none := congrArg Ending.reason hbefore
  have hcached : before.cachedTerminal = none := congrArg Ending.cached hbefore
  generalize hmoved : before.model.advance spec k selected = moved at h
  obtain ⟨model, outcome⟩ := moved
  obtain ⟨hkept, hafter⟩ := advance_course hmoved
  rw [hseen] at hkept
  rw [hreason] at hafter
  cases outcome with
  | error failure =>
    obtain ⟨rfl, rfl⟩ := Prod.mk.inj h
    refine ⟨turned_failed failure ?_ (.inl rfl), standing_finished (fail_phase _ failure)⟩
    rw [hopen, ← hbefore]
    unfold ending
    rw [show model.reason = before.model.reason from hafter.trans hreason.symm, show p.model.vehicleSeen = none from
      congrArg Ending.seen hopen, hkept]
  | ok arriving =>
  have hafter : model.reason = Model.reasonAfter spec model.truth k := hafter
  dsimp only at h
  obtain ⟨hnoted, hmodel⟩ := noteAdvance_ending before k model selected arriving e
  generalize before.noteAdvance k model selected arriving e = noted at h hnoted hmodel
  rw [hkept, hcached] at hnoted
  generalize hoffer : noted.offer spec (k + 1) model.reason.isSome false e = offered at h
  obtain ⟨sent, outcome⟩ := offered
  obtain ⟨hoffered, -⟩ := offer_ending (fun hfirst => absurd hfirst Bool.false_ne_true) hoffer
  cases hended : model.reason with
  | none =>
    rw [hended] at hoffered hnoted
    have hnoted : noted.ending = {} := by
      have hsource : before.terminationSource = none := congrArg Ending.source hbefore
      have hbeforeNs : before.terminationBeforeNs = 0 := congrArg Ending.beforeNs hbefore
      have hterminationNs : before.terminationNs = 0 := congrArg Ending.terminationNs hbefore
      rw [hnoted, hsource, hbeforeNs, hterminationNs]
      rfl
    cases outcome with
    | error failure =>
      obtain ⟨rfl, rfl⟩ := Prod.mk.inj h
      refine ⟨turned_failed failure ?_ (.inl rfl), standing_finished (fail_phase sent failure)⟩
      rw [hoffered.of_error, hnoted, show p.model.vehicleSeen = none from congrArg Ending.seen hopen, hopen]
    | ok frame =>
      obtain ⟨rfl, rfl⟩ := Prod.mk.inj h
      obtain ⟨hsame, hframe⟩ := hoffered.of_ordinary
      have hsent : ∀ phase, Process.ending { sent with phase } = {} := fun _ => hsame.trans hnoted
      refine ⟨?_, fun _ => hsent _, fun _ _ => hsent _, fun _ _ hgrace => absurd hgrace (by simp [hended])⟩
      have hcontrol : Plant.lossOfControl model.truth = none := by
        rw [hended] at hafter
        exact (Option.or_eq_none_iff.mp hafter.symm).1
      rw [hmodel, hended] at hframe
      rw [hsent]
      exact .ordinary hopen (fun hfirst => absurd (hphase.symm.trans hfirst) (by simp)) (fun _ => hcontrol) hframe
  | some reason =>
    rw [hended] at hoffered hnoted hafter
    cases outcome with
    | error failure =>
      obtain ⟨rfl, rfl⟩ := Prod.mk.inj h
      refine ⟨?_, standing_finished (fail_phase sent failure)⟩
      obtain ⟨reason', hfrom, hfailed⟩ := fail_ending sent failure
      have hsent : sent.ending = noted.ending := hoffered.of_error
      have hkept : reason' = some reason := by
        have hsome : sent.model.reason = some reason := by
          have hsame := congrArg Ending.reason hsent
          rw [hnoted] at hsame
          exact hsame
        rcases hfrom with hsame | ⟨hnone, -⟩
        · rw [hsame, hsome]
        · nomatch hsome.symm.trans hnone
      rw [hfailed, hsent, hnoted, hkept]
      exact .ended hopen hphase hafter.symm nofun nofun
    | ok frame =>
      obtain ⟨rfl, rfl⟩ := Prod.mk.inj h
      obtain ⟨made, hsame, hmade, hframe⟩ := hoffered.of_terminal
      have hnone : noted.cachedTerminal = none := by
        have hsame := congrArg Ending.cached hnoted
        exact hsame
      have hmade : frameOf (k + 1) (observe (k + 1) model.truth) true (some reason) e.sentNs = .ok made := by
        rcases hmade with hsome | ⟨-, hmade⟩
        · nomatch hnone.symm.trans hsome
        · rw [hmodel, hended] at hmade
          exact hmade
      have hsent : ∀ phase, Process.ending { sent with phase } =
          ⟨some reason, none, some .simulator, e.advanceStartedNs, e.advanceEndedNs, some made⟩ := fun _ => by
        refine hsame.trans ?_
        rw [hnoted]
        rfl
      rw [hsent]
      refine ⟨.ended hopen hphase hafter.symm (fun f hf => Option.some.inj hf ▸ hmade) fun f hf => by rw [hframe f hf],
        fun hfirst => absurd hfirst (by simp [hended]), fun k' hbody => absurd hbody (by simp [hended]),
        fun tick offset _ => ?_⟩
      refine ⟨?_, congrArg Ending.seen (hsent _), congrArg Ending.source (hsent _), ?_⟩
      · rw [show sent.model.reason = some reason from congrArg Ending.reason (hsent .prologue)]
        rfl
      · rw [show sent.cachedTerminal = some made from congrArg Ending.cached (hsent .prologue)]
        rfl

/-- A body. -/
theorem body_ending {k : ℕ} {handed : Option Bytes} (h : p.body spec k e = (q, handed)) (hstanding : Standing p)
    (hphase : p.phase = .body k) : Turned spec p e q.ending handed ∧ Standing q := by
  unfold body at h
  have hopen := hstanding.body k hphase
  have hunseen : p.model.vehicleSeen = none := congrArg Ending.seen hopen
  have hliving : p.model.reason = none := congrArg Ending.reason hopen
  have hfailed (failure : Failure) : Turned spec p e (p.fail failure).ending none ∧ Standing (p.fail failure) :=
    ⟨turned_failed failure rfl (.inl rfl), standing_finished (fail_phase p failure)⟩
  split at h
  · obtain ⟨rfl, rfl⟩ := Prod.mk.inj h
    exact hfailed _
  · obtain ⟨rfl, rfl⟩ := Prod.mk.inj h
    exact hfailed _
  · rename_i packets _ hdrained
    dsimp only at h
    generalize hreceived : Model.receive spec (p.noteDrain packets e).model packets k = received at h
    obtain ⟨model, outcome⟩ := received
    obtain ⟨-, hseen, hreason⟩ := Model.receive_course hreceived
    have hreason : model.reason =
        if outcome.toOption.isSome && model.vehicleSeen.isSome then some .vehicleTerminal else none := by
      rw [hreason, show (p.noteDrain packets e).model.reason = none from hliving]
      rfl
    have hheard : model.vehicleSeen = p.model.vehicleSeen ∨
        ∃ packets r, e.drained = .ok packets ∧ model.vehicleSeen = some r ∧ Tells packets r :=
      hseen.imp id fun ⟨r, hsome, htells⟩ => ⟨packets, r, hdrained, hsome, htells⟩
    have hending (m : Model) (hm : m.reason = none) : Process.ending { p.noteDrain packets e with model := m } =
        { p.ending with seen := m.vehicleSeen } := by
      have hsame : m.reason = p.model.reason := hm.trans hliving.symm
      unfold ending noteDrain
      rw [hsame]
    cases outcome with
    | error failure =>
      obtain ⟨rfl, rfl⟩ := Prod.mk.inj h
      exact ⟨turned_failed failure (hending model hreason) hheard, standing_finished (fail_phase _ failure)⟩
    | ok selected =>
    dsimp only at h
    cases hsome : model.vehicleSeen with
    | some r =>
      rw [hsome] at hreason h
      obtain ⟨rfl, rfl⟩ := Prod.mk.inj h
      refine ⟨?_, standing_finished rfl⟩
      have htells : Tells packets r := by
        rcases hseen with hsame | ⟨r', hsome', htells⟩
        · nomatch (hsame.symm.trans hsome).symm.trans hunseen
        · exact Option.some.inj (hsome.symm.trans hsome') ▸ htells
      have hcached : p.cachedTerminal = none := congrArg Ending.cached hopen
      have hend : (Process.finish
          { p.noteDrain packets e with
            model
            terminationNs := e.receiveEndedNs
            terminationBeforeNs := e.receiveStartedNs
            terminationSource := some .vehicle } 0).ending =
          ⟨some .vehicleTerminal, some r, some .vehicle, e.receiveStartedNs, e.receiveEndedNs, none⟩ := by
        unfold finish ending noteDrain
        rw [hreason, hsome, hcached]
        rfl
      refine Eq.subst (motive := fun ending => Turned spec p e ending none) hend.symm ?_
      exact .told hopen hdrained htells
    | none =>
      rw [hsome] at hreason h
      have hreason : model.reason = none := by simpa using hreason
      have hbefore := hending model hreason
      rw [hsome, hopen] at hbefore
      exact advance_ending h hopen hbefore hphase

/-- A turn of the grace period. -/
theorem grace_ending {copies tick offset : ℕ} {handed : Option Bytes}
    (h : p.grace spec copies tick offset e = (q, handed)) (hstanding : Standing p)
    (hphase : p.phase = .grace tick offset) : Turned spec p e q.ending handed ∧ Standing q := by
  unfold grace at h
  obtain ⟨hreasoned, hunseen, hsource, hcached⟩ := hstanding.grace tick offset hphase
  obtain ⟨reason, hreasoned⟩ := Option.isSome_iff_exists.mp hreasoned
  have hfailed (failure : Failure) : Turned spec p e (p.fail failure).ending none ∧ Standing (p.fail failure) :=
    ⟨turned_failed failure rfl (.inl rfl), standing_finished (fail_phase p failure)⟩
  split at h
  · obtain ⟨rfl, rfl⟩ := Prod.mk.inj h
    exact hfailed _
  · obtain ⟨rfl, rfl⟩ := Prod.mk.inj h
    exact hfailed _
  · rename_i packets _ hdrained
    dsimp only at h
    generalize hreceived : Model.receive spec (p.noteDrain packets e).model packets tick = received at h
    obtain ⟨model, outcome⟩ := received
    obtain ⟨-, hseen, hreason⟩ := Model.receive_course hreceived
    have hreason : model.reason = p.model.reason := by
      rw [hreason, show (p.noteDrain packets e).model.reason = some reason from hreasoned, hreasoned]
      split <;> rfl
    have hheard : model.vehicleSeen = p.model.vehicleSeen ∨
        ∃ packets r, e.drained = .ok packets ∧ model.vehicleSeen = some r ∧ Tells packets r :=
      hseen.imp id fun ⟨r, hsome, htells⟩ => ⟨packets, r, hdrained, hsome, htells⟩
    have hending : Process.ending { p.noteDrain packets e with model } =
        { p.ending with seen := model.vehicleSeen } := by
      unfold ending noteDrain
      rw [hreason]
    cases outcome with
    | error failure =>
      obtain ⟨rfl, rfl⟩ := Prod.mk.inj h
      exact ⟨turned_failed failure hending hheard, standing_finished (fail_phase _ failure)⟩
    | ok selected =>
    dsimp only at h
    generalize hheld : ({ p.noteDrain packets e with model } : Process) = held at h hending
    have hmodel : held.model = model := by rw [← hheld]
    rw [← hmodel] at hheard
    cases hsome : model.vehicleSeen with
    | some r =>
      rw [hsome, Option.isSome_some, if_pos rfl] at h
      obtain ⟨rfl, rfl⟩ := Prod.mk.inj h
      refine ⟨?_, standing_finished rfl⟩
      obtain ⟨reason', hfrom, hfinished⟩ := finish_ending held 0
      have hsame : held.model.reason = p.model.reason := congrArg Ending.reason hending
      rw [hfinished, hending, ← hmodel]
      refine .quiet hheard ?_
      unfold ReasonFrom at hfrom ⊢
      rwa [hsame] at hfrom
    | none =>
      rw [hsome, Option.isSome_none, if_neg Bool.false_ne_true] at h
      have hending : held.ending = p.ending := by
        rw [hending, hsome, ← hunseen]
        rfl
      have hstands {sent : Process} (hsent : sent.ending = p.ending) (phase : SimPhase)
          (hlater : phase = .grace tick (offset + 1)) : Standing { sent with phase } := by
        refine ⟨fun hfirst => absurd hfirst (by simp [hlater]), fun k hbody => absurd hbody (by simp [hlater]), fun _ _ _ => ?_⟩
        refine ⟨?_, (congrArg Ending.seen hsent).trans hunseen, (congrArg Ending.source hsent).trans hsource, ?_⟩
        · rw [show sent.model.reason = p.model.reason from congrArg Ending.reason hsent, hreasoned]
          rfl
        · rwa [show sent.cachedTerminal = p.cachedTerminal from congrArg Ending.cached hsent]
      split at h
      · generalize hoffer : held.offer spec (tick + 1) true false e = offered at h
        obtain ⟨sent, outcome⟩ := offered
        obtain ⟨hoffered, -⟩ := offer_ending (fun hfirst => absurd hfirst Bool.false_ne_true) hoffer
        cases outcome with
        | error failure =>
          obtain ⟨rfl, rfl⟩ := Prod.mk.inj h
          exact ⟨turned_failed failure (hoffered.of_error.trans hending) (.inl rfl),
            standing_finished (fail_phase sent failure)⟩
        | ok frame =>
          obtain ⟨rfl, rfl⟩ := Prod.mk.inj h
          obtain ⟨made, hsame, hmade, hframe⟩ := hoffered.of_terminal
          have hcopied : held.cachedTerminal = p.cachedTerminal := congrArg Ending.cached hending
          have hmade : p.cachedTerminal = some made := by
            rcases hmade with hmade | ⟨hnone, -⟩
            · exact hcopied.symm.trans hmade
            · rw [← hcopied, hnone] at hcached
              nomatch hcached
          have hsent : sent.ending = p.ending := by
            rw [hsame, hending, ← hmade]
            rfl
          have hlast : ∀ phase, Process.ending { sent with phase } = p.ending := fun _ => hsent
          refine ⟨?_, hstands hsent _ rfl⟩
          rw [hlast]
          exact .repeated fun f hf => hframe f hf ▸ hmade
      · subst hheld
        obtain ⟨rfl, rfl⟩ := Prod.mk.inj h
        have hlast : ∀ phase, Process.ending { p.noteDrain packets e with model, phase } = p.ending := fun _ => hending
        refine ⟨?_, hstands hending _ rfl⟩
        rw [hlast]
        exact .repeated nofun

/-- A turn. -/
theorem turn_ending {copies : ℕ} {handed : Option Bytes} (h : p.turn spec copies e = (q, handed))
    (hstanding : Standing p) : Turned spec p e q.ending handed ∧ Standing q := by
  have hfinished (code : ℕ) : Turned spec p e (p.finish code).ending none ∧ Standing (p.finish code) := by
    obtain ⟨reason, hreason, hfinished⟩ := finish_ending p code
    refine ⟨?_, standing_finished rfl⟩
    rw [hfinished]
    exact .quiet (.inl rfl) hreason
  unfold turn at h
  split at h
  · exact prologue_ending h hstanding ‹_›
  · rename_i k hphase
    split at h
    · exact body_ending h hstanding hphase
    · obtain ⟨rfl, rfl⟩ := Prod.mk.inj h
      exact hfinished 0
  · rename_i tick offset hphase
    split at h
    · exact grace_ending h hstanding hphase
    · obtain ⟨rfl, rfl⟩ := Prod.mk.inj h
      exact hfinished 3
  · obtain ⟨rfl, rfl⟩ := Prod.mk.inj h
    exact ⟨.repeated nofun, hstanding⟩

end Process

end Tvc.Freerun
