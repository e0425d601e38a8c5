import Tvc.Freerun.Draws
import Tvc.Freerun.VehicleCopies

/-!
# What the simulator counts of the terminal exchange

The simulator counts the replies of the vehicle's end that a drain brings, in the turn after it, unless their receipt
raises an exception. Of its own terminal frame it counts the copies that were sent, with the time of the last.
-/

namespace Tvc.Freerun

/-! ## What a receipt of the simulator counts -/

variable [Arith F64] {spec : Scenario F64}

namespace Model

variable {m m' : Model}

omit [Arith F64] in
/-- What a receipt does to the counters of the exchange; one that raises nothing counts every reply of the end. -/
structure Hears (m m' : Model) (ok : Bool) (packets : List Bytes) : Prop where
  transmitted : m'.term.upTransmitted = m.term.upTransmitted
  received : m.term.downReceivedRaw ≤ m'.term.downReceivedRaw
  survived : m.term.downSurvived ≤ m'.term.downSurvived
  counted : ok = true → m'.term.downReceivedRaw = m.term.downReceivedRaw + packets.countP endReply

omit [Arith F64] in
/-- What leaves the counters, where no reply of the end was taken or an exception was raised. -/
theorem Hears.of_term {ok : Bool} {packets : List Bytes} (hterm : m'.term = m.term)
    (hnone : ok = true → packets.countP endReply = 0) : Hears m m' ok packets := by
  refine ⟨?_, ?_, ?_, fun hok => ?_⟩
  · rw [hterm]
  · rw [hterm]
  · rw [hterm]
  · rw [hterm, hnone hok]
    rfl

/-- One packet. -/
theorem receivePacket_hears {k : ℕ} {data : Bytes} {outcome : Except Failure (Option Wire.Fields)}
    (h : m.receivePacket spec k data = (m', outcome)) : Hears m m' outcome.toOption.isSome [data] := by
  unfold receivePacket at h
  have hreply : endReply data = ((decodeReply data).toOption.any fun value => stateByte value == 3) := by
    unfold endReply
    cases decodeReply data <;> rfl
  cases hdecode : decodeReply data with
  | error failure =>
    rw [hdecode] at h hreply
    obtain ⟨rfl, -⟩ := Prod.mk.inj h
    exact .of_term rfl fun _ => by rw [List.countP_singleton, hreply]; rfl
  | ok value =>
  rw [hdecode] at h hreply
  have hreply : endReply data = (stateByte value == 3) := hreply
  dsimp only at h
  cases hloss : m.loss spec .down k (stateByte value == 3) false with
  | mk drawn result =>
  rw [hloss] at h
  have hdrawn : drawn.term = m.term := by
    rw [loss_model hloss, draw_reply]
  cases result with
  | error failure =>
    obtain ⟨rfl, rfl⟩ := Prod.mk.inj h
    exact .of_term hdrawn nofun
  | ok decided =>
  obtain ⟨raw, drop⟩ := decided
  dsimp only at h
  have hcounted : Hears m (drawn.countReceived value (stateByte value == 3) drop) true [data] := by
    rw [← hreply]
    unfold countReceived
    cases hends : endReply data with
    | false => exact .of_term hdrawn fun _ => by rw [List.countP_singleton, hends]; rfl
    | true =>
      rw [if_pos rfl]
      refine ⟨?_, ?_, ?_, fun _ => ?_⟩
      all_goals dsimp only
      all_goals rw [hdrawn]
      · exact Nat.le_succ _
      · exact Nat.le_add_right ..
      · rw [List.countP_singleton, if_pos hends]
  generalize drawn.countReceived value (stateByte value == 3) drop = counted at h hcounted
  split at h
  · obtain ⟨rfl, rfl⟩ := Prod.mk.inj h
    exact hcounted
  split at h
  · obtain ⟨rfl, rfl⟩ := Prod.mk.inj h
    exact ⟨hcounted.transmitted, hcounted.received, hcounted.survived, nofun⟩
  split at h
  · split at h
    · obtain ⟨rfl, rfl⟩ := Prod.mk.inj h
      exact ⟨hcounted.transmitted, hcounted.received, hcounted.survived, nofun⟩
    · obtain ⟨rfl, rfl⟩ := Prod.mk.inj h
      exact ⟨hcounted.transmitted, hcounted.received, hcounted.survived, hcounted.counted⟩
  · obtain ⟨rfl, rfl⟩ := Prod.mk.inj h
    exact hcounted

/-- All packets, in order. -/
theorem receivePackets_hears {k : ℕ} {packets : List Bytes} {outcome : Except Failure (List Wire.Fields)}
    (h : m.receivePackets spec k packets = (m', outcome)) : Hears m m' outcome.toOption.isSome packets := by
  induction packets generalizing m m' outcome with
  | nil =>
    obtain ⟨rfl, -⟩ := Prod.mk.inj h
    exact .of_term rfl fun _ => rfl
  | cons data packets ih =>
    rw [receivePackets] at h
    cases hfirst : m.receivePacket spec k data with
    | mk first survivor =>
    rw [hfirst] at h
    have hone := receivePacket_hears hfirst
    cases survivor with
    | error failure =>
      obtain ⟨rfl, rfl⟩ := Prod.mk.inj h
      exact ⟨hone.transmitted, hone.received, hone.survived, fun hok => absurd hok Bool.false_ne_true⟩
    | ok survivor =>
    dsimp only at h
    cases hrest : first.receivePackets spec k packets with
    | mk last survivors =>
    rw [hrest] at h
    have hmore := ih hrest
    have htransmitted := hmore.transmitted.trans hone.transmitted
    have hreceived := hone.received.trans hmore.received
    have hsurvived := hone.survived.trans hmore.survived
    cases survivors with
    | error failure =>
      obtain ⟨rfl, rfl⟩ := Prod.mk.inj h
      exact ⟨htransmitted, hreceived, hsurvived, fun hok => absurd hok Bool.false_ne_true⟩
    | ok survivors =>
      obtain ⟨rfl, rfl⟩ := Prod.mk.inj h
      refine ⟨htransmitted, hreceived, hsurvived, fun _ => ?_⟩
      rw [hmore.counted rfl, hone.counted rfl, Nat.add_assoc, ← List.countP_append, List.singleton_append]

/-- A receipt. -/
theorem receive_hears {k : ℕ} {packets : List Bytes} {outcome : Except Failure (Option F64)}
    (h : m.receive spec packets k = (m', outcome)) : Hears m m' outcome.toOption.isSome packets := by
  unfold receive at h
  cases hpackets : m.receivePackets spec k packets with
  | mk received survivors =>
  rw [hpackets] at h
  have hheard := receivePackets_hears hpackets
  cases survivors with
  | error failure =>
    obtain ⟨rfl, rfl⟩ := Prod.mk.inj h
    exact hheard
  | ok survivors =>
  dsimp only at h
  split at h
  · obtain ⟨rfl, rfl⟩ := Prod.mk.inj h
    exact ⟨hheard.transmitted, hheard.received, hheard.survived, hheard.counted⟩
  · split at h
    · obtain ⟨rfl, rfl⟩ := Prod.mk.inj h
      exact hheard
    · obtain ⟨rfl, rfl⟩ := Prod.mk.inj h
      exact ⟨hheard.transmitted, hheard.received, hheard.survived, hheard.counted⟩

end Model

/-! ## What the simulator counts -/

/-- The counters of the exchange: the copies sent and the time of the last, the replies of the end and those among them
that survived. -/
structure Copies where
  transmitted : ℕ
  lastSend : ℤ
  received : ℕ
  survived : ℕ

omit [Arith F64] in
/-- One more copy of the terminal frame. -/
def Copies.sent (c : Copies) (e : SimEvent) : Copies :=
  { c with transmitted := c.transmitted + e.sendOk.toNat, lastSend := e.lastNs }

namespace Process

variable {p q : Process} {e : SimEvent}

omit [Arith F64] in
/-- What a process has counted. -/
def copies (p : Process) : Copies :=
  ⟨p.model.term.upTransmitted, p.lastTerminalSend, p.model.term.downReceivedRaw, p.model.term.downSurvived⟩

/-- A process that has not begun has counted nothing. -/
theorem initial_copies {seed : U64} {delayTicks : Fin 2} (h : initial spec seed delayTicks = .ok p) :
    p.copies = ⟨0, 0, 0, 0⟩ := by
  unfold initial Model.new at h
  split at h
  · nomatch h
  · split at h
    · nomatch h
    · obtain rfl := Except.ok.inj h
      rfl

omit [Arith F64] in
/-- What is sent on top of some counters: nothing, or one more copy of the terminal frame. -/
def Sends (c : Copies) (e : SimEvent) (q : Process) (handed : Option Bytes) : Prop :=
  q.copies = c ∨ q.copies = c.sent e ∧ ∃ f, handed = some f ∧ q.cachedTerminal = some f

omit [Arith F64] in
/-- Counting an offer counts no copy. -/
theorem countOffer_copies (p : Process) (terminal prologue : Bool) (e : SimEvent) :
    (p.countOffer terminal prologue e).copies = p.copies := by
  cases terminal <;> cases prologue <;> rfl

omit [Arith F64] in
/-- Counting a loss counts no copy. -/
theorem countLost_copies (p : Process) (terminal raw : Bool) : (p.countLost terminal raw).copies = p.copies := by
  cases terminal <;> rfl

omit [Arith F64] in
/-- Counting a send counts a copy if the frame is terminal. -/
theorem countSend_sends (p : Process) {frame : Bytes} {terminal : Bool} (raw : Bool) (e : SimEvent)
    (hcached : terminal = true → p.cachedTerminal = some frame) :
    Sends p.copies e (p.countSend frame terminal raw e) (some frame) := by
  unfold countSend Sends copies Copies.sent
  cases terminal with
  | false => cases e.sendOk <;> exact .inl rfl
  | true =>
    have hcached := hcached rfl
    cases e.sendOk with
    | false => exact .inr ⟨rfl, frame, rfl, hcached⟩
    | true => cases p.terminalLogged <;> exact .inr ⟨rfl, frame, rfl, hcached⟩

omit [Arith F64] in
/-- Preparing a frame counts no copy, and remembers a terminal frame. -/
theorem prepare_copies {tick : ℕ} {terminal : Bool} {sentNs : ℤ} {outcome : Except Failure Bytes}
    (h : p.prepare tick terminal sentNs = (q, outcome)) :
    q.copies = p.copies ∧ ∀ frame, outcome = .ok frame → terminal = true → q.cachedTerminal = some frame := by
  unfold prepare at h
  split at h
  · rename_i frame hcached
    obtain ⟨rfl, rfl⟩ := Prod.mk.inj h
    refine ⟨rfl, fun frame' hframe hterminal => ?_⟩
    rw [hterminal, if_pos rfl] at hcached
    exact Except.ok.inj hframe ▸ hcached
  · split at h
    · obtain ⟨rfl, rfl⟩ := Prod.mk.inj h
      exact ⟨rfl, fun frame hframe => absurd hframe (by simp)⟩
    · obtain ⟨rfl, rfl⟩ := Prod.mk.inj h
      cases terminal with
      | false => exact ⟨rfl, fun _ _ hterminal => absurd hterminal Bool.false_ne_true⟩
      | true => exact ⟨rfl, fun frame hframe _ => congrArg some (Except.ok.inj hframe)⟩

/-- An offer. -/
theorem offer_sends {tick : ℕ} {terminal prologue : Bool} {outcome : Except Failure (Option Bytes)}
    (hfirst : prologue = true → terminal = false) (h : p.offer spec tick terminal prologue e = (q, outcome)) :
    Sends p.copies e q outcome.toOption.join := by
  unfold offer at h
  dsimp only at h
  generalize hloss : Model.loss spec
      { p.model with
        events.sensorObservations :=
          p.model.events.sensorObservations + (!terminal || p.cachedTerminal.isNone).toNat } .up tick terminal prologue =
      lost at h
  obtain ⟨model, outcome'⟩ := lost
  have hterm : model.term = p.model.term := by
    rw [Model.loss_model hloss, Model.draw_offer]
  have hmodel {p' : Process} (hp' : p'.model = model) (hlast : p'.lastTerminalSend = p.lastTerminalSend) :
      p'.copies = p.copies := by
    unfold copies
    rw [hp', hterm, hlast]
  cases outcome' with
  | error failure =>
    obtain ⟨rfl, rfl⟩ := Prod.mk.inj h
    exact .inl (hmodel rfl rfl)
  | ok decided =>
  obtain ⟨raw, drop⟩ := decided
  dsimp only at h
  generalize hdrawn : Process.mk .. = drawn at h
  have hsame : drawn.copies = p.copies := hmodel (by rw [← hdrawn]) (by rw [← hdrawn])
  rw [← hsame, ← countOffer_copies drawn terminal prologue e]
  generalize drawn.countOffer terminal prologue e = counted at h ⊢
  cases hprepare : counted.prepare tick terminal e.sentNs with
  | mk prepared outcome' =>
  rw [hprepare] at h
  obtain ⟨hcopies, hcached⟩ := prepare_copies hprepare
  rw [← hcopies]
  cases outcome' with
  | error failure =>
    obtain ⟨rfl, rfl⟩ := Prod.mk.inj h
    exact .inl rfl
  | ok frame =>
  dsimp only at h
  have hcached := hcached frame rfl
  cases drop with
  | true =>
    obtain ⟨rfl, rfl⟩ := Prod.mk.inj h
    exact .inl (countLost_copies ..)
  | false =>
    rw [if_neg Bool.false_ne_true] at h
    obtain ⟨rfl, rfl⟩ := Prod.mk.inj h
    have hstamped : (if terminal && prepared.firstTerminalSend == 0 then
        { prepared with firstTerminalSend := e.sentNs } else prepared).copies = prepared.copies ∧
        (if terminal && prepared.firstTerminalSend == 0 then
          { prepared with firstTerminalSend := e.sentNs } else prepared).cachedTerminal = prepared.cachedTerminal := by
      split <;> exact ⟨rfl, rfl⟩
    generalize (if terminal && prepared.firstTerminalSend == 0 then
      { prepared with firstTerminalSend := e.sentNs } else prepared) = stamped at hstamped ⊢
    obtain ⟨hstamped, hkept⟩ := hstamped
    have hsent := countSend_sends stamped raw e fun hterminal => hkept.trans (hcached hterminal)
    rw [hstamped] at hsent
    cases hprologue : prologue && !e.sendOk with
    | false => exact hsent
    | true =>
      obtain rfl := hfirst (Bool.and_eq_true_iff.mp hprologue).1
      refine .inl ?_
      rw [← hstamped]
      unfold countSend
      cases e.sendOk <;> rfl

/-! ## A turn -/

omit [Arith F64] in
/-- What agrees on the counters and on the terminal frame has sent as much. -/
theorem Sends.congr {c : Copies} {q' : Process} {handed : Option Bytes} (h : Sends c e q handed)
    (hcopies : q'.copies = q.copies) (hcached : q'.cachedTerminal = q.cachedTerminal) : Sends c e q' handed := by
  unfold Sends at h ⊢
  rwa [hcopies, hcached]

omit [Arith F64] in
/-- An exception counts no copy, and makes no end of the run. -/
theorem fail_copies (p : Process) (failure : Failure) :
    (p.fail failure).copies = p.copies ∧ (p.fail failure).cachedTerminal = p.cachedTerminal ∧
      (p.fail failure).code = some failure.code ∧ (p.fail failure).terminationSource = p.terminationSource ∧
      (p.fail failure).terminationBeforeNs = p.terminationBeforeNs ∧
      (p.fail failure).terminationNs = p.terminationNs := by
  unfold fail
  dsimp only
  split <;> exact ⟨rfl, rfl, rfl, rfl, rfl, rfl⟩

/-- The receipt of a turn raises an exception. -/
def raises (spec : Scenario F64) (p : Process) (packets : List Bytes) : Bool :=
  match p.phase with
  | .body k => (p.model.receive spec packets k).2.toOption.isNone
  | .grace tick _ => (p.model.receive spec packets tick).2.toOption.isNone
  | _ => false

/-- What a turn does to the counters of the exchange: it counts the replies of its drain, unless their receipt raises
an exception, and sends one more copy at most. -/
structure Exchanged (spec : Scenario F64) (p : Process) (packets : List Bytes) (e : SimEvent) (q : Process)
    (handed : Option Bytes) : Prop where
  received : p.copies.received ≤ q.copies.received
  survived : p.copies.survived ≤ q.copies.survived
  sends : Sends { p.copies with received := q.copies.received, survived := q.copies.survived } e q handed
  counted : p.raises spec packets = false → q.copies.received = p.copies.received + packets.countP endReply
  raised : p.raises spec packets = true → q.code.isSome = true ∧ q.terminationSource = p.terminationSource ∧
    q.terminationBeforeNs = p.terminationBeforeNs ∧ q.terminationNs = p.terminationNs

/-- A body from the plant step on. -/
theorem advance_sends {k : ℕ} {selected : Option F64} {handed : Option Bytes}
    (h : p.advance spec k selected e = (q, handed)) : Sends p.copies e q handed := by
  unfold advance at h
  generalize hmoved : p.model.advance spec k selected = moved at h
  obtain ⟨model, outcome⟩ := moved
  have hterm : model.term = p.model.term := by
    unfold Model.advance at hmoved
    split at hmoved
    · rw [← (Prod.mk.inj hmoved).1]
    · dsimp only at hmoved
      split at hmoved <;> rw [← (Prod.mk.inj hmoved).1]
  have hmodel {p' : Process} (hp' : p'.model = model) (hlast : p'.lastTerminalSend = p.lastTerminalSend) :
      p'.copies = p.copies := by
    unfold copies
    rw [hp', hterm, hlast]
  cases outcome with
  | error failure =>
    obtain ⟨rfl, rfl⟩ := Prod.mk.inj h
    exact .inl ((fail_copies _ failure).1.trans (hmodel rfl rfl))
  | ok arriving =>
  dsimp only at h
  have hnoted : (p.noteAdvance k model selected arriving e).copies = p.copies := by
    refine hmodel (noteAdvance_ending p k model selected arriving e).2 ?_
    unfold noteAdvance
    cases model.reason.isSome <;> rfl
  rw [← hnoted]
  generalize p.noteAdvance k model selected arriving e = noted at h ⊢
  generalize hoffer : noted.offer spec (k + 1) model.reason.isSome false e = offered at h
  obtain ⟨sent, outcome⟩ := offered
  have hsent := offer_sends (fun hfirst => absurd hfirst Bool.false_ne_true) hoffer
  cases outcome with
  | error failure =>
    obtain ⟨rfl, rfl⟩ := Prod.mk.inj h
    obtain ⟨hcopies, hcached, -⟩ := fail_copies sent failure
    exact hsent.congr hcopies hcached
  | ok frame =>
    obtain ⟨rfl, rfl⟩ := Prod.mk.inj h
    exact hsent.congr rfl rfl

/-- A turn that takes nothing, and sends at most one copy. -/
theorem Sends.exchanged {packets : List Bytes} {handed : Option Bytes} (h : Sends p.copies e q handed)
    (hnone : packets = []) (hraises : p.raises spec packets = true → q.code.isSome = true ∧
      q.terminationSource = p.terminationSource ∧ q.terminationBeforeNs = p.terminationBeforeNs ∧
      q.terminationNs = p.terminationNs) : Exchanged spec p packets e q handed := by
  have hreceived : q.copies.received = p.copies.received ∧ q.copies.survived = p.copies.survived := by
    rcases h with hsame | ⟨hsent, -⟩
    · rw [hsame]
      exact ⟨rfl, rfl⟩
    · rw [hsent]
      exact ⟨rfl, rfl⟩
  refine ⟨hreceived.1.ge, hreceived.2.ge, ?_, fun _ => ?_, hraises⟩
  · rw [hreceived.1, hreceived.2]
    exact h
  · rw [hreceived.1, hnone]
    rfl

/-- A turn that takes packets, and then sends at most one copy. -/
theorem exchanged_of_hears {packets : List Bytes} {k : ℕ} {model : Model} {outcome : Except Failure (Option F64)}
    {handed : Option Bytes} (hreceive : p.model.receive spec packets k = (model, outcome))
    (hraises : p.raises spec packets = outcome.toOption.isNone)
    (hsends : Sends { p.copies with received := model.term.downReceivedRaw, survived := model.term.downSurvived } e q
      handed)
    (hfails : outcome.toOption.isNone = true → q.code.isSome = true ∧ q.terminationSource = p.terminationSource ∧
      q.terminationBeforeNs = p.terminationBeforeNs ∧ q.terminationNs = p.terminationNs) :
    Exchanged spec p packets e q handed := by
  have hheard := Model.receive_hears hreceive
  have hreceived : q.copies.received = model.term.downReceivedRaw ∧ q.copies.survived = model.term.downSurvived := by
    rcases hsends with hsame | ⟨hsent, -⟩
    · rw [hsame]
      exact ⟨rfl, rfl⟩
    · rw [hsent]
      exact ⟨rfl, rfl⟩
  refine ⟨?_, ?_, ?_, fun hquiet => ?_, fun hraise => hfails (hraises ▸ hraise)⟩
  · rw [hreceived.1]
    exact hheard.received
  · rw [hreceived.2]
    exact hheard.survived
  · rw [hreceived.1, hreceived.2]
    exact hsends
  · rw [hreceived.1]
    refine hheard.counted ?_
    rw [hraises] at hquiet
    simpa using hquiet

/-- The counters after a receipt. -/
theorem copies_receive {packets : List Bytes} {k : ℕ} {model : Model} {outcome : Except Failure (Option F64)}
    (hreceive : p.model.receive spec packets k = (model, outcome)) {held : Process} (hmodel : held.model = model)
    (hlast : held.lastTerminalSend = p.lastTerminalSend) :
    held.copies = { p.copies with received := model.term.downReceivedRaw, survived := model.term.downSurvived } := by
  unfold copies
  rw [hmodel, hlast, (Model.receive_hears hreceive).transmitted]

/-- A body. -/
theorem body_exchanged {k : ℕ} {packets : List Bytes} {handed : Option Bytes} (hslept : e.slept = .ok ())
    (hdrained : e.drained = .ok packets) (hphase : p.phase = .body k) (h : p.body spec k e = (q, handed)) :
    Exchanged spec p packets e q handed := by
  unfold body at h
  rw [hslept, hdrained] at h
  dsimp only at h
  cases hreceive : p.model.receive spec packets k with
  | mk model outcome =>
  rw [show (p.noteDrain packets e).model = p.model from rfl, hreceive] at h
  have hraises : p.raises spec packets = outcome.toOption.isNone := by
    unfold raises
    rw [hphase]
    dsimp only
    rw [hreceive]
  have hheld (held : Process) (hmodel : held.model = model) (hlast : held.lastTerminalSend = p.lastTerminalSend) :=
    copies_receive hreceive hmodel hlast
  cases outcome with
  | error failure =>
    obtain ⟨rfl, rfl⟩ := Prod.mk.inj h
    obtain ⟨hcopies, -, hcode, hsource, hbefore, hafter⟩ := fail_copies { p.noteDrain packets e with model } failure
    exact exchanged_of_hears hreceive hraises (.inl (hcopies.trans (hheld _ rfl rfl)))
      fun _ => ⟨by rw [hcode]; rfl, hsource, hbefore, hafter⟩
  | ok selected =>
  dsimp only at h
  refine exchanged_of_hears hreceive hraises ?_ fun hnone => absurd hnone (by simp [Except.toOption])
  split at h
  · obtain ⟨rfl, rfl⟩ := Prod.mk.inj h
    exact .inl (hheld { p.noteDrain packets e with model } rfl rfl)
  · have hsent := advance_sends h
    rwa [hheld { p.noteDrain packets e with model } rfl rfl] at hsent

/-- A turn of the grace period. -/
theorem grace_exchanged {copies tick offset : ℕ} {packets : List Bytes} {handed : Option Bytes}
    (hslept : e.slept = .ok ()) (hdrained : e.drained = .ok packets) (hphase : p.phase = .grace tick offset)
    (h : p.grace spec copies tick offset e = (q, handed)) : Exchanged spec p packets e q handed := by
  unfold grace at h
  rw [hslept, hdrained] at h
  dsimp only at h
  cases hreceive : p.model.receive spec packets tick with
  | mk model outcome =>
  rw [show (p.noteDrain packets e).model = p.model from rfl, hreceive] at h
  have hraises : p.raises spec packets = outcome.toOption.isNone := by
    unfold raises
    rw [hphase]
    dsimp only
    rw [hreceive]
  have hheld (held : Process) (hmodel : held.model = model) (hlast : held.lastTerminalSend = p.lastTerminalSend) :=
    copies_receive hreceive hmodel hlast
  cases outcome with
  | error failure =>
    obtain ⟨rfl, rfl⟩ := Prod.mk.inj h
    obtain ⟨hcopies, -, hcode, hsource, hbefore, hafter⟩ := fail_copies { p.noteDrain packets e with model } failure
    exact exchanged_of_hears hreceive hraises (.inl (hcopies.trans (hheld _ rfl rfl)))
      fun _ => ⟨by rw [hcode]; rfl, hsource, hbefore, hafter⟩
  | ok selected =>
  dsimp only at h
  refine exchanged_of_hears hreceive hraises ?_ fun hnone => absurd hnone (by simp [Except.toOption])
  have hcopies := hheld { p.noteDrain packets e with model } rfl rfl
  generalize ({ p.noteDrain packets e with model } : Process) = held at h hcopies
  rw [← hcopies]
  split at h
  · obtain ⟨rfl, rfl⟩ := Prod.mk.inj h
    exact .inl rfl
  split at h
  · generalize hoffer : held.offer spec (tick + 1) true false e = offered at h
    obtain ⟨sent, outcome⟩ := offered
    have hsent := offer_sends (fun hfirst => absurd hfirst Bool.false_ne_true) hoffer
    cases outcome with
    | error failure =>
      obtain ⟨rfl, rfl⟩ := Prod.mk.inj h
      obtain ⟨hcopies, hcached, -⟩ := fail_copies sent failure
      exact hsent.congr hcopies hcached
    | ok frame =>
      obtain ⟨rfl, rfl⟩ := Prod.mk.inj h
      exact hsent.congr rfl rfl
  · obtain ⟨rfl, rfl⟩ := Prod.mk.inj h
    refine .inl (Eq.trans ?_ hcopies.symm)
    exact copies_receive hreceive rfl rfl

/-- A turn whose sleep and drain raise nothing. -/
theorem turn_exchanged {copies : ℕ} {packets : List Bytes} {handed : Option Bytes} (hslept : e.slept = .ok ())
    (hdrained : e.drained = .ok packets) (hidle : p.drains spec copies = false → packets = [])
    (h : p.turn spec copies e = (q, handed)) : Exchanged spec p packets e q handed := by
  unfold turn at h
  unfold drains at hidle
  cases hphase : p.phase with
  | prologue =>
    rw [hphase] at h hidle
    have hquiet : p.raises spec packets = false := by
      unfold raises
      rw [hphase]
    unfold prologue at h
    dsimp only at h
    generalize hoffer : p.offer spec 0 false true e = offered at h
    obtain ⟨sent, outcome⟩ := offered
    have hsent := offer_sends (fun _ => rfl) hoffer
    cases outcome with
    | error failure =>
      obtain ⟨rfl, rfl⟩ := Prod.mk.inj h
      obtain ⟨hcopies, hcached, -⟩ := fail_copies sent failure
      refine Sends.exchanged (hsent.congr hcopies hcached) (hidle rfl) fun hraise => ?_
      rw [hquiet] at hraise
      nomatch hraise
    | ok frame =>
      obtain ⟨rfl, rfl⟩ := Prod.mk.inj h
      refine Sends.exchanged (hsent.congr rfl rfl) (hidle rfl) fun hraise => ?_
      rw [hquiet] at hraise
      nomatch hraise
  | body k =>
    rw [hphase] at h hidle
    dsimp only at h hidle
    split at h
    · exact body_exchanged hslept hdrained hphase h
    · rename_i hover
      obtain ⟨rfl, rfl⟩ := Prod.mk.inj h
      exact Sends.exchanged (.inl rfl) (hidle (decide_eq_false hover)) fun _ => ⟨rfl, rfl, rfl, rfl⟩
  | grace tick offset =>
    rw [hphase] at h hidle
    dsimp only at h hidle
    split at h
    · exact grace_exchanged hslept hdrained hphase h
    · rename_i hover
      obtain ⟨rfl, rfl⟩ := Prod.mk.inj h
      exact Sends.exchanged (.inl rfl) (hidle (decide_eq_false hover)) fun _ => ⟨rfl, rfl, rfl, rfl⟩
  | finished last =>
    rw [hphase] at h hidle
    obtain ⟨rfl, rfl⟩ := Prod.mk.inj h
    refine Sends.exchanged (.inl rfl) (hidle rfl) fun _ => ⟨?_, rfl, rfl, rfl⟩
    unfold code
    rw [hphase]
    rfl

end Process

/-! ## An act -/

omit [Arith F64] in
/-- The moment that a side notes of a frame which it sends. -/
def SimAct.stamp : SimAct → Option ℕ
  | .turn moments _ => some moments.last
  | _ => none

namespace SimSide

variable {copies moment : ℕ} {clock : ℕ → ℤ} {d : SimSide}

/-- The packets that an exception takes away. -/
def lost (spec : Scenario F64) (d : SimSide) : SimAct → List Bytes
  | .fault _ packets => packets
  | .turn _ _ => if d.process.raises spec (d.drained.getD []) then d.drained.getD [] else []
  | _ => []

/-- The replies of the vehicle's end that the simulator has counted, or has drained. -/
def heard (d : SimSide) : ℕ := d.process.copies.received + (d.drained.getD []).countP endReply

/-- What an act of the simulator does to the counters of the exchange: it counts what it has taken, but for what an
exception takes away, and sends one more copy at most, at a moment that it notes. -/
structure Traded (spec : Scenario F64) (clock : ℕ → ℤ) (moment : ℕ) (d : SimSide) (a : SimAct)
    (out : Outcome SimSide) : Prop where
  survived : d.process.copies.survived ≤ out.side.process.copies.survived
  heard : d.heard + out.taken.countP endReply ≤ out.side.heard + (d.lost spec a).countP endReply
  sends : out.side.process.copies.transmitted = d.process.copies.transmitted ∧
      out.side.process.copies.lastSend = d.process.copies.lastSend ∨
    ∃ tx, a.stamp = some tx ∧ moment < tx ∧ tx ≤ out.side.last ∧ out.side.process.copies.lastSend = clock tx ∧
      (out.side.process.copies.transmitted = d.process.copies.transmitted ∨
        out.side.process.copies.transmitted = d.process.copies.transmitted + 1 ∧ ∃ data ∈ out.handed, AnnouncesEnd data)
  lost : d.lost spec a ≠ [] → out.side.process.code.isSome = true ∧
    ∀ domain, out.side.termination domain = d.termination domain

omit [Arith F64] in
/-- What an end reports is said by three of its fields. -/
theorem termination_congr (d' : SimSide) (hsource : d'.process.terminationSource = d.process.terminationSource)
    (hbefore : d'.process.terminationBeforeNs = d.process.terminationBeforeNs)
    (hafter : d'.process.terminationNs = d.process.terminationNs) (domain : String) :
    d'.termination domain = d.termination domain := by
  unfold termination
  rw [hsource, hbefore, hafter]

/-- A turn. -/
theorem traded_turn {moments : TurnMoments} {sendOk : Bool} {q : Process} {handed : Option Bytes}
    (horder : moments.InOrder d.last moment) (hdrained : d.drained.isSome = d.process.drains spec copies)
    (hkept : Kept clock (d.turned moments q))
    (hturn : d.process.turn spec copies (turnEvent clock moments (d.drained.getD []) sendOk) = (q, handed)) :
    Traded spec clock moment d (.turn moments sendOk)
      { side := d.turned moments q, handed := if sendOk then handed else none } := by
  have hidle : d.process.drains spec copies = false → d.drained.getD [] = [] := by
    intro hnone
    rw [hnone, Option.isSome_eq_false_iff, Option.isNone_iff_eq_none] at hdrained
    rw [hdrained]
    rfl
  have hdone := Process.turn_exchanged rfl rfl hidle hturn
  have hlost : d.lost spec (.turn moments sendOk) =
      if d.process.raises spec (d.drained.getD []) then d.drained.getD [] else [] := rfl
  have hheard : (d.turned moments q).heard = q.copies.received := rfl
  refine ⟨hdone.survived, ?_, ?_, fun hlosing => ?_⟩
  · rw [hlost, hheard, heard]
    cases hraises : d.process.raises spec (d.drained.getD []) with
    | false => exact (hdone.counted hraises).ge
    | true => exact Nat.add_le_add_right hdone.received _
  · rcases hdone.sends with hsame | ⟨hsent, f, hhanded, hcached⟩
    · have htransmitted := congrArg Copies.transmitted hsame
      have hlastSend := congrArg Copies.lastSend hsame
      exact .inl ⟨htransmitted, hlastSend⟩
    · obtain ⟨-, -, -, hlast⟩ := inOrder_turn horder
      refine .inr ⟨moments.last, rfl, hlast, le_rfl, congrArg Copies.lastSend hsent, ?_⟩
      have htransmitted := congrArg Copies.transmitted hsent
      cases sendOk with
      | false => exact .inl htransmitted
      | true =>
        obtain ⟨-, -, -, g, hg, hterminal, -⟩ := hkept.cached f hcached
        exact .inr ⟨htransmitted, f, hhanded, g, hg, hterminal⟩
  · have hraises : d.process.raises spec (d.drained.getD []) = true := by
      by_contra hquiet
      exact hlosing (hlost.trans (if_neg hquiet))
    obtain ⟨hcode, hsource, hbefore, hafter⟩ := hdone.raised hraises
    exact ⟨hcode, termination_congr (d.turned moments q) hsource hbefore hafter⟩

/-- An act of the simulator. -/
theorem Kept.traded {a : SimAct} {out : Outcome SimSide} (h : Kept clock d)
    (hact : d.act spec copies clock moment a = some out) : Traded spec clock moment d a out := by
  have hdone := h.act hact
  cases acted hact with
  | @drained packets hlater hidle hdrains hroom =>
    refine ⟨le_rfl, ?_, .inl ⟨rfl, rfl⟩, fun hlost => absurd rfl hlost⟩
    unfold heard
    rw [hidle]
    exact le_rfl
  | turned horder hdrained hcode hturn => exact traded_turn horder hdrained hdone.kept hturn
  | @faulted failure packets hlater hidle hdrains hroom =>
    obtain ⟨hcopies, -, hcode, hsource, hbefore, hafter⟩ := Process.fail_copies d.process failure
    refine ⟨(congrArg Copies.survived hcopies).ge, ?_, .inl ⟨congrArg Copies.transmitted hcopies, congrArg Copies.lastSend hcopies⟩,
      fun _ => ⟨by rw [hcode]; rfl, termination_congr { d with process := d.process.fail failure } hsource hbefore hafter⟩⟩
    unfold heard
    rw [hcopies]
    exact le_rfl
  | closed => exact ⟨le_rfl, le_rfl, .inl ⟨rfl, rfl⟩, fun hlost => absurd rfl hlost⟩

end SimSide

end Tvc.Freerun
