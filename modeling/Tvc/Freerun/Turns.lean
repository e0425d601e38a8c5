import Tvc.Headless
import Tvc.Freerun.Simulator
import Tvc.Lockstep.Exchange

/-!
# What one turn of the free-run simulator does

A turn touches many counters and little else. `bare` is the model without its counters; what the loss draws,
the receipt of an ordinary reply, the plant step and the offer of a frame do to it is settled here, and from
them what a body does that is not the last.
-/

namespace Tvc.Freerun

variable [Arith F64] {spec : Scenario F64}

namespace Model

variable {m m' : Model}

omit [Arith F64] in
/-- The model without its counters. -/
def bare (m : Model) : Model :=
  { m with drawsUp := 0, drawsDown := 0, up := {}, down := {}, term := {}, events := {} }

omit [Arith F64] in
/-- Counters aside, a model is its fields. -/
theorem fields_of_bare (h : m.bare = m') :
    m.truth = m'.truth ∧ m.act = m'.act ∧ m.delay = m'.delay ∧ m.streamUp = m'.streamUp ∧
      m.streamDown = m'.streamDown ∧ m.reason = m'.reason ∧ m.vehicleSeen = m'.vehicleSeen := by
  subst h
  exact ⟨rfl, rfl, rfl, rfl, rfl, rfl, rfl⟩

/-- A draw moves its stream: that of the uplink. -/
theorem draw_up (spec : Scenario F64) (m : Model) :
    (m.draw spec .up).2.bare = { m.bare with streamUp := (drawDrop m.streamUp spec.lossUp).2 } := rfl

/-- A draw moves its stream: that of the downlink. -/
theorem draw_down (spec : Scenario F64) (m : Model) :
    (m.draw spec .down).2.bare = { m.bare with streamDown := (drawDrop m.streamDown spec.lossDown).2 } := rfl

/-- A loss that is decided is that of the reference, unless the frame is the first or a terminal one. -/
theorem loss_ok {direction : Direction} {tick : ℕ} {terminal prologue raw drop : Bool}
    (h : m.loss spec direction tick terminal prologue = (m', .ok (raw, drop))) :
    m' = (m.draw spec direction).2 ∧ raw = (m.draw spec direction).1 ∧
      (prologue = true → drop = false) ∧
      (terminal = false → prologue = false → drop = Headless.dropOf spec tick direction raw) := by
  unfold loss at h
  dsimp only at h
  cases prologue with
  | true =>
    obtain ⟨rfl, hdrop⟩ := Prod.mk.inj h
    obtain ⟨rfl, rfl⟩ := Prod.mk.inj (Except.ok.inj hdrop)
    exact ⟨rfl, rfl, fun _ => rfl, nofun⟩
  | false =>
    cases terminal with
    | true =>
      obtain ⟨rfl, hdrop⟩ := Prod.mk.inj h
      obtain ⟨rfl, rfl⟩ := Prod.mk.inj (Except.ok.inj hdrop)
      exact ⟨rfl, rfl, nofun, nofun⟩
    | false =>
      obtain ⟨rfl, hdrop⟩ := Prod.mk.inj h
      unfold checkTick at hdrop
      split at hdrop
      · obtain ⟨rfl, rfl⟩ := Prod.mk.inj (Except.ok.inj hdrop)
        refine ⟨rfl, rfl, nofun, fun _ _ => ?_⟩
        unfold Headless.dropOf
        cases spec.forcedDropAt tick direction <;> rfl
      · nomatch hdrop

omit [Arith F64] in
/-- The counters `down` are counters. -/
theorem bare_down (m : Model) (down : DownCounts) : ({ m with down } : Model).bare = m.bare := rfl

omit [Arith F64] in
/-- A receipt counts. -/
theorem countReceived_bare (m : Model) (value : Wire.Fields) (terminal drop : Bool) :
    (m.countReceived value terminal drop).bare = m.bare := by
  cases terminal <;> rfl

/-- An ordinary reply is selected unless it is lost. -/
theorem receive_reply {data : Bytes} {value : Wire.Fields} {k : ℕ} {selected : Option F64}
    (hdecode : decodeReply data = .ok value) (hlive : stateByte value ≠ 3) (hseen : m.vehicleSeen = none)
    (h : m.receive spec [data] k = (m', .ok selected)) :
    m'.bare = { m.bare with streamDown := (drawDrop m.streamDown spec.lossDown).2 } ∧
      selected = if Headless.dropOf spec k .down (drawDrop m.streamDown spec.lossDown).1 then none
        else some (value.float .delta) := by
  have hterminal : (stateByte value == 3) = false := beq_false_of_ne hlive
  unfold receive receivePackets receivePacket at h
  rw [hdecode] at h
  dsimp only at h
  rw [hterminal] at h
  cases hloss : m.loss spec .down k false false with
  | mk drawn outcome =>
  rw [hloss] at h
  cases outcome with
  | error failure => nomatch (Prod.mk.inj h).2
  | ok decided =>
  obtain ⟨raw, drop⟩ := decided
  obtain ⟨rfl, rfl, -, hdrop⟩ := loss_ok hloss
  obtain rfl := hdrop rfl rfl
  have hraw : (m.draw spec .down).1 = (drawDrop m.streamDown spec.lossDown).1 := rfl
  have hbare (drop : Bool) : ((m.draw spec .down).2.countReceived value false drop).bare =
      { m.bare with streamDown := (drawDrop m.streamDown spec.lossDown).2 } := by
    rw [countReceived_bare, draw_down]
  have hunseen (drop : Bool) : ((m.draw spec .down).2.countReceived value false drop).vehicleSeen.isSome = false := by
    obtain ⟨-, -, -, -, -, -, hsame⟩ := fields_of_bare (hbare drop)
    rw [hsame]
    exact Option.isSome_eq_false_iff.mpr (Option.isNone_iff_eq_none.mpr hseen)
  rw [← hraw, ← hbare (Headless.dropOf spec k .down (m.draw spec .down).1)]
  dsimp only at h
  cases hlost : Headless.dropOf spec k .down (m.draw spec .down).1 with
  | true =>
    simp only [hlost, ↓reduceIte, receivePackets, Option.toList_none, List.append_nil, hunseen, Bool.false_eq_true,
      List.foldl_nil] at h
    obtain ⟨rfl, hselected⟩ := Prod.mk.inj h
    exact ⟨rfl, (Except.ok.inj hselected).symm⟩
  | false =>
    rw [hlost] at h
    cases hfinite : (value.float .delta).isFinite with
    | false =>
      simp only [hfinite, Bool.not_false, Bool.and_self, if_true] at h
      nomatch (Prod.mk.inj h).2
    | true =>
      simp only [hfinite, Bool.not_true, Bool.and_false, Bool.false_eq_true, if_false, receivePackets, Option.toList_some,
        List.append_nil, hunseen, List.foldl_cons, List.foldl_nil, RunningMax.pick_none] at h
      obtain ⟨rfl, hselected⟩ := Prod.mk.inj h
      exact ⟨bare_down .., (Except.ok.inj hselected).symm⟩

/-- A plant step. -/
theorem advance_ok {k : ℕ} {selected arriving : Option F64} (h : m.advance spec k selected = (m', .ok arriving)) :
    let act := Actuator.step m.act arriving
    let truth := Plant.step m.truth act fixedEnvironment (spec.disturbanceAt k fixedEnvironment) ControlRef.dt
    m.reason = none ∧ arriving = (m.delay ++ [selected]).headD none ∧
      m'.bare =
        { m.bare with
          delay := (m.delay ++ [selected]).tail
          act
          truth
          reason := reasonAfter spec truth k } := by
  unfold advance at h
  cases hreason : m.reason with
  | some reason =>
    rw [hreason, Option.isSome_some, if_pos rfl] at h
    nomatch (Prod.mk.inj h).2
  | none =>
    rw [hreason, Option.isSome_none, if_neg Bool.false_ne_true] at h
    dsimp only at h
    unfold checkTick at h
    by_cases hk : k < spec.ticks
    · rw [if_pos hk] at h
      obtain ⟨rfl, harriving⟩ := Prod.mk.inj h
      obtain rfl := Except.ok.inj harriving
      exact ⟨rfl, rfl, rfl⟩
    · rw [if_neg hk] at h
      nomatch (Prod.mk.inj h).2

end Model

namespace Process

variable {p p' : Process} {e : SimEvent}

/-- The fields of an ordinary sensor frame. -/
def sensorFieldsOf (observation : Observation F64) (sentNs : ℤ) : Telem.SensorFields where
  tick := BitVec.ofNat 64 observation.tick
  tSendNs := BitVec.ofInt 64 sentNs
  theta := observation.theta
  omega := observation.omega
  flags := 1
  cmdSeq := 0
  simReason := 0

/-- The fields of the sensor frame of an offer. -/
def offeredFields (observation : Observation F64) (terminal : Bool) (reason : Option SimReason) (sentNs : ℤ) :
    Telem.SensorFields :=
  { sensorFieldsOf observation sentNs with
    flags := if terminal then 3 else 1
    simReason := if terminal then BitVec.ofNat 32 (reason.elim 0 SimReason.toNat) else 0 }

omit [Arith F64] in
/-- A sensor frame is received as its fields. -/
theorem frameOf_fields {o : Observation F64} {terminal : Bool} {reason : Option SimReason} {sentNs : ℤ} {frame : Bytes}
    (h : frameOf o.tick o terminal reason sentNs = .ok frame) :
    o.tick < 2 ^ 64 ∧ (-2 ^ 63 ≤ sentNs ∧ sentNs < 2 ^ 63) ∧
      (Datagram.mk frame false).frame = .ok (.ofFields (offeredFields o terminal reason sentNs)) := by
  unfold frameOf at h
  have htick : o.tick < 2 ^ 64 := by
    by_contra hlarge
    rw [Wire.encodePayload_overflow rfl (not_lt.mp hlarge)] at h
    nomatch h
  have hsent : -2 ^ 63 ≤ sentNs ∧ sentNs < 2 ^ 63 := by
    by_contra hlarge
    rw [Wire.encodePayload_overflow_time rfl htick rfl hlarge] at h
    nomatch h
  have hdict : ([(.tick, .int o.tick), (.tSendNs, .int sentNs), (.theta, .float o.theta), (.omega, .float o.omega),
      (.flags, .int (if terminal then 3 else 1)), (.cmdSeq, .int 0),
      (.simReason, .int (if terminal then (reason.elim 0 SimReason.toNat : ℕ) else 0))] : Wire.Fields) =
      Wire.sensorDict (offeredFields o terminal reason sentNs) := by
    have hfirst : (BitVec.ofNat 64 o.tick).toNat = o.tick := by rw [BitVec.toNat_ofNat, Nat.mod_eq_of_lt htick]
    have hsecond : (BitVec.ofInt 64 sentNs).toInt = sentNs := by
      rw [BitVec.toInt_ofInt, Int.bmod_eq_of_le (by omega) (by omega)]
    have hreason : (BitVec.ofNat 32 (reason.elim 0 SimReason.toNat)).toNat = reason.elim 0 SimReason.toNat := by
      rcases reason with _ | (_ | _ | _ | _ | _ | _) <;> rfl
    cases terminal with
    | false =>
      simp only [Wire.sensorDict, offeredFields, sensorFieldsOf, hfirst, hsecond, Bool.false_eq_true, if_false]
      rfl
    | true =>
      simp only [Wire.sensorDict, offeredFields, sensorFieldsOf, hfirst, hsecond, if_true, hreason]
      rfl
  rw [hdict, Lockstep.encodePayload_sensorDict] at h
  generalize Frame.ofFields (offeredFields o terminal reason sentNs) = f at h ⊢
  have hframe : Wire.encodeFrame 4 o.tick f.payload =
      .ok (Telem.encodeFrame 4 (BitVec.ofNat 32 o.tick) f.payload) :=
    Wire.encodeFrame_eq (by decide) o.tick (by rw [f.payload_length]; decide)
  simp only [bind, Except.bind, hframe, Except.mapError] at h
  obtain rfl := Except.ok.inj h
  exact ⟨htick, hsent, Datagram.frame_ofFrame (BitVec.ofNat 32 o.tick) f⟩

omit [Arith F64] in
/-- An ordinary sensor frame is received as its fields. -/
theorem frameOf_ok {o : Observation F64} {reason : Option SimReason} {sentNs : ℤ} {frame : Bytes}
    (h : frameOf o.tick o false reason sentNs = .ok frame) :
    o.tick < 2 ^ 64 ∧ (Datagram.mk frame false).frame = .ok (.ofFields (sensorFieldsOf o sentNs)) := by
  obtain ⟨htick, -, hframe⟩ := frameOf_fields h
  exact ⟨htick, hframe⟩

omit [Arith F64] in
/-- A process keeps its course: its model but for the counters, and where it stands. -/
def SameCourse (p q : Process) : Prop := q.model.bare = p.model.bare ∧ q.phase = p.phase

omit [Arith F64] in
theorem SameCourse.trans {q r : Process} (h : SameCourse p q) (h' : SameCourse q r) : SameCourse p r :=
  ⟨h'.1.trans h.1, h'.2.trans h.2⟩

omit [Arith F64] in
/-- An offer counts. -/
theorem sameCourse_countOffer (p : Process) (terminal prologue : Bool) (e : SimEvent) :
    SameCourse p (p.countOffer terminal prologue e) := by
  cases terminal <;> cases prologue <;> exact ⟨rfl, rfl⟩

omit [Arith F64] in
/-- A loss counts. -/
theorem sameCourse_countLost (p : Process) (terminal raw : Bool) : SameCourse p (p.countLost terminal raw) := by
  cases terminal <;> exact ⟨rfl, rfl⟩

omit [Arith F64] in
/-- A send counts. -/
theorem sameCourse_countSend (p : Process) (frame : Bytes) (terminal raw : Bool) (e : SimEvent) :
    SameCourse p (p.countSend frame terminal raw e) := by
  unfold countSend
  cases e.sendOk <;> cases terminal <;> cases p.terminalLogged <;> exact ⟨rfl, rfl⟩

omit [Arith F64] in
/-- Preparing a frame leaves the course; an ordinary frame shows the truth. -/
theorem prepare_ok {tick : ℕ} {terminal : Bool} {sentNs : ℤ} {frame : Bytes}
    (h : p.prepare tick terminal sentNs = (p', .ok frame)) :
    SameCourse p p' ∧
      (terminal = false → frameOf tick (observe tick p.model.truth) false p.model.reason sentNs = .ok frame) := by
  unfold prepare at h
  split at h
  · rename_i hcached
    obtain ⟨rfl, -⟩ := Prod.mk.inj h
    refine ⟨⟨rfl, rfl⟩, fun hterminal => ?_⟩
    rw [hterminal] at hcached
    nomatch hcached
  · split at h
    · nomatch (Prod.mk.inj h).2
    · rename_i hframe
      obtain ⟨rfl, hok⟩ := Prod.mk.inj h
      obtain rfl := Except.ok.inj hok
      refine ⟨?_, fun hterminal => by rw [← hterminal]; exact hframe⟩
      cases terminal <;> exact ⟨rfl, rfl⟩

/-- An offer moves the stream of the uplink and nothing else of the model. -/
theorem offer_ok {tick : ℕ} {terminal prologue : Bool} {handed : Option Bytes}
    (h : p.offer spec tick terminal prologue e = (p', .ok handed)) :
    p'.model.bare = { p.model.bare with streamUp := (drawDrop p.model.streamUp spec.lossUp).2 } ∧
      p'.phase = p.phase ∧
      (terminal = false → ∃ drop,
        (prologue = true → drop = false) ∧
        (prologue = false → drop = Headless.dropOf spec tick .up (drawDrop p.model.streamUp spec.lossUp).1) ∧
        if drop then handed = none
        else ∃ frame, handed = some frame ∧
          frameOf tick (observe tick p.model.truth) false p.model.reason e.sentNs = .ok frame) := by
  unfold offer at h
  dsimp only at h
  cases hloss : Model.loss spec
      { p.model with
        events.sensorObservations :=
          p.model.events.sensorObservations + (!terminal || p.cachedTerminal.isNone).toNat } .up tick terminal prologue with
  | mk model outcome =>
  rw [hloss] at h
  cases outcome with
  | error failure => nomatch (Prod.mk.inj h).2
  | ok decided =>
  obtain ⟨raw, drop⟩ := decided
  obtain ⟨rfl, hraw, hfirst, hdrop⟩ := Model.loss_ok hloss
  rw [show raw = (drawDrop p.model.streamUp spec.lossUp).1 from hraw] at hdrop
  dsimp only at h
  generalize hdrawn : Process.mk .. = drawn at h
  have hbare : drawn.model.bare = { p.model.bare with streamUp := (drawDrop p.model.streamUp spec.lossUp).2 } := by
    rw [← hdrawn]
    exact Model.draw_up ..
  cases hprepare : (drawn.countOffer terminal prologue e).prepare tick terminal e.sentNs with
  | mk prepared outcome =>
  rw [hprepare] at h
  cases outcome with
  | error failure => nomatch (Prod.mk.inj h).2
  | ok frame =>
  obtain ⟨hsame, hframe⟩ := prepare_ok hprepare
  have hcounted := drawn.sameCourse_countOffer terminal prologue e
  obtain ⟨htruth, -, -, -, -, hreason, -⟩ := Model.fields_of_bare (hcounted.1.trans hbare)
  have hphase : drawn.phase = p.phase := by rw [← hdrawn]
  rw [show (drawn.countOffer terminal prologue e).model.truth = p.model.truth from htruth,
    show (drawn.countOffer terminal prologue e).model.reason = p.model.reason from hreason] at hframe
  have hprepared := hcounted.trans hsame
  dsimp only at h
  cases drop with
  | true =>
    obtain ⟨rfl, hhanded⟩ := Prod.mk.inj h
    obtain rfl := Except.ok.inj hhanded
    have hlost := hprepared.trans (prepared.sameCourse_countLost terminal raw)
    exact ⟨hlost.1.trans hbare, hlost.2.trans hphase, fun hterminal => ⟨true, hfirst, hdrop hterminal, rfl⟩⟩
  | false =>
    rw [if_neg Bool.false_ne_true] at h
    obtain ⟨rfl, hhanded⟩ := Prod.mk.inj h
    have hstamped : SameCourse prepared (if terminal && prepared.firstTerminalSend == 0 then
        { prepared with firstTerminalSend := e.sentNs } else prepared) := by
      split <;> exact ⟨rfl, rfl⟩
    have hsent := (hprepared.trans hstamped).trans (sameCourse_countSend _ frame terminal raw e)
    refine ⟨hsent.1.trans hbare, hsent.2.trans hphase, fun hterminal => ⟨false, hfirst, hdrop hterminal, ?_⟩⟩
    split at hhanded
    · nomatch hhanded
    · exact ⟨frame, (Except.ok.inj hhanded).symm, hframe hterminal⟩

/-! ## A body -/

omit [Arith F64] in
/-- The process runs on: its phase is that of a later body, or of the grace period. -/
def GoesOn (p : Process) : Prop := ∀ code, p.phase ≠ .finished code

omit [Arith F64] in
/-- An exception ends the process. -/
theorem not_goesOn_fail (p : Process) (failure : Failure) : ¬(p.fail failure).GoesOn := by
  unfold fail
  dsimp only
  split
  · exact fun h => h _ rfl
  · exact fun h => h _ rfl

/-- What a body does that is not the last: it receives, moves the plant, and offers the next frame. -/
structure Bodied (spec : Scenario F64) (p q : Process) (k : ℕ) (packets : List Bytes) (handed : Option Bytes)
    (e : SimEvent) (model advanced : Model) (selected arriving : Option F64) : Prop where
  inTime : k < spec.ticks - 1
  received : p.model.receive spec packets k = (model, .ok selected)
  unseen : model.vehicleSeen = none
  moved : model.advance spec k selected = (advanced, .ok arriving)
  course : q.model.bare = { advanced.bare with streamUp := (drawDrop advanced.streamUp spec.lossUp).2 }
  phase : q.phase = if advanced.reason.isSome then .grace k 1 else .body (k + 1)
  offered : advanced.reason = none →
    if Headless.dropOf spec (k + 1) .up (drawDrop advanced.streamUp spec.lossUp).1 then handed = none
    else ∃ frame, handed = some frame ∧
      frameOf (k + 1) (observe (k + 1) advanced.truth) false none e.sentNs = .ok frame

/-- A body after which the process runs on. -/
theorem turn_body {copies k : ℕ} {packets : List Bytes} {q : Process} {handed : Option Bytes}
    (hphase : p.phase = .body k) (hdrained : e.drained = .ok packets) (h : p.turn spec copies e = (q, handed))
    (hgoes : q.GoesOn) : ∃ model advanced selected arriving,
      Bodied spec p q k packets handed e model advanced selected arriving := by
  unfold turn at h
  rw [hphase] at h
  dsimp only at h
  by_cases hk : k < spec.ticks - 1
  · rw [if_pos hk] at h
    unfold body at h
    rw [hdrained] at h
    cases hslept : e.slept with
    | error failure =>
      rw [hslept] at h
      obtain ⟨rfl, -⟩ := Prod.mk.inj h
      exact absurd hgoes (not_goesOn_fail p failure)
    | ok _ =>
    rw [hslept] at h
    dsimp only at h
    generalize hreceived : Model.receive spec (p.noteDrain packets e).model packets k = received at h
    obtain ⟨model, received⟩ := received
    cases received with
    | error failure =>
      obtain ⟨rfl, -⟩ := Prod.mk.inj h
      exact absurd hgoes (not_goesOn_fail _ failure)
    | ok selected =>
    dsimp only at h
    cases hseen : model.vehicleSeen with
    | some reason =>
      rw [hseen, Option.isSome_some, if_pos rfl] at h
      obtain ⟨rfl, -⟩ := Prod.mk.inj h
      exact absurd rfl (hgoes 0)
    | none =>
    rw [hseen, Option.isSome_none, if_neg Bool.false_ne_true] at h
    unfold advance at h
    dsimp only at h
    generalize hmoved : Model.advance spec model k selected = moved at h
    obtain ⟨advanced, moved⟩ := moved
    cases moved with
    | error failure =>
      obtain ⟨rfl, -⟩ := Prod.mk.inj h
      exact absurd hgoes (not_goesOn_fail _ failure)
    | ok arriving =>
    dsimp only at h
    have hnoted (p : Process) : (p.noteAdvance k advanced selected arriving e).model = advanced := by
      unfold noteAdvance
      cases advanced.reason <;> rfl
    generalize hoffered : Process.offer spec (noteAdvance _ k advanced selected arriving e) .. = offered at h
    obtain ⟨sent, offered⟩ := offered
    cases offered with
    | error failure =>
      obtain ⟨rfl, -⟩ := Prod.mk.inj h
      exact absurd hgoes (not_goesOn_fail _ failure)
    | ok frame =>
    obtain ⟨rfl, rfl⟩ := Prod.mk.inj h
    obtain ⟨hcourse, -, hframe⟩ := offer_ok hoffered
    rw [hnoted] at hcourse hframe
    refine ⟨model, advanced, selected, arriving, hk, hreceived, hseen, hmoved, hcourse, rfl, fun hreason => ?_⟩
    obtain ⟨drop, -, hdrop, hhanded⟩ := hframe (by rw [hreason]; rfl)
    rw [hdrop rfl, hreason] at hhanded
    exact hhanded
  · rw [if_neg hk] at h
    obtain ⟨rfl, -⟩ := Prod.mk.inj h
    exact absurd rfl (hgoes 0)

/-- The first turn, if the process runs on: the first frame is always handed to the socket. -/
theorem turn_prologue {copies : ℕ} {q : Process} {handed : Option Bytes} (hphase : p.phase = .prologue)
    (h : p.turn spec copies e = (q, handed)) (hgoes : q.GoesOn) :
    q.phase = .body 0 ∧
      q.model.bare = { p.model.bare with streamUp := (drawDrop p.model.streamUp spec.lossUp).2 } ∧
      ∃ frame, handed = some frame ∧
        frameOf 0 (observe 0 p.model.truth) false p.model.reason e.sentNs = .ok frame := by
  unfold turn at h
  rw [hphase] at h
  unfold prologue at h
  dsimp only at h
  generalize hoffered : Process.offer spec p 0 false true e = offered at h
  obtain ⟨sent, offered⟩ := offered
  cases offered with
  | error failure =>
    obtain ⟨rfl, -⟩ := Prod.mk.inj h
    exact absurd hgoes (not_goesOn_fail _ failure)
  | ok frame =>
  obtain ⟨rfl, rfl⟩ := Prod.mk.inj h
  obtain ⟨hcourse, -, hframe⟩ := offer_ok hoffered
  obtain ⟨drop, hfirst, -, hhanded⟩ := hframe rfl
  rw [hfirst rfl, if_neg Bool.false_ne_true] at hhanded
  exact ⟨rfl, hcourse, hhanded⟩

end Process

end Tvc.Freerun
