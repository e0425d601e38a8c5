import Tvc.Freerun.Endings
import Tvc.Rng

/-!
# What the calls of a run leave of the free-run model

The loops of `execute` ask the model three things: whether an offer is lost, what a batch of packets selects, and to
advance. Each reply that is received takes the next draw of the downlink, which decides its fate; the counters are
those of the fates, and what survives a batch is selected, superseded, or the end of the run.
-/

namespace Tvc.Freerun

/-! ## The fates of the replies -/

/-- A reply that has taken its draw. -/
structure Fate where
  value : Wire.Fields
  lost : Bool

namespace Fate

/-- It announces the vehicle's end. -/
def terminal (fate : Fate) : Bool := stateByte fate.value == 3

/-- The command that survives. -/
def survivor (fate : Fate) : Option Wire.Fields := if fate.terminal || fate.lost then none else some fate.value

/-- The vehicle's reason that survives. -/
def seen (fate : Fate) : Option ℕ := if fate.terminal && !fate.lost then some (reasonByte fate.value) else none

end Fate

/-- The replies among some packets, with the tick of the body that receives them. -/
def repliesOf (bodyTick : ℕ) (packets : List Bytes) : List (ℕ × Wire.Fields) :=
  packets.filterMap fun data => (decodeReply data).toOption.map (bodyTick, ·)

section General

variable [Arith F64] {spec : Scenario F64}

/-- The fate of a reply that takes the next draw of a stream. -/
def fateOf (spec : Scenario F64) (state : U64) (reply : ℕ × Wire.Fields) : Fate :=
  let raw := (drawDrop state spec.lossDown).1
  ⟨reply.2, if stateByte reply.2 == 3 then raw else Headless.dropOf spec reply.1 .down raw⟩

/-- The fates of replies that take the draws of a stream one after the other. -/
def fates (spec : Scenario F64) (state : U64) : List (ℕ × Wire.Fields) → List Fate
  | [] => []
  | reply :: replies => fateOf spec state reply :: fates spec (Rng.nextU64 state).2 replies

/-- Every reply has its fate. -/
@[simp] theorem fates_length (state : U64) (replies : List (ℕ × Wire.Fields)) :
    (fates spec state replies).length = replies.length := by
  induction replies generalizing state with
  | nil => rfl
  | cons reply replies ih => exact congrArg Nat.succ (ih _)

omit [Arith F64] in
/-- A stream goes on from where it is. -/
theorem stateAfter_succ (state : U64) (n : ℕ) :
    Rng.stateAfter state (n + 1) = Rng.stateAfter (Rng.nextU64 state).2 n :=
  Function.iterate_succ_apply _ n state

/-- The replies of a second batch take the draws after those of the first. -/
theorem fates_append (state : U64) (first second : List (ℕ × Wire.Fields)) :
    fates spec state (first ++ second) =
      fates spec state first ++ fates spec (Rng.stateAfter state first.length) second := by
  induction first generalizing state with
  | nil => rfl
  | cons reply first ih =>
    rw [List.cons_append, fates, fates, ih, List.cons_append, List.length_cons, stateAfter_succ]

namespace Model

variable {m m' : Model}

/-! ## One packet -/

/-- The loss of a reply takes the next draw of the downlink. -/
theorem loss_reply {bodyTick : ℕ} {value : Wire.Fields} {raw drop : Bool}
    (h : m.loss spec .down bodyTick (stateByte value == 3) false = (m', .ok (raw, drop))) :
    m' = (m.draw spec .down).2 ∧ drop = (fateOf spec m.streamDown (bodyTick, value)).lost := by
  obtain ⟨hmodel, hraw, -, hdrop⟩ := loss_ok h
  refine ⟨hmodel, ?_⟩
  unfold fateOf
  dsimp only
  cases hterminal : stateByte value == 3 with
  | false =>
    rw [if_neg Bool.false_ne_true, hdrop hterminal rfl, hraw]
    rfl
  | true =>
    rw [hterminal] at h
    obtain ⟨-, hdecided⟩ := Prod.mk.inj h
    rw [if_pos rfl]
    exact (Prod.mk.inj (Except.ok.inj hdecided)).2.symm

omit [Arith F64] in
/-- Moving a stream leaves what was seen. -/
theorem moved_seen (m : Model) (streamDown : U64) (drawsDown : ℕ) :
    ({ m with streamDown, drawsDown } : Model).vehicleSeen = m.vehicleSeen := rfl

/-- A draw of the downlink moves its stream, and counts. -/
theorem draw_reply (spec : Scenario F64) (m : Model) :
    (m.draw spec .down).2 =
      { m with streamDown := (Rng.nextU64 m.streamDown).2, drawsDown := m.drawsDown + 1 } := rfl

omit [Arith F64] in
/-- Counting a receipt leaves what was seen. -/
theorem countReceived_seen (m : Model) (value : Wire.Fields) (terminal drop : Bool) :
    (m.countReceived value terminal drop).vehicleSeen = m.vehicleSeen := by
  cases terminal <;> rfl

omit [Arith F64] in
/-- The model after a reply has met its fate. -/
def settle (m : Model) (streamDown : U64) (fate : Fate) : Model :=
  { ({ m with streamDown, drawsDown := m.drawsDown + 1 } : Model).countReceived fate.value fate.terminal fate.lost with
    vehicleSeen := fate.seen.or m.vehicleSeen }

/-- A packet that raises nothing is malformed, or a reply that meets its fate. -/
theorem receivePacket_ok {bodyTick : ℕ} {data : Bytes} {survivor : Option Wire.Fields}
    (h : m.receivePacket spec bodyTick data = (m', .ok survivor)) :
    (repliesOf bodyTick [data] = [] ∧ survivor = none ∧
        m' = { m with down.malformed := m.down.malformed + 1 }) ∨
      ∃ value, repliesOf bodyTick [data] = [(bodyTick, value)] ∧
        survivor = (fateOf spec m.streamDown (bodyTick, value)).survivor ∧
        m' = m.settle (Rng.nextU64 m.streamDown).2 (fateOf spec m.streamDown (bodyTick, value)) := by
  unfold receivePacket at h
  cases hdecode : decodeReply data with
  | error failure =>
    rw [hdecode] at h
    obtain ⟨hmodel, hnone⟩ := Prod.mk.inj h
    exact .inl ⟨by simp [repliesOf, hdecode, Except.toOption], (Except.ok.inj hnone).symm, hmodel.symm⟩
  | ok value =>
  rw [hdecode] at h
  dsimp only at h
  cases hloss : m.loss spec .down bodyTick (stateByte value == 3) false with
  | mk drawn outcome =>
  rw [hloss] at h
  cases outcome with
  | error failure => exact absurd (Prod.mk.inj h).2 (by simp)
  | ok decided =>
  obtain ⟨raw, drop⟩ := decided
  obtain ⟨rfl, hdrop⟩ := loss_reply hloss
  refine .inr ⟨value, by simp [repliesOf, hdecode, Except.toOption], ?_⟩
  have hvalue : (fateOf spec m.streamDown (bodyTick, value)).value = value := rfl
  generalize fateOf spec m.streamDown (bodyTick, value) = fate at hdrop hvalue ⊢
  subst hvalue hdrop
  rw [draw_reply] at h
  unfold settle Fate.survivor Fate.seen
  have hdrawn := moved_seen m (Rng.nextU64 m.streamDown).2 (m.drawsDown + 1)
  generalize ({ m with streamDown := (Rng.nextU64 m.streamDown).2, drawsDown := m.drawsDown + 1 } : Model) = drawn
    at h hdrawn ⊢
  have hunseen : (drawn.countReceived fate.value fate.terminal fate.lost).vehicleSeen = m.vehicleSeen := by
    rw [countReceived_seen, hdrawn]
  dsimp only at h
  rw [show (stateByte fate.value == 3) = fate.terminal from rfl] at h
  generalize drawn.countReceived fate.value fate.terminal fate.lost = counted at h hunseen ⊢
  rw [← hunseen]
  cases hlost : fate.lost with
  | true =>
    rw [hlost, if_pos rfl] at h
    obtain ⟨rfl, hnone⟩ := Prod.mk.inj h
    rw [Bool.or_true, if_pos rfl, Bool.not_true, Bool.and_false, if_neg Bool.false_ne_true, Option.none_or]
    exact ⟨(Except.ok.inj hnone).symm, rfl⟩
  | false =>
    rw [hlost, if_neg Bool.false_ne_true] at h
    cases hterminal : fate.terminal with
    | true =>
      rw [hterminal, Bool.not_true, Bool.false_and, if_neg Bool.false_ne_true, if_pos rfl] at h
      split at h
      · exact absurd (Prod.mk.inj h).2 (by simp)
      · obtain ⟨rfl, hnone⟩ := Prod.mk.inj h
        exact ⟨(Except.ok.inj hnone).symm, rfl⟩
    | false =>
      rw [hterminal] at h
      split at h
      · exact absurd (Prod.mk.inj h).2 (by simp)
      · obtain ⟨rfl, hsome⟩ := Prod.mk.inj h
        rw [Bool.false_and, if_neg Bool.false_ne_true, Option.none_or]
        exact ⟨(Except.ok.inj hsome).symm, rfl⟩

/-! ## What the counters of the downlink say -/

/-- The counters of the downlink are those of the fates of the replies so far. -/
structure Ledger (spec : Scenario F64) (state : U64) (replies : List (ℕ × Wire.Fields)) (m : Model) : Prop where
  draws : m.drawsDown = replies.length
  stream : m.streamDown = Rng.stateAfter state replies.length
  received : m.down.received = (fates spec state replies).countP fun fate => !fate.terminal
  lost : m.down.intentionallyLost = (fates spec state replies).countP fun fate => !fate.terminal && fate.lost
  raw : m.term.downReceivedRaw = (fates spec state replies).countP Fate.terminal
  rawLost : m.term.downIntentionallyLost = (fates spec state replies).countP fun fate => fate.terminal && fate.lost
  survived : m.term.downSurvived = (fates spec state replies).countP fun fate => fate.terminal && !fate.lost
  seen : m.vehicleSeen.isSome ↔ 0 < m.term.downSurvived

omit [Arith F64] in
/-- What a fate adds to the counters. -/
theorem settle_counts (m : Model) (streamDown : U64) (fate : Fate) :
    (m.settle streamDown fate).down.received = m.down.received + (!fate.terminal).toNat ∧
      (m.settle streamDown fate).down.intentionallyLost =
        m.down.intentionallyLost + (!fate.terminal && fate.lost).toNat ∧
      (m.settle streamDown fate).term.downReceivedRaw = m.term.downReceivedRaw + fate.terminal.toNat ∧
      (m.settle streamDown fate).term.downIntentionallyLost =
        m.term.downIntentionallyLost + (fate.terminal && fate.lost).toNat ∧
      (m.settle streamDown fate).term.downSurvived = m.term.downSurvived + (fate.terminal && !fate.lost).toNat ∧
      (m.settle streamDown fate).drawsDown = m.drawsDown + 1 ∧
      (m.settle streamDown fate).streamDown = streamDown := by
  unfold settle
  cases fate.terminal <;> cases fate.lost <;> exact ⟨rfl, rfl, rfl, rfl, rfl, rfl, rfl⟩

/-- A reply that meets its fate is written to the ledger. -/
theorem Ledger.settle {state : U64} {replies : List (ℕ × Wire.Fields)} (h : Ledger spec state replies m)
    (reply : ℕ × Wire.Fields) :
    Ledger spec state (replies ++ [reply]) (m.settle (Rng.nextU64 m.streamDown).2 (fateOf spec m.streamDown reply)) := by
  have hnext : (Rng.nextU64 m.streamDown).2 = Rng.stateAfter state (replies.length + 1) := by
    rw [h.stream, Rng.stateAfter, Rng.stateAfter, Function.iterate_succ_apply']
  have hfates : fates spec state (replies ++ [reply]) =
      fates spec state replies ++ [fateOf spec m.streamDown reply] := by
    rw [fates_append, h.stream]
    rfl
  generalize (Rng.nextU64 m.streamDown).2 = next at hnext ⊢
  generalize fateOf spec m.streamDown reply = fate at hfates ⊢
  obtain ⟨hreceived, hlost, hraw, hrawLost, hsurvived, hdraws, hstream⟩ := m.settle_counts next fate
  have hcount (p : Fate → Bool) : (fates spec state (replies ++ [reply])).countP p =
      (fates spec state replies).countP p + (p fate).toNat := by
    rw [hfates, List.countP_append, List.countP_singleton]
    cases p fate <;> rfl
  constructor
  · rw [hdraws, h.draws, List.length_append, List.length_singleton]
  · rw [hstream, hnext, List.length_append, List.length_singleton]
  · rw [hreceived, h.received, hcount]
  · rw [hlost, h.lost, hcount]
  · rw [hraw, h.raw, hcount]
  · rw [hrawLost, h.rawLost, hcount]
  · rw [hsurvived, h.survived, hcount]
  · rw [hsurvived]
    have hseen : (m.settle next fate).vehicleSeen = fate.seen.or m.vehicleSeen := rfl
    rw [hseen, Fate.seen]
    cases fate.terminal && !fate.lost with
    | true => simp
    | false => simpa using h.seen

omit [Arith F64] in
/-- What the packets of a receipt leave alone. -/
def held (m : Model) : Model :=
  { m with
    streamDown := 0
    drawsDown := 0
    down := { actuatorSelected := m.down.actuatorSelected, superseded := m.down.superseded }
    term := {}
    vehicleSeen := none }

omit [Arith F64] in
/-- A fate leaves the rest alone. -/
theorem settle_held (m : Model) (streamDown : U64) (fate : Fate) : (m.settle streamDown fate).held = m.held := by
  unfold settle
  cases fate.terminal <;> rfl

/-- What packets that raise nothing do: each reply meets its fate. -/
structure Receipt (spec : Scenario F64) (bodyTick : ℕ) (packets : List Bytes) (m m' : Model)
    (survivors : List Wire.Fields) : Prop where
  held : m'.held = m.held
  stream : m'.streamDown = Rng.stateAfter m.streamDown (repliesOf bodyTick packets).length
  survivors : survivors = (fates spec m.streamDown (repliesOf bodyTick packets)).filterMap Fate.survivor
  ledger : ∀ state replies, Ledger spec state replies m → Ledger spec state (replies ++ repliesOf bodyTick packets) m'

/-- One packet. -/
theorem receivePacket_receipt {bodyTick : ℕ} {data : Bytes} {survivor : Option Wire.Fields}
    (h : m.receivePacket spec bodyTick data = (m', .ok survivor)) :
    Receipt spec bodyTick [data] m m' survivor.toList := by
  rcases receivePacket_ok h with ⟨hnone, rfl, rfl⟩ | ⟨value, hone, rfl, rfl⟩
  · constructor
    · rfl
    · rw [hnone]
      rfl
    · rw [hnone]
      rfl
    · intro state replies hledger
      rw [hnone, List.append_nil]
      exact ⟨hledger.draws, hledger.stream, hledger.received, hledger.lost, hledger.raw, hledger.rawLost,
        hledger.survived, hledger.seen⟩
  · constructor
    · exact settle_held ..
    · rw [hone]
      exact (settle_counts ..).2.2.2.2.2.2
    · rw [hone, fates, fates, List.filterMap_cons, List.filterMap_nil]
      cases (fateOf spec m.streamDown (bodyTick, value)).survivor <;> rfl
    · intro state replies hledger
      rw [hone]
      exact hledger.settle (bodyTick, value)

/-- All packets, in order. -/
theorem receivePackets_receipt {bodyTick : ℕ} {packets : List Bytes} {survivors : List Wire.Fields}
    (h : m.receivePackets spec bodyTick packets = (m', .ok survivors)) :
    Receipt spec bodyTick packets m m' survivors := by
  induction packets generalizing m survivors with
  | nil =>
    obtain ⟨rfl, hnone⟩ := Prod.mk.inj h
    obtain rfl := Except.ok.inj hnone
    exact ⟨rfl, rfl, rfl, fun state replies hledger => by simpa [repliesOf] using hledger⟩
  | cons data packets ih =>
    rw [receivePackets] at h
    cases hfirst : m.receivePacket spec bodyTick data with
    | mk first survivor =>
    rw [hfirst] at h
    cases survivor with
    | error failure => exact absurd (Prod.mk.inj h).2 (by simp)
    | ok survivor =>
    dsimp only at h
    cases hrest : first.receivePackets spec bodyTick packets with
    | mk last later =>
    rw [hrest] at h
    cases later with
    | error failure => exact absurd (Prod.mk.inj h).2 (by simp)
    | ok later =>
    obtain ⟨rfl, hsurvivors⟩ := Prod.mk.inj h
    obtain rfl := Except.ok.inj hsurvivors
    have hone := receivePacket_receipt hfirst
    have hmore := ih hrest
    have hreplies : repliesOf bodyTick (data :: packets) = repliesOf bodyTick [data] ++ repliesOf bodyTick packets :=
      List.filterMap_append (l := [data])
    constructor
    · exact hmore.held.trans hone.held
    · rw [hmore.stream, hone.stream, hreplies, List.length_append, Rng.stateAfter, Rng.stateAfter, Rng.stateAfter,
        Nat.add_comm, Function.iterate_add_apply]
    · rw [hreplies, fates_append, List.filterMap_append, ← hone.survivors, ← hone.stream, ← hmore.survivors]
    · intro state replies hledger
      rw [hreplies, ← List.append_assoc]
      exact hmore.ledger state _ (hone.ledger state replies hledger)

/-- A receipt that raises nothing takes its packets, and then settles what survived. -/
theorem receive_ok {packets : List Bytes} {bodyTick : ℕ} {selected : Option F64}
    (h : m.receive spec packets bodyTick = (m', .ok selected)) :
    ∃ received survivors actuatorSelected superseded reason,
      Receipt spec bodyTick packets m received survivors ∧
        m' = { received with down := { received.down with actuatorSelected, superseded }, reason } ∧
        actuatorSelected + superseded =
          received.down.actuatorSelected + received.down.superseded + survivors.length ∧
        ∀ earlier, received.reason = some earlier → reason = some earlier := by
  unfold receive at h
  cases hpackets : m.receivePackets spec bodyTick packets with
  | mk received outcome =>
  rw [hpackets] at h
  cases outcome with
  | error failure => nomatch (Prod.mk.inj h).2
  | ok survivors =>
  have hreceipt := receivePackets_receipt hpackets
  dsimp only at h
  cases hseen : received.vehicleSeen.isSome with
  | true =>
    rw [hseen, if_pos rfl] at h
    obtain ⟨rfl, -⟩ := Prod.mk.inj h
    refine ⟨received, survivors, _, _, _, hreceipt, rfl, by omega, fun earlier hearlier => ?_⟩
    rw [hearlier, Option.some_or]
  | false =>
    rw [hseen, if_neg Bool.false_ne_true, RunningMax.foldl_pick_none] at h
    cases hbest : survivors.argmax fun value => value.int .tick with
    | none =>
      rw [hbest] at h
      obtain ⟨rfl, -⟩ := Prod.mk.inj h
      obtain rfl := List.argmax_eq_none.mp hbest
      exact ⟨received, [], _, _, _, hreceipt, rfl, by simp, fun earlier hearlier => hearlier⟩
    | some best =>
      rw [hbest] at h
      obtain ⟨rfl, -⟩ := Prod.mk.inj h
      have hsome : 0 < survivors.length := List.length_pos_of_mem (List.argmax_mem hbest)
      exact ⟨received, survivors, _, _, _, hreceipt, rfl, by omega, fun earlier hearlier => hearlier⟩

/-- A plant step that is taken was open to it, and counts. -/
theorem advance_counts {k : ℕ} {selected arriving : Option F64} (h : m.advance spec k selected = (m', .ok arriving)) :
    m.reason = none ∧
      ∃ truth act reason, m' =
        { m with
          truth
          act
          delay := (m.delay ++ [selected]).tail
          events.plantSteps := m.events.plantSteps + 1
          events.fifoAdvances := m.events.fifoAdvances + 1
          events.actuatorUpdates := m.events.actuatorUpdates + 1
          reason } := by
  unfold advance at h
  split at h
  · nomatch (Prod.mk.inj h).2
  · rename_i hopen
    dsimp only at h
    split at h
    · nomatch (Prod.mk.inj h).2
    · obtain ⟨rfl, -⟩ := Prod.mk.inj h
      exact ⟨Option.not_isSome_iff_eq_none.mp hopen, _, _, _, rfl⟩

end Model

/-! ## Calls -/

/-- A call that the loops of `execute` make of the model: the loss of an offer, a batch of packets, a plant step. -/
inductive ModelCall
  | loss (tick : ℕ) (terminal prologue : Bool)
  | receive (packets : List Bytes) (bodyTick : ℕ)
  | advance (k : ℕ) (selected : Option F64)

namespace ModelCall

/-- It is that of an offer. -/
def isOffer : ModelCall → Bool
  | loss .. => true
  | _ => false

/-- It is a plant step. -/
def isAdvance : ModelCall → Bool
  | advance .. => true
  | _ => false

/-- The replies that it receives. -/
def replies : ModelCall → List (ℕ × Wire.Fields)
  | receive packets bodyTick => repliesOf bodyTick packets
  | _ => []

end ModelCall

namespace Model

variable {m m' : Model}

omit [Arith F64] in
/-- The model of a call that raised nothing. -/
def completed {α : Type} : Model × Except Failure α → Except Failure Model
  | (_, .error failure) => .error failure
  | (m, .ok _) => .ok m

/-- The model after a call. -/
def call (spec : Scenario F64) (m : Model) : ModelCall → Except Failure Model
  | .loss tick terminal prologue => completed (m.loss spec .up tick terminal prologue)
  | .receive packets bodyTick => completed (m.receive spec packets bodyTick)
  | .advance k selected => completed (m.advance spec k selected)

/-- The model after some calls; the first exception ends them. -/
def calls (spec : Scenario F64) (m : Model) (cs : List ModelCall) : Except Failure Model := cs.foldlM (call spec) m

omit [Arith F64] in
/-- A call that raised nothing has an answer. -/
theorem of_completed {α : Type} {x : Model × Except Failure α} (h : completed x = .ok m') :
    ∃ answer, x = (m', .ok answer) := by
  obtain ⟨m, outcome⟩ := x
  cases outcome with
  | error failure => nomatch h
  | ok answer => exact ⟨answer, by rw [Except.ok.inj h]⟩

omit [Arith F64] in
/-- A call receives its replies after those before it. -/
theorem replies_concat (done : List ModelCall) (c : ModelCall) :
    (done ++ [c]).flatMap ModelCall.replies = done.flatMap ModelCall.replies ++ c.replies := by
  rw [List.flatMap_append, List.flatMap_singleton]

omit [Arith F64] in
/-- A call is counted after those before it. -/
theorem countP_concat (p : ModelCall → Bool) (done : List ModelCall) (c : ModelCall) :
    (done ++ [c]).countP p = done.countP p + (p c).toNat := by
  rw [List.countP_append, List.countP_singleton]
  cases p c <;> rfl

/-- What holds of the model after some calls from the start of a run. -/
structure Course (spec : Scenario F64) (start : Model) (done : List ModelCall) (m : Model) : Prop where
  ledger : Ledger spec start.streamDown (done.flatMap ModelCall.replies) m
  settled : m.down.actuatorSelected + m.down.superseded =
    (fates spec start.streamDown (done.flatMap ModelCall.replies)).countP (·.survivor.isSome)
  drawsUp : m.drawsUp = done.countP ModelCall.isOffer
  streamUp : m.streamUp = Rng.stateAfter start.streamUp m.drawsUp
  plantSteps : m.events.plantSteps = done.countP ModelCall.isAdvance
  fifoAdvances : m.events.fifoAdvances = done.countP ModelCall.isAdvance
  actuatorUpdates : m.events.actuatorUpdates = done.countP ModelCall.isAdvance
  delay : m.delay.length = start.delay.length

/-- A draw of the uplink moves its stream, and counts. -/
theorem draw_offer (spec : Scenario F64) (m : Model) :
    (m.draw spec .up).2 = { m with streamUp := (Rng.nextU64 m.streamUp).2, drawsUp := m.drawsUp + 1 } := rfl

/-- A new model has its streams where the seed puts them, and as many entries on their way as ticks of delay. -/
theorem new_start {seed : U64} {delayTicks : Fin 2} (h : new spec seed delayTicks = .ok m) :
    m.streamUp = Rng.streamState seed .linkLossUp ∧ m.streamDown = Rng.streamState seed .linkLossDown ∧
      m.delay.length = delayTicks ∧ Course spec m [] m := by
  unfold new at h
  split at h
  · nomatch h
  · split at h
    · nomatch h
    · rw [← Except.ok.inj h]
      refine ⟨rfl, rfl, List.length_replicate, ⟨⟨rfl, rfl, rfl, rfl, rfl, rfl, rfl, ?_⟩, rfl, rfl, rfl, rfl, rfl, rfl, rfl⟩⟩
      exact ⟨fun h => absurd h Bool.false_ne_true, fun h => absurd h (lt_irrefl 0)⟩

/-- The loss of an offer draws once from the uplink. -/
theorem Course.loss {start : Model} {done : List ModelCall} (h : Course spec start done m) {tick : ℕ}
    {terminal prologue : Bool} {answer : Bool × Bool}
    (hcall : m.loss spec .up tick terminal prologue = (m', .ok answer)) :
    Course spec start (done ++ [.loss tick terminal prologue]) m' := by
  obtain ⟨rfl, -⟩ := loss_ok hcall
  rw [draw_offer]
  have hnext : (Rng.nextU64 m.streamUp).2 = Rng.stateAfter start.streamUp (m.drawsUp + 1) := by
    rw [h.streamUp, Rng.stateAfter, Rng.stateAfter, Function.iterate_succ_apply']
  generalize (Rng.nextU64 m.streamUp).2 = next at hnext ⊢
  have hreplies := (replies_concat done (.loss tick terminal prologue)).trans (List.append_nil _)
  have hsteps := countP_concat ModelCall.isAdvance done (.loss tick terminal prologue)
  have hledger := h.ledger
  constructor
  · rw [hreplies]
    exact ⟨hledger.draws, hledger.stream, hledger.received, hledger.lost, hledger.raw, hledger.rawLost,
      hledger.survived, hledger.seen⟩
  · rw [hreplies]
    exact h.settled
  · rw [countP_concat, ← h.drawsUp]
    rfl
  · exact hnext
  · exact h.plantSteps.trans hsteps.symm
  · exact h.fifoAdvances.trans hsteps.symm
  · exact h.actuatorUpdates.trans hsteps.symm
  · exact h.delay

/-- A batch of packets gives each reply its fate, and settles what survived. -/
theorem Course.receive {start : Model} {done : List ModelCall} (h : Course spec start done m) {packets : List Bytes}
    {bodyTick : ℕ} {answer : Option F64} (hcall : m.receive spec packets bodyTick = (m', .ok answer)) :
    Course spec start (done ++ [.receive packets bodyTick]) m' := by
  obtain ⟨received, survivors, actuatorSelected, superseded, reason, hreceipt, rfl, hsum, -⟩ := receive_ok hcall
  have hreplies : (done ++ [ModelCall.receive packets bodyTick]).flatMap ModelCall.replies =
      done.flatMap ModelCall.replies ++ repliesOf bodyTick packets := replies_concat ..
  have hoffers := countP_concat ModelCall.isOffer done (.receive packets bodyTick)
  have hsteps := countP_concat ModelCall.isAdvance done (.receive packets bodyTick)
  have hheld {α : Type} (f : Model → α) : f received.held = f m.held := congrArg f hreceipt.held
  have hselected : received.down.actuatorSelected = m.down.actuatorSelected := hheld (·.down.actuatorSelected)
  have hsuperseded : received.down.superseded = m.down.superseded := hheld (·.down.superseded)
  have hdrawsUp : received.drawsUp = m.drawsUp := hheld Model.drawsUp
  have hledger := hreceipt.ledger _ _ h.ledger
  constructor
  · rw [hreplies]
    exact ⟨hledger.draws, hledger.stream, hledger.received, hledger.lost, hledger.raw, hledger.rawLost,
      hledger.survived, hledger.seen⟩
  · change actuatorSelected + superseded = _
    rw [hsum, hselected, hsuperseded, h.settled, hreplies, fates_append, List.countP_append, hreceipt.survivors,
      List.length_filterMap_eq_countP, h.ledger.stream]
  · exact hdrawsUp.trans (h.drawsUp.trans hoffers.symm)
  · change received.streamUp = Rng.stateAfter start.streamUp received.drawsUp
    rw [hdrawsUp, ← h.streamUp]
    exact hheld Model.streamUp
  · exact (hheld (·.events.plantSteps)).trans (h.plantSteps.trans hsteps.symm)
  · exact (hheld (·.events.fifoAdvances)).trans (h.fifoAdvances.trans hsteps.symm)
  · exact (hheld (·.events.actuatorUpdates)).trans (h.actuatorUpdates.trans hsteps.symm)
  · exact (hheld (·.delay.length)).trans h.delay

/-- A plant step counts, and passes one entry on. -/
theorem Course.advance {start : Model} {done : List ModelCall} (h : Course spec start done m) {k : ℕ}
    {selected answer : Option F64} (hcall : m.advance spec k selected = (m', .ok answer)) :
    Course spec start (done ++ [.advance k selected]) m' := by
  obtain ⟨-, truth, act, reason, rfl⟩ := advance_counts hcall
  have hreplies := (replies_concat done (.advance k selected)).trans (List.append_nil _)
  have hoffers := countP_concat ModelCall.isOffer done (.advance k selected)
  have hsteps := countP_concat ModelCall.isAdvance done (.advance k selected)
  have hledger := h.ledger
  constructor
  · rw [hreplies]
    exact ⟨hledger.draws, hledger.stream, hledger.received, hledger.lost, hledger.raw, hledger.rawLost,
      hledger.survived, hledger.seen⟩
  · rw [hreplies]
    exact h.settled
  · exact h.drawsUp.trans hoffers.symm
  · exact h.streamUp
  · exact (congrArg Nat.succ h.plantSteps).trans hsteps.symm
  · exact (congrArg Nat.succ h.fifoAdvances).trans hsteps.symm
  · exact (congrArg Nat.succ h.actuatorUpdates).trans hsteps.symm
  · change (m.delay ++ [selected]).tail.length = _
    rw [List.length_tail, List.length_append, List.length_singleton, Nat.add_sub_cancel, h.delay]

/-- What a call keeps. -/
theorem Course.call {start : Model} {done : List ModelCall} (h : Course spec start done m) {c : ModelCall}
    (hcall : m.call spec c = .ok m') : Course spec start (done ++ [c]) m' := by
  cases c with
  | loss tick terminal prologue =>
    obtain ⟨answer, hanswer⟩ := of_completed hcall
    exact h.loss hanswer
  | receive packets bodyTick =>
    obtain ⟨answer, hanswer⟩ := of_completed hcall
    exact h.receive hanswer
  | advance k selected =>
    obtain ⟨answer, hanswer⟩ := of_completed hcall
    exact h.advance hanswer

/-- What any calls keep. -/
theorem Course.calls {start : Model} {done : List ModelCall} (h : Course spec start done m) {cs : List ModelCall}
    (hcalls : m.calls spec cs = .ok m') : Course spec start (done ++ cs) m' := by
  induction cs generalizing m done with
  | nil =>
    obtain rfl := Except.ok.inj hcalls
    rw [List.append_nil]
    exact h
  | cons c cs ih =>
    unfold Model.calls at hcalls
    rw [List.foldlM_cons] at hcalls
    cases hfirst : m.call spec c with
    | error failure =>
      rw [hfirst] at hcalls
      nomatch hcalls
    | ok next =>
      rw [hfirst] at hcalls
      have hlater := ih (h.call hfirst) hcalls
      rwa [List.append_assoc] at hlater

/-- A reason that is set stays, and no plant step is taken after it. -/
theorem call_reason {c : ModelCall} {reason : SimReason} (hcall : m.call spec c = .ok m')
    (hreason : m.reason = some reason) : m'.reason = some reason ∧ c.isAdvance = false := by
  cases c with
  | loss tick terminal prologue =>
    obtain ⟨answer, hanswer⟩ := of_completed hcall
    obtain ⟨rfl, -⟩ := loss_ok hanswer
    exact ⟨(fields_of_bare (draw_up spec m)).2.2.2.2.2.1.trans hreason, rfl⟩
  | receive packets bodyTick =>
    obtain ⟨answer, hanswer⟩ := of_completed hcall
    obtain ⟨received, survivors, actuatorSelected, superseded, after, hreceipt, rfl, -, hkept⟩ := receive_ok hanswer
    have hheld : received.held.reason = m.held.reason := congrArg Model.reason hreceipt.held
    exact ⟨hkept reason (hheld.trans hreason), rfl⟩
  | advance k selected =>
    obtain ⟨answer, hanswer⟩ := of_completed hcall
    obtain ⟨hopen, -⟩ := advance_counts hanswer
    rw [hopen] at hreason
    nomatch hreason

/-- The same of any calls. -/
theorem calls_reason {cs : List ModelCall} {reason : SimReason} (hcalls : m.calls spec cs = .ok m')
    (hreason : m.reason = some reason) : m'.reason = some reason ∧ cs.countP ModelCall.isAdvance = 0 := by
  induction cs generalizing m with
  | nil =>
    obtain rfl := Except.ok.inj hcalls
    exact ⟨hreason, rfl⟩
  | cons c cs ih =>
    unfold calls at hcalls
    rw [List.foldlM_cons] at hcalls
    cases hfirst : m.call spec c with
    | error failure =>
      rw [hfirst] at hcalls
      nomatch hcalls
    | ok next =>
      rw [hfirst] at hcalls
      obtain ⟨hkept, hcalm⟩ := call_reason hfirst hreason
      obtain ⟨hlast, hnone⟩ := ih hcalls hkept
      rw [List.countP_cons, hcalm, if_neg Bool.false_ne_true, hnone]
      exact ⟨hlast, rfl⟩

end Model

namespace Process

omit [Arith F64] in
/-- Counting an offer draws nothing. -/
theorem countOffer_drawsUp (p : Process) (terminal prologue : Bool) (e : SimEvent) :
    (p.countOffer terminal prologue e).model.drawsUp = p.model.drawsUp := by
  cases terminal <;> cases prologue <;> rfl

omit [Arith F64] in
/-- Counting a loss draws nothing. -/
theorem countLost_drawsUp (p : Process) (terminal raw : Bool) :
    (p.countLost terminal raw).model.drawsUp = p.model.drawsUp := by
  cases terminal <;> rfl

omit [Arith F64] in
/-- Counting a send draws nothing. -/
theorem countSend_drawsUp (p : Process) (frame : Bytes) (terminal raw : Bool) (e : SimEvent) :
    (p.countSend frame terminal raw e).model.drawsUp = p.model.drawsUp := by
  unfold countSend
  cases e.sendOk <;> cases terminal <;> cases p.terminalLogged <;> rfl

omit [Arith F64] in
/-- Preparing a frame draws nothing. -/
theorem prepare_drawsUp {p q : Process} {tick : ℕ} {terminal : Bool} {sentNs : ℤ} {frame : Except Failure Bytes}
    (h : p.prepare tick terminal sentNs = (q, frame)) : q.model.drawsUp = p.model.drawsUp := by
  unfold prepare at h
  split at h
  · obtain ⟨rfl, -⟩ := Prod.mk.inj h
    rfl
  · split at h
    · obtain ⟨rfl, -⟩ := Prod.mk.inj h
      rfl
    · obtain ⟨rfl, -⟩ := Prod.mk.inj h
      cases terminal <;> rfl

/-- An offer draws once, whatever comes of it. -/
theorem offer_drawsUp (spec : Scenario F64) (p : Process) (tick : ℕ) (terminal prologue : Bool) (e : SimEvent) :
    (p.offer spec tick terminal prologue e).1.model.drawsUp = p.model.drawsUp + 1 := by
  unfold offer
  dsimp only
  generalize hloss : Model.loss spec _ .up tick terminal prologue = drawn
  obtain ⟨model, outcome⟩ := drawn
  have hmodel := Model.loss_model hloss
  have hdrawsUp : model.drawsUp = p.model.drawsUp + 1 := by
    rw [hmodel, Model.draw_offer]
  cases outcome with
  | error failure => exact hdrawsUp
  | ok decided =>
  obtain ⟨raw, drop⟩ := decided
  dsimp only
  generalize hprepare : (countOffer _ terminal prologue e).prepare tick terminal e.sentNs = prepared
  obtain ⟨q, frame⟩ := prepared
  have hq : q.model.drawsUp = p.model.drawsUp + 1 := by
    rw [prepare_drawsUp hprepare, countOffer_drawsUp, hdrawsUp]
  cases frame with
  | error failure => exact hq
  | ok frame =>
  cases drop with
  | true => exact (countLost_drawsUp q terminal raw).trans hq
  | false =>
    dsimp only
    rw [if_neg Bool.false_ne_true, countSend_drawsUp]
    split <;> exact hq

end Process

/-- After any calls that raise nothing, the replies that the model received are selected, lost or superseded, and the
vehicle's ends are lost or survived, of which the vehicle's reason tells; each offer has taken a draw of the uplink and
each reply, in the order of the receipts, one of the downlink, which decides its fate; every plant step moved the queue
and the actuator, none came after the end, whose reason stays; and the queue holds the ticks of delay. -/
theorem model_invariants {seed : U64} {delayTicks : Fin 2} {start m : Model} {cs : List ModelCall}
    (hnew : Model.new spec seed delayTicks = .ok start) (hcalls : start.calls spec cs = .ok m) :
    let replies := cs.flatMap ModelCall.replies
    let met := fates spec (Rng.streamState seed .linkLossDown) replies
    m.down.received = m.down.actuatorSelected + m.down.intentionallyLost + m.down.superseded ∧
      m.term.downReceivedRaw = m.term.downIntentionallyLost + m.term.downSurvived ∧
      (m.vehicleSeen.isSome ↔ 0 < m.term.downSurvived) ∧
      (m.streamUp = Rng.streamState seed .linkLossUp + m.drawsUp * Rng.golden ∧
        m.streamDown = Rng.streamState seed .linkLossDown + m.drawsDown * Rng.golden) ∧
      (m.drawsUp = cs.countP ModelCall.isOffer ∧
        ∀ (p : Process) (tick : ℕ) (terminal prologue : Bool) (e : SimEvent),
          (p.offer spec tick terminal prologue e).1.model.drawsUp = p.model.drawsUp + 1) ∧
      (m.drawsDown = replies.length ∧
        m.down.received = met.countP (fun fate => !fate.terminal) ∧
        m.down.intentionallyLost = met.countP (fun fate => !fate.terminal && fate.lost) ∧
        m.term.downReceivedRaw = met.countP Fate.terminal ∧
        m.term.downIntentionallyLost = met.countP (fun fate => fate.terminal && fate.lost) ∧
        ∀ bodyTick packets m' survivors, m.receivePackets spec bodyTick packets = (m', .ok survivors) →
          survivors = (fates spec m.streamDown (repliesOf bodyTick packets)).filterMap Fate.survivor) ∧
      (m.events.plantSteps = cs.countP ModelCall.isAdvance ∧ m.events.fifoAdvances = cs.countP ModelCall.isAdvance ∧
        m.events.actuatorUpdates = cs.countP ModelCall.isAdvance) ∧
      m.delay.length = delayTicks ∧
      ∀ later m' reason, m.calls spec later = .ok m' → m.reason = some reason →
        m'.reason = some reason ∧ later.countP ModelCall.isAdvance = 0 := by
  intro replies met
  obtain ⟨hup, hdown, hdelay, hstart⟩ := Model.new_start hnew
  have hcourse : Model.Course spec start cs m := hstart.calls hcalls
  have hledger := hcourse.ledger
  have hsettled := hcourse.settled
  rw [hdown] at hledger hsettled
  have hsplit (p q : Fate → Bool) (l : List Fate) :
      l.countP p = (l.countP fun fate => p fate && q fate) + l.countP fun fate => p fate && !q fate := by
    rw [List.countP_eq_countP_filter_add l p q, List.countP_filter, List.countP_filter]
  have hsurvive : met.countP (fun fate => !fate.terminal && !fate.lost) = met.countP (·.survivor.isSome) := by
    apply List.countP_congr
    intro fate _
    unfold Fate.survivor
    cases fate.terminal <;> cases fate.lost <;> simp
  refine ⟨?_, ?_, hledger.seen, ⟨?_, ?_⟩, ⟨hcourse.drawsUp, Process.offer_drawsUp spec⟩,
    ⟨hledger.draws, hledger.received, hledger.lost, hledger.raw, hledger.rawLost, ?_⟩,
    ⟨hcourse.plantSteps, hcourse.fifoAdvances, hcourse.actuatorUpdates⟩, hcourse.delay.trans hdelay, ?_⟩
  · have hreceived := hledger.received.trans (hsplit _ Fate.lost met)
    rw [hsurvive, ← hledger.lost, ← hsettled] at hreceived
    omega
  · rw [hledger.rawLost, hledger.survived]
    exact hledger.raw.trans (hsplit _ Fate.lost met)
  · rw [hcourse.streamUp, Rng.stateAfter_eq, hup]
  · rw [hledger.stream, Rng.stateAfter_eq, hledger.draws]
  · intro bodyTick packets m' survivors hpackets
    exact (Model.receivePackets_receipt hpackets).survivors
  · intro later m' reason hlater hreason
    exact Model.calls_reason hlater hreason

end General

/-! ## A run of calls -/

attribute [local instance] ieee

/-- A scenario at rest lasts. -/
theorem restful_ticks : 0 < 3 := by decide

/-- It has no commands, so none comes late. -/
theorem restful_commands : ∀ c ∈ ([] : List (ℕ × Opcode)), c.1 < 3 := List.forall_mem_nil _

/-- A scenario at rest for three ticks. -/
def restful : Scenario F64 := .still 3 [] true restful_ticks restful_commands increasing_nil

/-- A reply of the vehicle. -/
def restfulReply (tick : U64) (status : U32) : Bytes :=
  Lockstep.replyFrame 0 ⟨tick, 0, 0, 0, ⟨0⟩, status, 0⟩

/-- A batch with a packet that is no frame and two commands, a plant step, and a batch with the vehicle's end. -/
def restfulCalls : List ModelCall :=
  [.loss 0 false true, .receive [[], restfulReply 0 2, restfulReply 1 2] 0, .advance 0 (some ⟨0⟩), .loss 1 false false,
    .receive [restfulReply 2 0x0703] 1]

/-- Three replies take a draw each: one command is selected, one superseded, and the end is seen. -/
theorem model_invariants_restful : ∃ start m, Model.new restful 0 1 = .ok start ∧
    start.calls restful restfulCalls = .ok m ∧
    (m.down.received, m.drawsUp, m.drawsDown, m.vehicleSeen, m.reason) = (2, 2, 3, some 7, some .vehicleTerminal) ∧
    m.down.received = m.down.actuatorSelected + m.down.intentionallyLost + m.down.superseded := by
  have houtcome : ((Model.new restful 0 1).bind fun start => start.calls restful restfulCalls).toOption.map
      (fun m => (m.down.received, m.drawsUp, m.drawsDown, m.vehicleSeen, m.reason)) =
        some (2, 2, 3, some 7, some .vehicleTerminal) := by
    decide +kernel
  cases hnew : Model.new restful 0 1 with
  | error failure =>
    rw [hnew] at houtcome
    nomatch houtcome
  | ok start =>
  cases hcalls : start.calls restful restfulCalls with
  | error failure =>
    rw [hnew, Except.bind, hcalls] at houtcome
    nomatch houtcome
  | ok m =>
    rw [hnew, Except.bind, hcalls] at houtcome
    exact ⟨start, m, rfl, hcalls, Option.some.inj houtcome, (model_invariants hnew hcalls).1⟩

end Tvc.Freerun
