import Tvc.Episode.Calls
import Tvc.Lockstep.Projection

/-!
# The counters of the lockstep loop

The session counts what it receives, what it sends and what its cycles do, at four places of the
loop. `scripts/reconcile.py` audits the counters after a run. Every equation it checks holds between
any two calls of the loop, and no counter is ever taken below zero.
-/

namespace Tvc.Lockstep

/-! ## The audit -/

/-- The equations of an audit that do not hold, by name. -/
def unbalanced (equations : List (String × ℕ × ℕ)) : List String :=
  (equations.filter fun e => e.2.1 != e.2.2).map Prod.fst

/-- `sender_errors`. The counters are present and natural numbers by their type. -/
def senderErrors (c : SendCounters) : List String :=
  unbalanced
    [("generation", c.generated, c.originalAttempts + c.notAttempted),
      ("attempts", c.sendAttempts, c.originalAttempts + c.retryAttempts),
      ("send outcomes", c.sendAttempts, c.txFail + c.transmitted + c.sendPending),
      ("successful copies", c.transmitted, c.firstTransmitted + c.additionalCopies),
      ("first success", c.generated, c.firstTransmitted + c.neverTransmitted)]

/-- `receiver_errors` with `sensor=True`. -/
def receiverErrors (c : ReceiveCounters) : List String :=
  unbalanced
    [("raw receipt", c.receivedRaw, c.malformed + c.received + c.decodePending),
      ("receipt disposition", c.received,
        c.logicalReceived + c.discardedDuplicate + c.rejectedReceived + c.classificationPending),
      ("logical disposition", c.logicalReceived,
        c.admitted + c.sampleInvalid + c.sampleNonfinite + c.admissionPending)]

/-- An audit finds nothing exactly if every equation holds. -/
theorem unbalanced_eq_nil (equations : List (String × ℕ × ℕ)) :
    unbalanced equations = [] ↔ ∀ e ∈ equations, e.2.1 = e.2.2 := by
  simp [unbalanced, List.filter_eq_nil_iff]

/-! ## The loop, call by call -/

/-- Where the loop of `run` stands between two of its calls. -/
inductive Place
  | ready
  | answered (original : Bool)
  | sending (original : Bool)
  | sent
  | ended
  deriving DecidableEq, Repr

namespace Place

/-- The replies not yet attempted. -/
def notAttempted : Place → ℕ
  | answered true => 1
  | _ => 0

/-- The sends under way. -/
def sendPending : Place → ℕ
  | sending _ => 1
  | _ => 0

/-- The records not yet presented to the ring. -/
def recordPending : Place → ℕ
  | answered true | sending true | sent => 1
  | _ => 0

/-- A reply is being sent. -/
def replying : Place → Bool
  | answered _ | sending _ => true
  | _ => false

/-- Where the loop stands after a datagram. -/
def afterReceive : Disposition → Place
  | .fatal => ended
  | .discard => ready
  | .cached => answered false
  | .new => answered true

end Place

/-- The session in the loop, and the samples the controller was called on. -/
structure Loop where
  session : Session
  place : Place := .ready
  calls : List (Observation F64) := []

variable [Arith F64]

namespace Loop

/-- The loop as it starts. -/
def initial (autoArm : Bool) : Loop := { session := .initial autoArm }

/-- The samples that receiving a datagram calls the controller on. -/
def callsOf (s : Session) (d : Datagram) : List (Observation F64) :=
  (s.execution d).elim [] fun x => (Episode.stepLogged s.state x.2).2

/-- The next call of the loop, which takes from the event what it needs of the outside. -/
def step (l : Loop) (e : Event) : Loop :=
  match l.place with
  | .ready =>
    { session := (l.session.receive e.datagram).1
      place := .afterReceive (l.session.receive e.datagram).2
      calls := l.calls ++ callsOf l.session e.datagram }
  | .answered original => { l with session := l.session.beginSend original, place := .sending original }
  | .sending original =>
    { l with
      session := l.session.finishSend original e.sent
      place := if original then .sent else .ready }
  | .sent =>
    { l with
      session := l.session.noteRecord e.pushed
      place := if (l.session.noteRecord e.pushed).reason == .none then .ready else .ended }
  | .ended => l

/-- The loop after a number of calls. -/
def run (autoArm : Bool) (events : List Event) : Loop := events.foldl step (initial autoArm)

end Loop

/-! ## The balance -/

/-- The equations between the counters of what is received. -/
structure ReceiveBalance (up : ReceiveCounters) : Prop where
  raw : up.receivedRaw = up.malformed + up.received + up.decodePending
  receipt : up.received =
    up.logicalReceived + up.discardedDuplicate + up.rejectedReceived + up.classificationPending
  logical : up.logicalReceived =
    up.admitted + up.sampleInvalid + up.sampleNonfinite + up.admissionPending
  malformed : up.malformed = up.badSync + up.badVersion + up.badType + up.badLength + up.badCrc
  rejected : up.rejectedReceived = up.discardedOld + up.discardedTickConflict + up.skippedTick

/-- The equations between the counters of what is sent, at a place of the loop. -/
structure SendBalance (place : Place) (down : SendCounters) : Prop where
  generation : down.generated = down.originalAttempts + down.notAttempted
  attempts : down.sendAttempts = down.originalAttempts + down.retryAttempts
  outcomes : down.sendAttempts = down.txFail + down.transmitted + down.sendPending
  copies : down.transmitted = down.firstTransmitted + down.additionalCopies
  success : down.generated = down.firstTransmitted + down.neverTransmitted
  notAttempted : down.notAttempted = place.notAttempted
  sendPending : down.sendPending = place.sendPending

/-- The equations between the counters of the cycles, at a place of the loop. -/
structure CycleBalance (place : Place) (events : CycleCounters) : Prop where
  transitions : events.episodeTransitions = events.recordAttempts + events.recordPending
  attempts : events.recordAttempts = events.recordsPushed + events.ringDrops
  recordPending : events.recordPending = place.recordPending

/-- What the counters of a session keep. -/
structure Balanced (l : Loop) : Prop where
  received : ReceiveBalance l.session.up
  sent : SendBalance l.place l.session.down
  cycles : CycleBalance l.place l.session.events
  calls : l.session.events.pidCalls = l.calls.length
  admitted : l.session.events.pidCalls ≤ l.session.up.admitted
  unsent : l.session.answered = true → l.session.replyTransmitted = false → 0 < l.session.down.neverTransmitted
  answered : l.place.replying = true → l.session.answered = true
  sound : ∃ last, Episode.Sound last l.session.state

/-! ## One call -/

omit [Arith F64] in
/-- A refused datagram is counted once under its error. -/
theorem ReceiveBalance.refused {up : ReceiveCounters} (h : ReceiveBalance up) (e : Telem.DatagramError) :
    ReceiveBalance (countBad { up with receivedRaw := up.receivedRaw + 1, malformed := up.malformed + 1 } e) := by
  obtain ⟨hraw, hreceipt, hlogical, hmalformed, hrejected⟩ := h
  cases e <;> constructor <;> dsimp only [countBad] <;> omega

omit [Arith F64] in
/-- An executed frame is a logical one, and its sample is counted once. -/
theorem ReceiveBalance.executed {up : ReceiveCounters} (h : ReceiveBalance up) (fresh valid : Bool) :
    ReceiveBalance (countSample
      { up with
        receivedRaw := up.receivedRaw + 1
        received := up.received + 1
        logicalReceived := up.logicalReceived + 1 } fresh valid) := by
  obtain ⟨hraw, hreceipt, hlogical, hmalformed, hrejected⟩ := h
  cases fresh <;> cases valid <;> constructor <;>
    simp only [countSample, Bool.false_eq_true, if_true, if_false, Bool.not_true, Bool.not_false] <;> omega

/-- Receiving keeps the balance of what is received. -/
theorem ReceiveBalance.receive {s : Session} (h : ReceiveBalance s.up) (d : Datagram) :
    ReceiveBalance (s.receive d).1.up := by
  unfold Session.receive
  cases d.frame with
  | error e => exact h.refused e
  | ok f =>
    dsimp only
    repeat' split
    case isFalse.isFalse.isFalse => exact h.executed _ f.valid
    all_goals
      obtain ⟨hraw, hreceipt, hlogical, hmalformed, hrejected⟩ := h
      constructor <;> dsimp only <;> omega

/-- What receiving does to everything but the counters of what is received. -/
inductive Received (s : Session) (d : Datagram) : Session → Disposition → Prop
  | executed {f : Frame} {up : ReceiveCounters} (hframe : d.frame = .ok f)
      (hadmitted : up.admitted = s.up.admitted) (hlogical : up.logicalReceived = s.up.logicalReceived) :
      Received s d (Session.execute { s with up } f) .new
  | kept {t : Session} {kind : Disposition} (hkind : kind ≠ .new) (hadmitted : t.up.admitted = s.up.admitted)
      (hdown : t.down = s.down) (hevents : t.events = s.events) (hstate : t.state = s.state)
      (hanswered : t.answered = s.answered) (hsent : t.replyTransmitted = s.replyTransmitted)
      (hcached : kind = .cached → s.answered = true) : Received s d t kind

/-- Receiving does one of the things it can do. -/
theorem Session.receive_received (s : Session) (d : Datagram) : Received s d (s.receive d).1 (s.receive d).2 := by
  unfold receive
  cases hframe : d.frame with
  | error e => exact .kept nofun (by cases e <;> rfl) rfl rfl rfl rfl rfl nofun
  | ok f =>
    dsimp only
    split
    · rename_i hrepeat
      have hanswered : s.answered = true := (Bool.and_eq_true_iff.mp hrepeat).1
      split
      · exact .kept nofun rfl rfl rfl rfl rfl rfl fun _ => hanswered
      · exact .kept nofun rfl rfl rfl rfl rfl rfl nofun
    · split
      · exact .kept nofun rfl rfl rfl rfl rfl rfl nofun
      · split
        · exact .kept nofun rfl rfl rfl rfl rfl rfl nofun
        · exact .executed hframe rfl rfl

omit [Arith F64] in
/-- The balance of what is sent at a place with the same counters pending. -/
theorem SendBalance.move {p q : Place} {down : SendCounters} (h : SendBalance p down)
    (hnotAttempted : q.notAttempted = p.notAttempted) (hsendPending : q.sendPending = p.sendPending) :
    SendBalance q down :=
  { h with
    notAttempted := h.notAttempted.trans hnotAttempted.symm
    sendPending := h.sendPending.trans hsendPending.symm }

omit [Arith F64] in
/-- The balance of the cycles at a place with the same counter pending. -/
theorem CycleBalance.move {p q : Place} {events : CycleCounters} (h : CycleBalance p events)
    (hrecordPending : q.recordPending = p.recordPending) : CycleBalance q events :=
  { h with recordPending := h.recordPending.trans hrecordPending.symm }

omit [Arith F64] in
/-- A new reply keeps the balance. -/
theorem SendBalance.generate {down : SendCounters} (h : SendBalance .ready down) :
    SendBalance (.answered true)
      { down with
        generated := down.generated + 1
        notAttempted := down.notAttempted + 1
        neverTransmitted := down.neverTransmitted + 1 } := by
  obtain ⟨hgeneration, hattempts, houtcomes, hcopies, hsuccess, hnotAttempted, hsendPending⟩ := h
  simp only [Place.notAttempted, Place.sendPending] at hnotAttempted hsendPending
  constructor <;> simp only [Place.notAttempted, Place.sendPending] <;> omega

omit [Arith F64] in
/-- A new cycle keeps the balance. -/
theorem CycleBalance.execute {events : CycleCounters} (h : CycleBalance .ready events) (called : ℕ) :
    CycleBalance (.answered true)
      { events with
        episodeTransitions := events.episodeTransitions + 1
        recordPending := events.recordPending + 1
        pidCalls := events.pidCalls + called } := by
  obtain ⟨htransitions, hattempts, hrecordPending⟩ := h
  simp only [Place.recordPending] at hrecordPending
  constructor <;> simp only [Place.recordPending] <;> omega

omit [Arith F64] in
/-- Beginning to send keeps the balance of what is sent. -/
theorem SendBalance.beginSend {s : Session} {original : Bool} (h : SendBalance (.answered original) s.down) :
    SendBalance (.sending original) (s.beginSend original).down := by
  obtain ⟨hgeneration, hattempts, houtcomes, hcopies, hsuccess, hnotAttempted, hsendPending⟩ := h
  cases original <;> simp only [Place.notAttempted, Place.sendPending] at hnotAttempted hsendPending <;>
    constructor <;>
      simp only [Place.notAttempted, Place.sendPending, Session.beginSend, if_true, Bool.false_eq_true,
        if_false] <;> omega

omit [Arith F64] in
/-- Finishing a send keeps the balance of what is sent. -/
theorem SendBalance.finishSend {s : Session} {original : Bool} (h : SendBalance (.sending original) s.down)
    (hunsent : s.replyTransmitted = false → 0 < s.down.neverTransmitted) (sent : Bool) {p : Place}
    (hnotAttempted : p.notAttempted = 0) (hsendPending : p.sendPending = 0) :
    SendBalance p (s.finishSend original sent).down := by
  obtain ⟨hgeneration, hattempts, houtcomes, hcopies, hsuccess, hnone, hone⟩ := h
  simp only [Place.notAttempted] at hnone
  simp only [Place.sendPending] at hone
  unfold Session.finishSend
  cases sent with
  | false =>
    rw [Bool.and_false, if_neg Bool.false_ne_true]
    constructor <;> simp only [Bool.false_eq_true, if_false, hnotAttempted, hsendPending] <;> omega
  | true =>
    cases hreply : s.replyTransmitted with
    | true =>
      cases original <;> constructor <;>
        simp only [Bool.and_true, Bool.false_eq_true, if_true, if_false, hnotAttempted, hsendPending] <;> omega
    | false =>
      have hpositive := hunsent hreply
      cases original <;> constructor <;>
        simp only [Bool.and_true, Bool.false_eq_true, if_true, if_false, hnotAttempted, hsendPending] <;> omega

/-- The samples that receiving a datagram calls the controller on. -/
theorem callsOf_executed {s : Session} {last : Option ℕ} (h : Episode.Sound last s.state) {d : Datagram}
    {f : Frame} (hnew : (s.receive d).2 = .new) (hframe : d.frame = .ok f) :
    let i := inputsOf s.held s.up.logicalReceived f
    (Loop.callsOf s d).length = (i.fresh && (Episode.step s.state i).state.mode == .flying).toNat := by
  intro i
  have hheld : i.fresh = true → i.held = some ⟨f.tick, f.fields.theta, f.fields.omega, true⟩ :=
    fun hfresh => if_pos hfresh
  rw [Loop.callsOf, Session.execution_of_new hnew hframe, Option.elim_some,
    Episode.stepLogged_calls h fun hfresh => by rw [hheld hfresh]; rfl]
  cases hfresh : i.fresh with
  | false => rfl
  | true =>
    rw [hheld hfresh, Bool.true_and]
    cases (Episode.step s.state i).state.mode == .flying <;> rfl

/-- A datagram that executes nothing calls nothing. -/
theorem callsOf_kept {s : Session} {d : Datagram} (h : (s.receive d).2 ≠ .new) : Loop.callsOf s d = [] := by
  rw [Loop.callsOf, Session.execution_of_not_new h]
  rfl

omit [Arith F64] in
/-- The sample of an executed frame is admitted if it is usable. -/
theorem countSample_admitted (up : ReceiveCounters) (fresh valid : Bool) :
    (countSample up fresh valid).admitted = up.admitted + fresh.toNat := by
  cases fresh <;> cases valid <;> rfl

/-- Receiving keeps the balance. -/
theorem Balanced.receive {l : Loop} (h : Balanced l) (hplace : l.place = .ready) (e : Event) :
    Balanced (l.step e) := by
  obtain ⟨s, place, calls⟩ := l
  obtain rfl : place = .ready := hplace
  obtain ⟨hup, hsent, hcycles, hpid, hadmitted, hunsent, -, last, hsound⟩ := h
  have hup := hup.receive e.datagram
  have hreceived := s.receive_received e.datagram
  have hexecuted (f : Frame) := callsOf_executed (f := f) (d := e.datagram) hsound
  have hkept := callsOf_kept (s := s) (d := e.datagram)
  simp only [Loop.step]
  generalize hreceive : s.receive e.datagram = x at hup hreceived hexecuted hkept
  obtain ⟨u, kind⟩ := x
  dsimp only at hup hreceived hexecuted hkept hpid hadmitted hunsent ⊢
  cases hreceived with
  | @executed f up hframe hadmit hlogical =>
    have hcalls := hexecuted f rfl hframe
    refine ⟨hup, hsent.generate, hcycles.execute _, ?_, ?_, fun _ _ => ?_, fun _ => rfl, _, hsound.step_sound _⟩
    · rw [List.length_append, hcalls, ← hpid]
      simp only [Session.execute, hlogical]
    · have hfresh : (isFresh f && (Episode.step s.state (inputsOf s.held up.logicalReceived f)).state.mode ==
          .flying).toNat ≤ (isFresh f).toNat := by
        cases isFresh f with
        | false => exact le_rfl
        | true => exact Bool.toNat_le _
      simp only [Session.execute, countSample_admitted, hadmit]
      exact Nat.add_le_add hadmitted hfresh
    · exact Nat.succ_pos s.down.neverTransmitted
  | kept hkind hadmit hdown hevents hstate hanswered hreply hcached =>
    rw [hkept hkind, List.append_nil]
    have hplace : (Place.afterReceive kind).notAttempted = 0 ∧ (Place.afterReceive kind).sendPending = 0 ∧
        (Place.afterReceive kind).recordPending = 0 ∧
        ((Place.afterReceive kind).replying = true → kind = .cached) := by
      cases kind with
      | new => exact absurd rfl hkind
      | cached => exact ⟨rfl, rfl, rfl, fun _ => rfl⟩
      | discard | fatal => exact ⟨rfl, rfl, rfl, nofun⟩
    obtain ⟨hnotAttempted, hsendPending, hrecordPending, hreplying⟩ := hplace
    refine ⟨hup, hdown ▸ hsent.move hnotAttempted hsendPending, hevents ▸ hcycles.move hrecordPending,
      hevents ▸ hpid, ?_, ?_, fun hplace => hanswered.trans (hcached (hreplying hplace)), last, hstate ▸ hsound⟩
    · rw [hevents, hadmit]
      exact hadmitted
    · rw [hanswered, hreply, hdown]
      exact hunsent

/-- Beginning to send keeps the balance. -/
theorem Balanced.beginSend {l : Loop} (h : Balanced l) {original : Bool} (hplace : l.place = .answered original)
    (e : Event) : Balanced (l.step e) := by
  obtain ⟨s, place, calls⟩ := l
  obtain rfl : place = .answered original := hplace
  obtain ⟨hup, hsent, hcycles, hpid, hadmitted, hunsent, hanswered, hsound⟩ := h
  refine ⟨hup, hsent.beginSend, hcycles.move ?_, hpid, hadmitted, ?_, fun _ => hanswered rfl, hsound⟩
  · cases original <;> rfl
  · cases original <;> exact hunsent

omit [Arith F64] in
/-- Presenting a record keeps the balance of the cycles. -/
theorem CycleBalance.noteRecord {s : Session} (h : CycleBalance .sent s.events) (pushed : Bool) {p : Place}
    (hrecordPending : p.recordPending = 0) :
    CycleBalance p (s.noteRecord pushed).events ∧ (s.noteRecord pushed).events.pidCalls = s.events.pidCalls := by
  obtain ⟨htransitions, hattempts, hone⟩ := h
  simp only [Place.recordPending] at hone
  unfold Session.noteRecord
  cases pushed <;> refine ⟨⟨?_, ?_, ?_⟩, rfl⟩ <;>
    simp only [if_true, Bool.false_eq_true, if_false, hrecordPending] <;> omega

omit [Arith F64] in
/-- Finishing a send touches no other counter, and a reply not yet transmitted stays counted. -/
theorem Session.finishSend_rest (s : Session) (original sent : Bool) :
    (s.finishSend original sent).up = s.up ∧ (s.finishSend original sent).events = s.events ∧
      (s.finishSend original sent).state = s.state ∧ (s.finishSend original sent).answered = s.answered ∧
      ((s.finishSend original sent).replyTransmitted = false → s.replyTransmitted = false ∧
        (s.finishSend original sent).down.neverTransmitted = s.down.neverTransmitted) := by
  unfold finishSend
  cases original <;> cases sent <;> cases hreply : s.replyTransmitted <;> simp

/-- Finishing a send keeps the balance. -/
theorem Balanced.finishSend {l : Loop} (h : Balanced l) {original : Bool} (hplace : l.place = .sending original)
    (e : Event) : Balanced (l.step e) := by
  obtain ⟨s, place, calls⟩ := l
  obtain rfl : place = .sending original := hplace
  obtain ⟨hup, hsent, hcycles, hpid, hadmitted, hunsent, hanswered, last, hsound⟩ := h
  obtain ⟨hsameUp, hsameEvents, hsameState, hsameAnswered, hreply⟩ := s.finishSend_rest original e.sent
  have hstill : s.answered = true := hanswered rfl
  have hplaces : (if original then Place.sent else .ready).notAttempted = 0 ∧
      (if original then Place.sent else .ready).sendPending = 0 ∧
      (if original then Place.sent else .ready).recordPending = (Place.sending original).recordPending ∧
      (if original then Place.sent else .ready).replying = false := by
    cases original <;> exact ⟨rfl, rfl, rfl, rfl⟩
  obtain ⟨hnotAttempted, hsendPending, hrecordPending, hreplying⟩ := hplaces
  refine ⟨hsameUp ▸ hup, hsent.finishSend (hunsent hstill) e.sent hnotAttempted hsendPending,
    hsameEvents ▸ hcycles.move hrecordPending, hsameEvents ▸ hpid, ?_, fun _ hnone => ?_, fun hreplying' => ?_,
    last, hsameState ▸ hsound⟩
  · exact hsameEvents ▸ hsameUp ▸ hadmitted
  · obtain ⟨hnone, hsame⟩ := hreply hnone
    exact hsame ▸ hunsent hstill hnone
  · exact absurd (hreplying.symm.trans hreplying') Bool.false_ne_true

/-- Presenting a record keeps the balance. -/
theorem Balanced.noteRecord {l : Loop} (h : Balanced l) (hplace : l.place = .sent)
    (e : Event) : Balanced (l.step e) := by
  obtain ⟨s, place, calls⟩ := l
  obtain rfl : place = .sent := hplace
  obtain ⟨hup, hsent, hcycles, hpid, hadmitted, hunsent, hanswered, hsound⟩ := h
  have hplaces (ready : Bool) : (if ready then Place.ready else .ended).notAttempted = 0 ∧
      (if ready then Place.ready else .ended).sendPending = 0 ∧
      (if ready then Place.ready else .ended).recordPending = 0 ∧
      (if ready then Place.ready else .ended).replying = false := by
    cases ready <;> exact ⟨rfl, rfl, rfl, rfl⟩
  obtain ⟨hnotAttempted, hsendPending, hrecordPending, hreplying⟩ :=
    hplaces ((s.noteRecord e.pushed).reason == .none)
  obtain ⟨hbalance, hcalled⟩ := hcycles.noteRecord e.pushed hrecordPending
  refine ⟨hup, hsent.move hnotAttempted hsendPending, hbalance, hcalled.trans hpid, hcalled.trans_le hadmitted,
    hunsent, fun hreplying' => ?_, hsound⟩
  exact absurd (hreplying.symm.trans hreplying') Bool.false_ne_true

/-! ## Whole runs -/

/-- Every call keeps the balance. -/
theorem Balanced.call {l : Loop} (h : Balanced l) (e : Event) : Balanced (l.step e) := by
  cases hplace : l.place with
  | ready => exact h.receive hplace e
  | answered original => exact h.beginSend hplace e
  | sending original => exact h.finishSend hplace e
  | sent => exact h.noteRecord hplace e
  | ended =>
    have hstay : l.step e = l := by rw [Loop.step, hplace]
    exact hstay.symm ▸ h

/-- The balance holds between any two calls of every run. -/
theorem balanced_run (autoArm : Bool) (events : List Event) : Balanced (Loop.run autoArm events) := by
  unfold Loop.run
  induction events using List.reverseRecOn with
  | nil =>
    refine ⟨⟨rfl, rfl, rfl, rfl, rfl⟩, ⟨rfl, rfl, rfl, rfl, rfl, rfl, rfl⟩, ⟨rfl, rfl, rfl⟩, rfl, le_rfl, nofun,
      nofun, none, ?_⟩
    exact Episode.sound_run autoArm []
  | append_singleton events e ih =>
    rw [List.foldl_append]
    exact ih.call e

/-- A whole turn of the loop is a number of its calls. -/
theorem Loop.turn (v : Vehicle) (hrunning : v.running = true) (calls : List (Observation F64)) (e : Event) :
    ∃ n calls', (List.replicate n e).foldl step ⟨v.session, .ready, calls⟩ =
      ⟨(v.step e).session, if (v.step e).running then .ready else .ended, calls'⟩ := by
  obtain ⟨s, running, records, drops⟩ := v
  obtain rfl : running = true := hrunning
  have hfirst : step ⟨s, .ready, calls⟩ e = ⟨(s.receive e.datagram).1, .afterReceive (s.receive e.datagram).2,
      calls ++ callsOf s e.datagram⟩ := rfl
  simp only [Vehicle.step, if_true, Vehicle.receive]
  generalize s.receive e.datagram = x at hfirst
  obtain ⟨t, kind⟩ := x
  cases kind with
  | fatal => exact ⟨1, _, hfirst⟩
  | discard => exact ⟨1, _, hfirst⟩
  | cached => exact ⟨3, _, congrArg (fun l => (l.step e).step e) hfirst⟩
  | new => exact ⟨4, _, congrArg (fun l => ((l.step e).step e).step e) hfirst⟩

/-- Every run over whole turns is a run call by call. -/
theorem loop_reaches (autoArm : Bool) (events : List Event) :
    ∃ calls samples, Loop.run autoArm calls =
      ⟨(Vehicle.run autoArm events).session,
        if (Vehicle.run autoArm events).running then .ready else .ended, samples⟩ := by
  induction events using List.reverseRecOn with
  | nil => exact ⟨[], [], rfl⟩
  | append_singleton events e ih =>
    obtain ⟨calls, samples, hcalls⟩ := ih
    rw [Vehicle.run, List.foldl_append, ← Vehicle.run]
    generalize Vehicle.run autoArm events = v at hcalls
    cases hrunning : v.running with
    | false =>
      have hstay : [e].foldl Vehicle.step v = v := by simp [Vehicle.step, hrunning]
      exact ⟨calls, samples, hstay.symm ▸ hcalls⟩
    | true =>
      rw [hrunning, if_pos rfl] at hcalls
      obtain ⟨n, samples', hturn⟩ := Loop.turn v hrunning samples e
      refine ⟨calls ++ List.replicate n e, samples', ?_⟩
      rw [Loop.run, List.foldl_append, ← Loop.run, hcalls, hturn]
      rfl

/-- The counters between any two calls of the loop: the audit finds nothing in them, the counters of
refusals, transitions, records and controller calls add up, and what a call takes from is not zero. -/
theorem counters_reconciled (autoArm : Bool) (events : List Event) :
    let l := Loop.run autoArm events
    let s := l.session
    (senderErrors s.down = [] ∧ receiverErrors s.up = []) ∧
      s.up.malformed = s.up.badSync + s.up.badVersion + s.up.badType + s.up.badLength + s.up.badCrc ∧
      s.up.rejectedReceived = s.up.discardedOld + s.up.discardedTickConflict + s.up.skippedTick ∧
      s.events.episodeTransitions = s.events.recordAttempts + s.events.recordPending ∧
      s.events.recordAttempts = s.events.recordsPushed + s.events.ringDrops ∧
      s.events.pidCalls = l.calls.length ∧ s.events.pidCalls ≤ s.up.admitted ∧
      (l.place = .answered true → 0 < s.down.notAttempted) ∧
      (∀ original, l.place = .sending original →
        0 < s.down.sendPending ∧ (s.replyTransmitted = false → 0 < s.down.neverTransmitted)) ∧
      (l.place = .sent → 0 < s.events.recordPending) := by
  intro l s
  obtain ⟨hup, hsent, hcycles, hpid, hadmitted, hunsent, hanswered, -⟩ := balanced_run autoArm events
  refine ⟨⟨?_, ?_⟩, hup.malformed, hup.rejected, hcycles.transitions, hcycles.attempts, hpid, hadmitted,
    fun hplace => ?_, fun original hplace => ⟨?_, hunsent (hanswered ?_)⟩, fun hplace => ?_⟩
  · rw [senderErrors, unbalanced_eq_nil]
    simp only [List.forall_mem_cons, List.not_mem_nil, false_imp_iff, implies_true, and_true]
    exact ⟨hsent.generation, hsent.attempts, hsent.outcomes, hsent.copies, hsent.success⟩
  · rw [receiverErrors, unbalanced_eq_nil]
    simp only [List.forall_mem_cons, List.not_mem_nil, false_imp_iff, implies_true, and_true]
    exact ⟨hup.raw, hup.receipt, hup.logical⟩
  · rw [hsent.notAttempted, hplace]
    exact Nat.one_pos
  · rw [hsent.sendPending, hplace]
    exact Nat.one_pos
  · rw [hplace]
    rfl
  · rw [hcycles.recordPending, hplace]
    exact Nat.one_pos

end Tvc.Lockstep
