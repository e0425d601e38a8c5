import Tvc.Lockstep.Exchange
import Tvc.Lockstep.Sensing

/-!
# Resends and repeats in lockstep

The simulator sends a request until its reply arrives, the session answers a repeated request
from the reply it kept, and the network does as it likes. None of it shows: the pair always
stands where undisturbed exchanges of requests and replies would have brought it, the vehicle at
most one tick ahead.
-/

namespace Tvc.Lockstep

open StopAndWait

variable [Arith F64] {spec : Scenario F64} {seed : U64} {delayTicks : Fin 2}

/-! ## Undisturbed exchanges -/

/-- Where both parties are after a number of undisturbed exchanges. -/
structure Level (spec : Scenario F64) (seed : U64) (n : ℕ) (y : Course × Server) : Prop where
  tick : y.1.tick = n
  rows : y.1.rows.length = n
  draws : y.1.draws = n
  streamUp : y.1.streamUp = Rng.streamState seed .linkLossUp + BitVec.ofNat 64 n * Rng.golden
  streamDown : y.1.streamDown = Rng.streamState seed .linkLossDown + BitVec.ofNat 64 n * Rng.golden
  cycle : y.2.1.cycle = n
  records : y.2.2.length = n
  serving : y.2.1.Serving

/-- The frame of a request is received with the tick of its course. -/
theorem Requested.frame_tick {c c' : Course} {r : Request} (h : Requested spec c c' r) (opcode : Option Opcode)
    (commandSeq : U32) : (Frame.ofFields (sensorFieldsOf r opcode commandSeq)).tick = c.tick := by
  have hsmall : r.tick < 2 ^ 64 := h.tick ▸ h.small
  rw [← h.tick]
  exact (BitVec.toNat_ofNat r.tick 64).trans (Nat.mod_eq_of_lt hsmall)

omit [Arith F64] in
/-- The stream after one more draw. -/
theorem stream_succ (start : U64) (n : ℕ) :
    start + BitVec.ofNat 64 n * Rng.golden + Rng.golden = start + BitVec.ofNat 64 (n + 1) * Rng.golden := by
  have hsucc : BitVec.ofNat 64 (n + 1) = BitVec.ofNat 64 n + BitVec.ofNat 64 1 := BitVec.ofNat_add n 1
  have hone : BitVec.ofNat 64 1 * Rng.golden = Rng.golden := BitVec.one_mul Rng.golden
  rw [hsucc, BitVec.add_mul, hone, BitVec.add_assoc]

/-- An exchange takes both parties one tick on. -/
theorem Level.step {n : ℕ} {y y' : Course × Server} (h : Level spec seed n y)
    (hexchange : (protocol spec).exchange y = some y') : Level spec seed (n + 1) y' := by
  obtain ⟨c, r, f, hx⟩ := exchanged hexchange
  obtain ⟨htick, hrows, hdraws, hup, hdown⟩ := complete_counts c r (Wire.actuatorDict
    (replyFields (y.2.1.inputs f) y.2.1.cycle f (Episode.step y.2.1.state (y.2.1.inputs f))))
  rw [← hx.client] at htick hrows hdraws hup hdown
  have hf : f.tick = y.2.1.cycle := by rw [hx.frame, hx.requested.frame_tick, h.tick, h.cycle]
  obtain ⟨-, hcourse⟩ := hx.requested
  refine ⟨?_, ?_, ?_, ?_, ?_, ?_, ?_, ?_⟩
  · rw [htick, hcourse, h.tick]
  · rw [hrows, hcourse, h.rows]
  · rw [hdraws, hcourse, h.draws]
  · rw [hup, hcourse, ← stream_succ, ← h.streamUp]
    rfl
  · rw [hdown, hcourse, ← stream_succ, ← h.streamDown]
    rfl
  · rw [hx.server]
    exact congrArg (· + 1) h.cycle
  · rw [hx.server, List.length_append, h.records]
    rfl
  · rw [hx.server]
    exact Core.serving_execute hf

/-- Undisturbed exchanges take both parties one tick on each. -/
theorem level {n : ℕ} {y : Course × Server}
    (h : (protocol spec).sync (start spec seed delayTicks) n = some y) : Level spec seed n y := by
  refine sync_induction (P := Level spec seed) ?_ (fun h hexchange => h.step hexchange) h
  exact ⟨rfl, rfl, rfl, by simp [start, Course.initial], by simp [start, Course.initial], rfl, rfl,
    Core.serving_initial spec.autoArm⟩

/-- The request that follows a number of exchanges, and the frame it is received as. -/
theorem request_at {i : ℕ} {r : Request}
    (h : (protocol spec).requestAt (start spec seed delayTicks) i = some r) :
    ∃ f, (Datagram.mk r.frame false).frame = .ok f ∧ f.tick = i ∧ r.tick = i := by
  obtain ⟨y, hy, hr⟩ := Option.bind_eq_some_iff.mp h
  obtain ⟨-, -, c, hrequest⟩ := issue_eq_some hr
  have hrequested := requested hrequest
  have htick := (level hy).tick
  exact ⟨_, hrequested.frame, (hrequested.frame_tick _ _).trans htick, hrequested.tick.trans htick⟩

/-- What the server makes of the request that follows a number of exchanges. -/
theorem served_at {i : ℕ} {s : Server} {data : Bytes}
    (h : (protocol spec).servedAt (start spec seed delayTicks) i = some (s, data)) :
    ∃ y r f, (protocol spec).sync (start spec seed delayTicks) i = some y ∧
      (protocol spec).requestAt (start spec seed delayTicks) i = some r ∧
      (Datagram.mk r.frame false).frame = .ok f ∧ f.tick = i ∧
      s = (y.2.1.execute f, y.2.2 ++ [(y.2.1.execute f).record]) ∧ data = (y.2.1.execute f).reply := by
  obtain ⟨y, hy, hserved⟩ := Option.bind_eq_some_iff.mp h
  obtain ⟨r, hr, hserve⟩ := Option.map_eq_some_iff.mp hserved
  have hrequest : (protocol spec).requestAt (start spec seed delayTicks) i = some r := by
    rw [requestAt, hy]
    exact hr
  obtain ⟨f, hf, htick, -⟩ := request_at hrequest
  have hserve : serve y.2 r = (s, data) := hserve
  rw [serve_of_frame y.2 hf] at hserve
  obtain ⟨rfl, rfl⟩ := Prod.mk.inj hserve
  exact ⟨y, r, f, hy, hrequest, hf, htick, rfl, rfl⟩

/-- The server of a pair in step has run a cycle for each answer, and serves. -/
theorem server_level {client : Course} {server : Server} {completed answered : ℕ} {requests : List Request}
    {answers : List Bytes}
    (h : (protocol spec).InStep (start spec seed delayTicks) client server completed answered requests answers) :
    server.1.cycle = answered ∧ server.1.Serving := by
  by_cases hlevel : answered = completed
  · obtain ⟨s, hsync, hs⟩ := h.client
    obtain rfl := hs hlevel
    exact ⟨hlevel ▸ (level hsync).cycle, (level hsync).serving⟩
  · obtain ⟨hahead, data, hserved⟩ := h.server hlevel
    obtain ⟨y, r, f, hy, -, -, htick, rfl, -⟩ := served_at hserved
    have hcycle := (level hy).cycle
    exact ⟨hahead ▸ congrArg (· + 1) hcycle, Core.serving_execute (htick.trans hcycle.symm)⟩

/-! ## The processes -/

/-- What is compared of a control record. -/
structure Reported where
  sensorTick : ℕ
  staleness : ℕ
  state : ℕ
  reason : ℕ
  cmd : F64
  iState : F64
  dPrev : F64
  deriving DecidableEq, Repr

/-- What a record reports. -/
def reported (record : Telem.ControlRecord) : Reported where
  sensorTick := record.sensorTick.toNat
  staleness := record.staleness.toNat
  state := record.state.toNat
  reason := record.reason.toNat
  cmd := record.cmd
  iState := record.iState
  dPrev := record.dPrev

/-- The simulator process stands at a course: before its next request, or in the middle of it. -/
def Follows (spec : Scenario F64) (client : Course) (sim : Sim) : Prop :=
  match sim.phase with
  | .ready | .finished => sim.course = client
  | .sending r _ _ | .waiting r _ _ => issue spec client = some r ∧ client.request spec = .ok (sim.course, r)
  | .failed => sim.course = client ∨ ∃ r, client.request spec = .ok (sim.course, r)

/-- The pair stands where undisturbed exchanges would have brought it. -/
structure Tracks (spec : Scenario F64) (seed : U64) (delayTicks : Fin 2) (p : Pair) (client : Course)
    (server : Server) (completed answered : ℕ) (requests : List Request) : Prop where
  inStep : (protocol spec).InStep (start spec seed delayTicks) client server completed answered requests p.downlink
  uplink : p.uplink = requests.map Request.frame
  core : ∃ record, p.vehicle.session.core = { server.1 with record }
  records : p.vehicle.records.map reported = server.2.map reported
  sim : Follows spec client p.sim

variable {p : Pair} {client : Course} {server : Server} {completed answered : ℕ} {requests : List Request}

/-- The pair starts in step. -/
theorem tracks_initial (spec : Scenario F64) (seed : U64) (delayTicks : Fin 2) :
    Tracks spec seed delayTicks (.initial spec seed delayTicks) (.initial spec seed delayTicks)
      (.initial spec.autoArm, []) 0 0 [] where
  inStep := .initial
  uplink := rfl
  core := ⟨_, rfl⟩
  records := rfl
  sim := rfl

/-! ## The simulator's steps -/

/-- The simulator begins its next tick. -/
theorem Tracks.begin (h : Tracks spec seed delayTicks p client server completed answered requests)
    (hphase : p.sim.phase = .ready) :
    Tracks spec seed delayTicks { p with sim := p.sim.begin spec } client server completed answered requests := by
  refine ⟨h.inStep, h.uplink, h.core, h.records, ?_⟩
  have hcourse : p.sim.course = client := by simpa [Follows, hphase] using h.sim
  unfold Sim.begin
  rw [hcourse]
  split
  · rfl
  · rename_i hgoes
    cases hrequest : client.request spec with
    | error e => exact .inl rfl
    | ok x =>
      refine ⟨?_, hrequest⟩
      rw [issue, if_neg hgoes, hrequest]
      rfl

/-- The simulator sends its request. -/
theorem Tracks.send (h : Tracks spec seed delayTicks p client server completed answered requests) {r : Request}
    {attempt : ℕ} {logged : Bool} (hphase : p.sim.phase = .sending r attempt logged) (ok : Bool) :
    Tracks spec seed delayTicks
      { p with
        sim := p.sim.send r attempt logged ok
        uplink := if ok then r.frame :: p.uplink else p.uplink }
      client server completed answered (if ok then r :: requests else requests) := by
  have hsim : issue spec client = some r ∧ client.request spec = .ok (p.sim.course, r) := by
    simpa [Follows, hphase] using h.sim
  refine ⟨?_, ?_, h.core, h.records, hsim⟩
  · cases ok with
    | false => exact h.inStep
    | true => exact h.inStep.send hsim.1
  · cases ok with
    | false => exact h.uplink
    | true => exact congrArg (r.frame :: ·) h.uplink

/-- The request that the simulator waits on is the next one. -/
theorem Tracks.waiting (h : Tracks spec seed delayTicks p client server completed answered requests) {r : Request}
    {attempt : ℕ} {logged : Bool} (hphase : p.sim.phase = .waiting r attempt logged) :
    issue spec client = some r ∧ client.request spec = .ok (p.sim.course, r) := by
  simpa [Follows, hphase] using h.sim

/-- The wait of an attempt passes. -/
theorem Tracks.timeout (h : Tracks spec seed delayTicks p client server completed answered requests) {r : Request}
    {attempt : ℕ} {logged : Bool} (hphase : p.sim.phase = .waiting r attempt logged) :
    Tracks spec seed delayTicks { p with sim := p.sim.timeout r attempt logged } client server completed answered
      requests := by
  refine ⟨h.inStep, h.uplink, h.core, h.records, ?_⟩
  unfold Sim.timeout
  split
  · exact h.waiting hphase
  · exact .inr ⟨r, (h.waiting hphase).2⟩

/-- The simulator's socket fails. -/
theorem Tracks.failure (h : Tracks spec seed delayTicks p client server completed answered requests) {r : Request}
    {attempt : ℕ} {logged : Bool} (hphase : p.sim.phase = .waiting r attempt logged) :
    Tracks spec seed delayTicks { p with sim := { p.sim with phase := .failed } } client server completed answered
      requests :=
  ⟨h.inStep, h.uplink, h.core, h.records, .inr ⟨r, (h.waiting hphase).2⟩⟩

omit [Arith F64] in
/-- What is an answer does not depend on the reply before it. -/
theorem receiptOf_answer {tick : ℕ} {last last' : Option Bytes} {data : Bytes} {value : Wire.Fields}
    (h : receiptOf tick last data = .answer value) : receiptOf tick last' data = .answer value := by
  unfold receiptOf at h ⊢
  generalize (Wire.decodeDatagram data [5] >>= fun frame => Wire.decodePayload 5 frame.2.2) = decoded at h ⊢
  cases decoded with
  | error e => nomatch h
  | ok value' =>
    dsimp only at h ⊢
    split at h
    · nomatch h
    · rename_i htick
      rw [if_neg htick]
      exact h

/-- A datagram reaches the simulator. -/
theorem Tracks.reply (h : Tracks spec seed delayTicks p client server completed answered requests) {r : Request}
    {attempt : ℕ} {logged : Bool} (hphase : p.sim.phase = .waiting r attempt logged) {data : Bytes}
    (hdata : data ∈ p.downlink) :
    ∃ client' completed', Tracks spec seed delayTicks { p with sim := p.sim.receive r data } client' server
      completed' answered requests := by
  obtain ⟨hissue, hrequest⟩ := h.waiting hphase
  have hkept {down : DownlinkCounts} : Follows spec client { p.sim with down } := by
    unfold Follows
    rw [hphase]
    exact ⟨hissue, hrequest⟩
  unfold Sim.receive
  cases hreceipt : receiptOf r.tick p.sim.lastReply data with
  | malformed => exact ⟨client, completed, h.inStep, h.uplink, h.core, h.records, hkept⟩
  | stale again => exact ⟨client, completed, h.inStep, h.uplink, h.core, h.records, hkept⟩
  | invalid => exact ⟨client, completed, h.inStep, h.uplink, h.core, h.records, .inr ⟨r, hrequest⟩⟩
  | answer value =>
    -- Only the reply to the pending request carries its tick.
    obtain ⟨i, hi, s, hserved⟩ := h.inStep.answers data hdata
    obtain ⟨y, r', f, hy, -, -, htick, -, hreply⟩ := served_at hserved
    have hcurrent : (protocol spec).requestAt (start spec seed delayTicks) completed = some r :=
      h.inStep.requestAt_eq.trans hissue
    obtain ⟨-, -, -, hr⟩ := request_at hcurrent
    have hsame : i = completed := by
      have hanswer := hreceipt
      rw [hreply, receiptOf_reply] at hanswer
      dsimp only at hanswer
      split at hanswer
      · nomatch hanswer
      · rename_i hequal
        rw [← hr, ← not_not.mp hequal, htick]
    subst hsame
    refine ⟨p.sim.course.complete r value, i + 1, ?_, h.uplink, h.core, h.records, rfl⟩
    exact h.inStep.accept hi hserved ((accept_eq_some hrequest).mpr ⟨value, receiptOf_answer hreceipt, rfl⟩)

/-! ## The vehicle's steps -/

/-- A reply is what the session holds after a datagram that it answers. -/
theorem Vehicle.reply_of_receive {v : Vehicle} {d : Datagram} {sent pushed : Bool} {data : Bytes}
    (h : data ∈ (v.receive d sent pushed).2) :
    ((v.session.receive d).2 = .new ∨ (v.session.receive d).2 = .cached) ∧
      data = (v.receive d sent pushed).1.session.reply := by
  unfold receive at h ⊢
  generalize v.session.receive d = x at h ⊢
  obtain ⟨s, kind⟩ := x
  cases kind with
  | fatal => nomatch h
  | discard => nomatch h
  | cached =>
    cases sent with
    | false => nomatch h
    | true => exact ⟨.inr rfl, (Option.some.inj h).symm⟩
  | new =>
    cases sent with
    | false => nomatch h
    | true => exact ⟨.inl rfl, (Option.some.inj h).symm⟩

/-- What the vehicle makes of a request that was sent, by its place in the order of the requests. -/
theorem Tracks.request (h : Tracks spec seed delayTicks p client server completed answered requests) {data : Bytes}
    (hdata : data ∈ p.uplink) (sent pushed : Bool) :
    ∃ server' answered', Tracks spec seed delayTicks
      { p with
        vehicle := (p.vehicle.receive ⟨data, false⟩ sent pushed).1
        downlink := (p.vehicle.receive ⟨data, false⟩ sent pushed).2.toList ++ p.downlink }
      client server' completed answered' requests := by
  rw [h.uplink] at hdata
  obtain ⟨r, hr, rfl⟩ := List.mem_map.mp hdata
  obtain ⟨i, hi, hrequest⟩ := h.inStep.requests r hr
  obtain ⟨f, hframe, htick, -⟩ := request_at hrequest
  obtain ⟨hcycle, hserving⟩ := server_level h.inStep
  obtain ⟨record, hcore⟩ := h.core
  set d : Datagram := ⟨r.frame, false⟩
  set v := p.vehicle
  obtain ⟨⟨record', hkept⟩, -⟩ := Vehicle.receive_kept v d sent pushed
  have hreply : (v.receive d sent pushed).1.session.reply = (v.session.receive d).1.reply :=
    congrArg Core.reply hkept
  have hanswer : (v.session.receive d).2 = server.1.classify f := by
    rw [(v.session.receive_core d).2, hframe, hcore]
    rfl
  have hequal : server.1.classify f = .new ↔ i = answered := by rw [hserving.new_iff, htick, hcycle]
  by_cases hnew : i = answered
  · -- The next request is executed.
    subst hnew
    have hkind := hanswer.trans (hequal.mpr rfl)
    obtain ⟨g, hg, -, hexecuted⟩ := Session.core_of_new hkind
    obtain rfl : f = g := Except.ok.inj (hframe.symm.trans hg)
    obtain ⟨g, hg, -, -, hrecords, -⟩ := Vehicle.receive_new hkind sent pushed
    obtain rfl : f = g := Except.ok.inj (hframe.symm.trans hg)
    have hlevel : i = completed := by
      have := h.inStep.level
      omega
    obtain ⟨hserve, hserved⟩ := h.inStep.serve hlevel hrequest
    have hserver : (protocol spec).serve server r =
        ((server.1.execute f, server.2 ++ [(server.1.execute f).record]), (server.1.execute f).reply) :=
      serve_of_frame server hframe
    have hsame : v.session.core.execute f = server.1.execute f := by rw [hcore]; rfl
    rw [hserver] at hserve hserved
    refine ⟨(server.1.execute f, server.2 ++ [(server.1.execute f).record]), i + 1, ?_, h.uplink, ⟨record', ?_⟩, ?_,
      h.sim⟩
    · cases hout : (v.receive d sent pushed).2 with
      | none => exact hserve
      | some data =>
        obtain ⟨-, hdata⟩ := Vehicle.reply_of_receive (Option.mem_def.mpr hout)
        have hkeeps : (v.session.receive d).1.reply = (server.1.execute f).reply :=
          congrArg Core.reply (hexecuted.trans hsame)
        rw [hdata, hreply, hkeeps]
        exact hserve.answer (Nat.lt_succ_self i) hserved
    · rw [hkept, hexecuted, hsame]
    · rw [hrecords, List.map_append, List.map_append, h.records]
      rw [show (v.session.execute f).record = (server.1.execute f).record from
        congrArg Core.record ((Session.execute_core v.session f).trans hsame)]
      rfl
  · -- Any other request leaves the server; at most the kept reply is sent again.
    have hkind : (v.session.receive d).2 ≠ .new := fun hkind => hnew (hequal.mp (hanswer.symm.trans hkind))
    have hsame := core_of_not_new hkind
    obtain ⟨-, -, hrecords⟩ := Vehicle.receive_other hkind sent pushed
    refine ⟨server, answered, ?_, h.uplink, ⟨record', by rw [hkept, hsame, hcore]⟩, hrecords ▸ h.records, h.sim⟩
    cases hout : (v.receive d sent pushed).2 with
    | none => exact h.inStep
    | some data =>
      obtain ⟨-, hdata⟩ := Vehicle.reply_of_receive (Option.mem_def.mpr hout)
      have hkeeps : (v.session.receive d).1.reply = server.1.reply := by
        have hlast := congrArg Core.reply hcore
        exact (congrArg Core.reply hsame).trans hlast
      have hpositive : 0 < answered := by
        have := h.inStep.level
        omega
      obtain ⟨last, hserved⟩ := h.inStep.last hpositive
      obtain ⟨y, r', g, -, -, -, -, hserver, hlast⟩ := served_at hserved
      have hsent : data = last := by rw [hdata, hreply, hkeeps, hlast, hserver]
      exact hsent ▸ h.inStep.answer (Nat.sub_lt hpositive Nat.one_pos) hserved

/-- The vehicle's loop ends. -/
theorem Tracks.stop (h : Tracks spec seed delayTicks p client server completed answered requests) (why : Reason) :
    Tracks spec seed delayTicks { p with vehicle := p.vehicle.stop why } client server completed answered requests := by
  obtain ⟨record, hcore⟩ := h.core
  refine ⟨h.inStep, h.uplink, ⟨record, ?_⟩, h.records, h.sim⟩
  rw [← hcore]
  unfold Vehicle.stop Session.stop
  dsimp only
  split <;> rfl

/-! ## Every reachable pair -/

/-- Every reachable pair stands where undisturbed exchanges would have brought it. -/
theorem tracks_reachable (h : p.Reachable spec seed delayTicks) :
    ∃ client server completed answered requests,
      Tracks spec seed delayTicks p client server completed answered requests := by
  induction h with
  | refl => exact ⟨_, _, _, _, _, tracks_initial spec seed delayTicks⟩
  | tail _ hstep ih =>
    obtain ⟨client, server, completed, answered, requests, ih⟩ := ih
    cases hstep with
    | begin hphase => exact ⟨_, _, _, _, _, ih.begin hphase⟩
    | send hphase ok => exact ⟨_, _, _, _, _, ih.send hphase ok⟩
    | timeout hphase => exact ⟨_, _, _, _, _, ih.timeout hphase⟩
    | reply hphase hdata =>
      obtain ⟨client', completed', htracks⟩ := ih.reply hphase hdata
      exact ⟨_, _, _, _, _, htracks⟩
    | failure hphase => exact ⟨_, _, _, _, _, ih.failure hphase⟩
    | request _ hdata sent pushed =>
      obtain ⟨server', answered', htracks⟩ := ih.request hdata sent pushed
      exact ⟨_, _, _, _, _, htracks⟩
    | stop why => exact ⟨_, _, _, _, _, ih.stop why⟩

end Tvc.Lockstep
