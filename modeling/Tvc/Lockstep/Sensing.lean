import Tvc.Episode.Sensing
import Tvc.Lockstep.Projection

/-!
# The inputs and records of lockstep

The session executes the ticks in order, one cycle each, so what it hands to the policy is what a
driver guarantees, whatever datagrams arrive. In the loop of `run` the policy is live whenever it is
called, and every record that is presented counts the one datagram of its cycle.
-/

namespace Tvc.Lockstep

open Telem (FittingCounts)

variable [Arith F64] {autoArm : Bool} {history : List (EpisodeInput F64)} {c : Core} {f : Frame}

/-! ## The inputs of a session -/

/-- What a core keeps of the inputs it handed to the policy. -/
structure Fed (autoArm : Bool) (history : List (EpisodeInput F64)) (c : Core) : Prop where
  serving : c.Serving
  length : history.length = c.cycle
  sensed : Episode.Sensed 0 history
  state : c.state = Episode.stateAfter autoArm history
  held : Episode.heldAfter history = c.held

/-- What the core keeps does not depend on its record. -/
theorem Fed.record (h : Fed autoArm history c) (record : Telem.ControlRecord) :
    Fed autoArm history { c with record } :=
  ⟨⟨h.serving.unanswered, h.serving.cycle, h.serving.payload⟩, h.length, h.sensed, h.state, h.held⟩

omit [Arith F64] in
/-- A fresh frame is the sample that is held after it. -/
theorem heldAfter_of_fresh (held : Option (Observation F64)) (h : isFresh f = true) :
    heldAfter held f = some ⟨f.tick, f.fields.theta, f.fields.omega, true⟩ := by
  rw [heldAfter, if_pos h]

omit [Arith F64] in
/-- Any other frame leaves the sample that is held. -/
theorem heldAfter_of_stale (held : Option (Observation F64)) (h : isFresh f = false) : heldAfter held f = held := by
  rw [heldAfter, h, if_neg Bool.false_ne_true]

/-- Executing the frame of the next tick hands to the policy what a driver guarantees. -/
theorem Fed.driven (h : Fed autoArm history c) (hf : f.tick = c.cycle) :
    Episode.Driven 0 history (c.inputs f) := by
  have hheld : (c.inputs f).held = heldAfter c.held f := rfl
  have hage : (c.inputs f).staleness = ageOf (heldAfter c.held f) f.tick c.cycle := rfl
  refine ⟨?_, nofun, fun o ho => ?_, fun hfresh => ?_, fun hstale => ?_, fun o ho => ?_, fun o ho => ?_,
    fun hnone hcounted => ?_⟩
  · rw [h.length, Nat.zero_add]
    exact hf
  · cases hfresh : isFresh f with
    | true =>
      rw [hheld, heldAfter_of_fresh _ hfresh] at ho
      obtain rfl := Option.some.inj ho
      obtain ⟨htheta, homega⟩ := Bool.and_eq_true_iff.mp (Bool.and_eq_true_iff.mp hfresh).2
      exact ⟨rfl, htheta, homega⟩
    | false =>
      rw [hheld, heldAfter_of_stale _ hfresh, ← h.held] at ho
      exact h.sensed.held_admitted o ho
  · rw [hheld, heldAfter_of_fresh _ hfresh]
    rfl
  · rw [hheld, heldAfter_of_stale _ hstale, h.held]
  · cases hfresh : isFresh f with
    | true =>
      rw [hheld, heldAfter_of_fresh _ hfresh] at ho
      obtain rfl := Option.some.inj ho
      exact le_rfl
    | false =>
      rw [hheld, heldAfter_of_stale _ hfresh, ← h.held] at ho
      have hpast := h.sensed.held_past o ho
      have htick : (c.inputs f).tick = f.tick := rfl
      rw [h.length] at hpast
      omega
  · rw [hage, ← hheld, Option.mem_def.mp ho]
    rfl
  · rw [hage, ← hheld, hnone, h.length]
    rw [h.length] at hcounted
    exact congrArg (min · _) (Nat.mod_eq_of_lt hcounted)

/-- Executing the frame of the next tick feeds the policy one more input. -/
theorem Fed.execute (h : Fed autoArm history c) (hf : f.tick = c.cycle) :
    Fed autoArm (history ++ [c.inputs f]) (c.execute f) where
  serving := Core.serving_execute hf
  length := by rw [List.length_append, h.length]; rfl
  sensed := h.sensed.concat (h.driven hf)
  state := by rw [Episode.stateAfter_concat, ← h.state]; rfl
  held := by rw [Episode.heldAfter_concat]; rfl

/-- A datagram feeds the policy what it executes. -/
theorem Fed.receive {s : Session} (h : Fed autoArm history s.core) (d : Datagram) :
    Fed autoArm (history ++ ((s.execution d).map Prod.snd).toList) (s.receive d).1.core := by
  by_cases hnew : (s.receive d).2 = .new
  · obtain ⟨f, hframe, hclass, hexecuted⟩ := Session.core_of_new hnew
    rw [hexecuted, Session.execution_of_new hnew hframe]
    exact h.execute ((h.serving.new_iff f).mp hclass)
  · rw [core_of_not_new hnew, Session.execution_of_not_new hnew, Option.map_none, Option.toList_none, List.append_nil]
    exact h

/-- A session that has received nothing has handed nothing to the policy. -/
theorem fed_initial (autoArm : Bool) : Fed autoArm [] (Session.initial autoArm).core :=
  ⟨Core.serving_initial autoArm, rfl, .nil, rfl, rfl⟩

/-- What every session keeps of its inputs. -/
theorem fed_session (autoArm : Bool) (datagrams : List Datagram) :
    Fed autoArm (((Session.initial autoArm).executions datagrams).map Prod.snd)
      (Machine.run Session.respond (Session.initial autoArm) datagrams).1.core := by
  induction datagrams using List.reverseRecOn with
  | nil => exact fed_initial autoArm
  | append_singleton datagrams d ih =>
    have hlast : (((Machine.run Session.respond (Session.initial autoArm) datagrams).1.execution d).toList.map
        Prod.snd) =
        (((Machine.run Session.respond (Session.initial autoArm) datagrams).1.execution d).map Prod.snd).toList := by
      cases (Machine.run Session.respond (Session.initial autoArm) datagrams).1.execution d <;> rfl
    rw [Machine.run_append, Session.executions_concat, List.map_append, hlast]
    exact ih.receive d

/-! ## The loop -/

omit [Arith F64] in
/-- Sending a reply and presenting a record leave the core but for its record. -/
theorem Session.note_core (s : Session) (original sent pushed : Bool) :
    (∃ record, ((s.beginSend original).finishSend original sent).core = { s.core with record }) ∧
      ((s.beginSend original).finishSend original sent).fault = s.fault ∧
      (s.noteRecord pushed).core = s.core ∧ (s.noteRecord pushed).fault = s.fault := by
  refine ⟨⟨((s.beginSend original).finishSend original sent).record, ?_⟩, ?_, rfl, rfl⟩ <;>
    cases original <;> cases sent <;> cases hsent : s.replyTransmitted <;>
      simp [beginSend, finishSend, core, hsent]

namespace Vehicle

variable {v : Vehicle}

/-- What a turn of the loop does with the session that a datagram leaves. -/
theorem receive_kept (v : Vehicle) (d : Datagram) (sent pushed : Bool) :
    (∃ record, (v.receive d sent pushed).1.session.core = { (v.session.receive d).1.core with record }) ∧
      (v.receive d sent pushed).1.session.fault = (v.session.receive d).1.fault := by
  unfold receive
  generalize v.session.receive d = x
  obtain ⟨s, kind⟩ := x
  cases kind with
  | fatal => exact ⟨⟨s.record, rfl⟩, rfl⟩
  | discard => exact ⟨⟨s.record, rfl⟩, rfl⟩
  | cached =>
    obtain ⟨hcore, hfault, -⟩ := s.note_core false sent pushed
    exact ⟨hcore, hfault⟩
  | new =>
    obtain ⟨⟨record, hcore⟩, hfault, -⟩ := s.note_core true sent pushed
    obtain ⟨-, -, hnoted, hkept⟩ := ((s.beginSend true).finishSend true sent).note_core true sent pushed
    exact ⟨⟨record, hnoted.trans hcore⟩, hkept.trans hfault⟩

/-- The loop goes on unless a datagram was fatal or a reason ends it. -/
theorem going_on {d : Datagram} {sent pushed : Bool} (h : (v.receive d sent pushed).1.running = true) :
    (v.session.receive d).2 ≠ .fatal ∧
      ((v.session.receive d).2 = .new → (v.receive d sent pushed).1.session.reason = .none) := by
  unfold receive at h ⊢
  generalize v.session.receive d = x at h ⊢
  obtain ⟨s, kind⟩ := x
  cases kind with
  | fatal => nomatch h
  | discard => exact ⟨nofun, nofun⟩
  | cached => exact ⟨nofun, nofun⟩
  | new => exact ⟨nofun, fun _ => beq_iff_eq.mp h⟩

end Vehicle

/-- Only a fatal datagram is a fault. -/
theorem Session.fault_of_receive (s : Session) (d : Datagram) :
    (s.receive d).2 = .fatal ∨ (s.receive d).1.fault = s.fault := by
  unfold receive
  cases d.frame with
  | error e => exact .inr rfl
  | ok f =>
    dsimp only
    repeat' split
    all_goals first | exact .inr rfl | exact .inl rfl

/-! ## The counts of a record -/

omit [Arith F64] in
/-- Acknowledgements touch only their own fields and the flags. -/
theorem applyAcks_others (acks : List Ack) (record : Telem.ControlRecord) :
    ∃ flags ackCmdSeq ackStatus, (applyAcks acks record).2 = { record with flags, ackCmdSeq, ackStatus } := by
  unfold applyAcks
  dsimp only
  cases (projectAck acks).selected with
  | none => exact ⟨_, _, _, rfl⟩
  | some ack =>
    dsimp only
    split <;> exact ⟨_, _, _, rfl⟩

/-- A record holds the command of its cycle, and counts its datagram and no more discards than that. -/
theorem execute_record (s : Session) (f : Frame) :
    let record := (s.execute f).record
    record.cmd = (Episode.step s.state (inputsOf s.held s.up.logicalReceived f)).requestedDelta ∧
      record.rxCount = 1 ∧ record.discardedOld = 0 ∧ record.discardedSuperseded = 0 ∧
        (record.discardedOther = 0 ∨ record.discardedOther = 1) := by
  intro record
  generalize hi : inputsOf s.held s.up.logicalReceived f = i
  have hrecord : record = (applyAcks (Episode.step s.state i).acks (recordOf i f (Episode.step s.state i))).2 := by
    rw [← hi]
    rfl
  obtain ⟨flags, number, status, hothers⟩ :=
    applyAcks_others (Episode.step s.state i).acks (recordOf i f (Episode.step s.state i))
  rw [hrecord, hothers]
  unfold recordOf
  dsimp only
  split
  · exact ⟨rfl, rfl, rfl, rfl, .inr rfl⟩
  · exact ⟨rfl, rfl, rfl, rfl, .inl rfl⟩

/-- The counts of a record fit its cycle. -/
theorem fitting_execute (s : Session) (f : Frame) : FittingCounts (s.execute f).record := by
  obtain ⟨-, hrx, hold, hsuperseded, hother⟩ := execute_record s f
  unfold FittingCounts
  rw [hrx, hold, hsuperseded]
  rcases hother with hother | hother <;> rw [hother] <;> rfl

/-! ## Over a whole run of the loop -/

/-- What the loop of `run` keeps. -/
structure Looping (autoArm : Bool) (history : List (EpisodeInput F64)) (v : Vehicle) : Prop where
  fed : Fed autoArm history v.session.core
  live : v.running = true → v.session.fault = none ∧ v.session.state.mode ≠ .terminated
  aged : ∀ i ∈ history, i.fresh = false → 1 ≤ i.staleness
  commands : v.records.map Telem.ControlRecord.cmd = Episode.commands autoArm history
  fitting : ∀ record ∈ v.records, FittingCounts record

/-- A turn of the loop feeds the policy what it executes. -/
theorem Looping.turn {v : Vehicle} (h : Looping autoArm history v) (e : Event) :
    Looping autoArm (history ++ v.inputs e) (v.step e) := by
  unfold Vehicle.inputs Vehicle.step
  cases hrunning : v.running with
  | false => simpa [hrunning] using h
  | true =>
    rw [if_pos rfl, if_pos rfl]
    obtain ⟨⟨record, hcore⟩, hfault⟩ := Vehicle.receive_kept v e.datagram e.sent e.pushed
    have hfed := (h.fed.receive e.datagram).record record
    rw [← hcore] at hfed
    obtain ⟨hsound, hlive⟩ := h.live hrunning
    have hgoing : (v.receive e.datagram e.sent e.pushed).1.running = true →
        (v.receive e.datagram e.sent e.pushed).1.session.fault = none ∧
          (v.receive e.datagram e.sent e.pushed).1.session.state.mode ≠ .terminated := by
      intro hgoes
      obtain ⟨hserved, hreason⟩ := Vehicle.going_on hgoes
      have hnone := hfault.trans ((v.session.fault_of_receive e.datagram).resolve_left hserved |>.trans hsound)
      refine ⟨hnone, fun hended => ?_⟩
      by_cases hnew : (v.session.receive e.datagram).2 = .new
      · have hstate : (v.receive e.datagram e.sent e.pushed).1.session.state = _ := hfed.state
        have hterminal := (Episode.sound_run autoArm _).terminal.mp (hstate ▸ hended)
        obtain ⟨t, ht⟩ := Option.isSome_iff_exists.mp hterminal
        have hwhy := hreason hnew
        rw [Session.reason, hnone, hstate, ht] at hwhy
        exact Episode.reason_run autoArm _ t ht hwhy
      · exact hlive ((Vehicle.receive_other hnew e.sent e.pushed).2.1 ▸ hended)
    by_cases hnew : (v.session.receive e.datagram).2 = .new
    · obtain ⟨f, hframe, hlog, hstate, hrecords, -⟩ := Vehicle.receive_new hnew e.sent e.pushed
      rw [hlog, Option.map_some, Option.toList_some] at hfed ⊢
      refine ⟨hfed, hgoing, fun i hi hstale => ?_, ?_, fun record hrecord => ?_⟩
      · rcases List.mem_append.mp hi with hi | hi
        · exact h.aged i hi hstale
        · obtain rfl := List.mem_singleton.mp hi
          refine (hfed.sensed.precondition autoArm).aged ?_ hstale
          rw [← h.fed.state]
          exact hlive
      · rw [hrecords, List.map_append, h.commands, Episode.commands_concat, ← h.fed.state]
        exact congrArg (_ ++ [·]) (execute_record v.session f).1
      · rw [hrecords] at hrecord
        rcases List.mem_append.mp hrecord with hrecord | hrecord
        · exact h.fitting record hrecord
        · obtain rfl := List.mem_singleton.mp hrecord
          exact fitting_execute v.session f
    · obtain ⟨hlog, -, hrecords⟩ := Vehicle.receive_other hnew e.sent e.pushed
      rw [hlog, Option.map_none, Option.toList_none, List.append_nil] at hfed ⊢
      exact ⟨hfed, hgoing, h.aged, hrecords ▸ h.commands, hrecords ▸ h.fitting⟩

/-- What every run of the loop keeps. -/
theorem looping_run (autoArm : Bool) (events : List Event) :
    Looping autoArm ((Vehicle.initial autoArm).inputsOf events) (Vehicle.run autoArm events) := by
  induction events using List.reverseRecOn with
  | nil => exact ⟨fed_initial autoArm, fun _ => ⟨rfl, nofun⟩, nofun, rfl, nofun⟩
  | append_singleton events e ih =>
    rw [Vehicle.inputsOf_concat, Vehicle.run, List.foldl_append]
    exact ih.turn e

end Tvc.Lockstep
