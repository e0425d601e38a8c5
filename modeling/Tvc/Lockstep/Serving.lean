import Tvc.Lockstep.Process
import Tvc.Lockstep.Sensing

/-!
# What the lockstep loop keeps

Each pass of the loop leaves behind what the exit code later asks for: a record of every executed cycle
with the state it left, the count of what was not sent and not pushed, an integrity fault for every datagram
that was refused or contradicted, and, once the loop has ended, a reason why.
-/

namespace Tvc.Lockstep

open Episode (Chronicle Tells reasonOf)

/-! ## One turn -/

/-- No refused datagram and no conflict was counted. -/
def ReceiveCounters.Clean (up : ReceiveCounters) : Prop :=
  up.malformed = 0 ∧ up.discardedTickConflict = 0 ∧
    up.badSync = 0 ∧ up.badVersion = 0 ∧ up.badType = 0 ∧ up.badLength = 0 ∧ up.badCrc = 0

/-- The counter of a sample is none of them. -/
theorem ReceiveCounters.Clean.countSample {up : ReceiveCounters} (h : up.Clean) (fresh valid : Bool) :
    (countSample up fresh valid).Clean := by
  cases fresh <;> cases valid <;> exact h

variable [Arith F64]

/-- Without an integrity fault nothing refused and no conflict was counted. -/
theorem Session.clean_receive {s : Session} (h : s.integrity = false → s.up.Clean) (d : Datagram) :
    (s.receive d).1.integrity = false → (s.receive d).1.up.Clean := by
  unfold receive
  cases d.frame with
  | error e => exact nofun
  | ok f =>
    dsimp only
    repeat' split
    case isFalse.isFalse.isFalse =>
      intro hintegrity
      refine ReceiveCounters.Clean.countSample ?_ (isFresh f) f.valid
      exact h (Bool.or_eq_false_iff.mp hintegrity).1
    all_goals first | exact h | exact nofun

/-- A fatal datagram is a fault. -/
theorem Session.fault_of_fatal {s : Session} {d : Datagram} (h : (s.receive d).2 = .fatal) :
    ∃ fault, (s.receive d).1.fault = some fault ∧ (fault.reason = .internal ∨ fault.reason = .peerLost) := by
  revert h
  unfold receive
  cases d.frame with
  | error e => exact nofun
  | ok f =>
    dsimp only
    repeat' split
    all_goals first
      | exact fun _ => ⟨_, rfl, by cases s.answered <;> simp⟩
      | exact nofun

omit [Arith F64] in
/-- What sending a reply and presenting a record leave to the exit code. -/
theorem Session.note_counters (s : Session) (original sent pushed : Bool) :
    let t := (s.beginSend original).finishSend original sent
    t.up = s.up ∧ t.integrity = s.integrity ∧
      t.down.originalTxFail = s.down.originalTxFail + (original && !sent).toNat ∧
      (t.noteRecord pushed).up = t.up ∧ (t.noteRecord pushed).integrity = t.integrity ∧
      (t.noteRecord pushed).down = t.down := by
  intro t
  have hkept : t.up = s.up ∧ t.integrity = s.integrity ∧
      t.down.originalTxFail = s.down.originalTxFail + (original && !sent).toNat := by
    cases original <;> cases sent <;> cases hsent : s.replyTransmitted <;> simp [t, beginSend, finishSend, hsent]
  exact ⟨hkept.1, hkept.2.1, hkept.2.2, rfl, rfl, rfl⟩

namespace Vehicle

variable {v : Vehicle} {d : Datagram}

/-- A turn counts what its datagram counts. -/
theorem receive_counts (v : Vehicle) (d : Datagram) (sent pushed : Bool) :
    (v.receive d sent pushed).1.session.up = (v.session.receive d).1.up ∧
      (v.receive d sent pushed).1.session.integrity = (v.session.receive d).1.integrity := by
  unfold receive
  generalize v.session.receive d = x
  obtain ⟨s, kind⟩ := x
  cases kind with
  | fatal => exact ⟨rfl, rfl⟩
  | discard => exact ⟨rfl, rfl⟩
  | cached =>
    obtain ⟨hup, hintegrity, -⟩ := s.note_counters false sent pushed
    exact ⟨hup, hintegrity⟩
  | new =>
    obtain ⟨hup, hintegrity, -, hup', hintegrity', -⟩ := s.note_counters true sent pushed
    exact ⟨hup'.trans hup, hintegrity'.trans hintegrity⟩

/-- A turn that executes the policy goes on unless there is a reason, and counts a failed send and a
dropped record. -/
theorem receive_new_counts (h : (v.session.receive d).2 = .new) (sent pushed : Bool) :
    (v.receive d sent pushed).1.drops = v.drops + (!pushed).toNat ∧
      (v.receive d sent pushed).1.running = ((v.receive d sent pushed).1.session.reason == .none) ∧
      (v.receive d sent pushed).1.session.down.originalTxFail =
        v.session.down.originalTxFail + (!sent).toNat := by
  have hdown : (v.session.receive d).1.down.originalTxFail = v.session.down.originalTxFail := by
    have hreceived := v.session.receive_received d
    generalize v.session.receive d = x at h hreceived ⊢
    obtain ⟨s, kind⟩ := x
    cases hreceived with
    | executed => rfl
    | kept hkind => exact absurd h hkind
  rw [← hdown]
  unfold receive
  generalize v.session.receive d = x at h ⊢
  obtain ⟨s, kind⟩ := x
  obtain rfl : kind = .new := h
  exact ⟨rfl, rfl, (s.note_counters true sent pushed).2.2.1⟩

/-- Any other turn goes on unless its datagram was fatal, and counts neither. -/
theorem receive_other_counts (h : (v.session.receive d).2 ≠ .new) (sent pushed : Bool) :
    (v.receive d sent pushed).1.drops = v.drops ∧
      (v.receive d sent pushed).1.running = (v.running && (v.session.receive d).2 != .fatal) ∧
      (v.receive d sent pushed).1.session.down.originalTxFail = v.session.down.originalTxFail := by
  have hdown : (v.session.receive d).1.down = v.session.down := by
    have hreceived := v.session.receive_received d
    generalize v.session.receive d = x at h hreceived ⊢
    obtain ⟨s, kind⟩ := x
    cases hreceived with
    | executed => exact absurd rfl h
    | kept _ _ hdown => exact hdown
  rw [← hdown]
  unfold receive
  generalize v.session.receive d = x at h ⊢
  obtain ⟨s, kind⟩ := x
  cases kind with
  | new => exact absurd rfl h
  | fatal => exact ⟨rfl, (Bool.and_false _).symm, rfl⟩
  | discard => exact ⟨rfl, (Bool.and_true _).symm, rfl⟩
  | cached => exact ⟨rfl, (Bool.and_true _).symm, (s.note_counters false sent pushed).2.2.1⟩

end Vehicle

omit [Arith F64] in
/-- Noting a send sets its bit. -/
theorem sent_bit : ∀ flags : U8, (flags ||| 2) &&& 2 = 2 := by
  decide +kernel

/-- The record of a cycle tells its tick and the state it leaves. -/
theorem execute_tells (s : Session) {f : Frame} {n : ℕ} (htick : f.tick = n) (sent : Bool) (drops : ℕ) :
    Tells 0 n (s.execute f).state (presented (s.execute f).record sent drops) := by
  generalize hi : inputsOf s.held s.up.logicalReceived f = i
  have hstate : (s.execute f).state = (Episode.step s.state i).state := by rw [← hi]; rfl
  have hrecord : (s.execute f).record =
      (applyAcks (Episode.step s.state i).acks (recordOf i f (Episode.step s.state i))).2 := by rw [← hi]; rfl
  obtain ⟨flags, number, status, hothers⟩ :=
    applyAcks_others (Episode.step s.state i).acks (recordOf i f (Episode.step s.state i))
  have hframe : f.fields.tick.toNat = 0 + n := htick.trans (Nat.zero_add n).symm
  rw [hrecord, hothers, hstate]
  unfold recordOf
  dsimp only
  split <;> exact ⟨hframe, rfl, rfl⟩

/-! ## The loop -/

/-- What the loop keeps. -/
structure Served (autoArm : Bool) (history : List (EpisodeInput F64)) (p : Process) : Prop where
  looping : Looping autoArm history p.vehicle
  chronicle : Chronicle autoArm 0 history p.vehicle.records
  unstopped : ∀ i ∈ history, i.stopReason = none
  dropped : p.vehicle.drops = p.pushed.count false
  undropped : p.vehicle.drops = 0 → ∀ r ∈ p.vehicle.records, r.drops = 0
  sent : p.vehicle.session.down.originalTxFail = 0 → ∀ r ∈ p.vehicle.records, r.flags &&& 2 = 2
  clean : p.vehicle.session.integrity = false → p.vehicle.session.up.Clean
  ended : p.vehicle.running = false → p.stopSeen = true ∨
    (∃ fault, p.vehicle.session.fault = some fault ∧ (fault.reason = .internal ∨ fault.reason = .peerLost)) ∨
    p.vehicle.session.fault = none ∧ p.vehicle.session.state.mode = .terminated

variable {autoArm : Bool} {history : List (EpisodeInput F64)} {p : Process}

/-- The vehicle may stop for a reason outside the policy. -/
theorem Served.stop (h : Served autoArm history p) (hrunning : p.vehicle.running = true) {why : Reason} {p' : Process}
    (hvehicle : p'.vehicle = p.vehicle.stop why) (hpushed : p'.pushed = p.pushed)
    (hwhy : p'.stopSeen = true ∨ why = .peerLost) : Served autoArm history p' := by
  obtain ⟨hfault, hlive⟩ := h.looping.live hrunning
  have hnone : p.vehicle.session.state.terminal = none := by
    have hstate : p.vehicle.session.state = Episode.stateAfter autoArm history := h.looping.fed.state
    rw [hstate] at hlive ⊢
    exact Option.not_isSome_iff_eq_none.mp fun hsome =>
      hlive ((Episode.sound_run autoArm history).terminal.mpr hsome)
  have hstopped : p.vehicle.session.stop why =
      { p.vehicle.session with
        fault := some ⟨why, if p.vehicle.session.answered then p.vehicle.session.newestAnswered else 0⟩ } := by
    rw [Session.stop, hnone, hfault]
    rfl
  have hsession : p'.vehicle =
      { p.vehicle with
        session :=
          { p.vehicle.session with
            fault := some ⟨why, if p.vehicle.session.answered then p.vehicle.session.newestAnswered else 0⟩ }
        running := false } := by
    rw [hvehicle, Vehicle.stop, hstopped]
  refine ⟨?_, ?_, h.unstopped, ?_, ?_, ?_, ?_, fun _ => ?_⟩
  · rw [hsession]
    exact ⟨h.looping.fed, nofun, h.looping.aged, h.looping.commands, h.looping.fitting⟩
  · rw [hsession]
    exact h.chronicle
  · rw [hsession, hpushed]
    exact h.dropped
  · rw [hsession]
    exact h.undropped
  · rw [hsession]
    exact h.sent
  · rw [hsession]
    exact h.clean
  · refine hwhy.imp_right fun hpeer => .inl ⟨_, by rw [hsession], .inr hpeer⟩

/-- A turn of the loop keeps it. -/
theorem Served.turn (h : Served autoArm history p) (hrunning : p.vehicle.running = true) (e : Event) {p' : Process}
    (hvehicle : p'.vehicle = p.vehicle.step e) (hpushed : p'.pushed = p.pushed ++ p.vehicle.answer e) :
    Served autoArm (history ++ p.vehicle.inputs e) p' := by
  have hlooping := h.looping.turn e
  rw [← hvehicle] at hlooping
  have hstep : p'.vehicle = (p.vehicle.receive e.datagram e.sent e.pushed).1 := by
    rw [hvehicle, Vehicle.step, if_pos hrunning]
  obtain ⟨hsound, hlive⟩ := h.looping.live hrunning
  obtain ⟨hup, hintegrity⟩ := p.vehicle.receive_counts e.datagram e.sent e.pushed
  have hclean := Session.clean_receive h.clean e.datagram
  rw [← hup, ← hintegrity, ← hstep] at hclean
  by_cases hnew : (p.vehicle.session.receive e.datagram).2 = .new
  · obtain ⟨f, hframe, hlog, hstate, hrecords, -⟩ := Vehicle.receive_new hnew e.sent e.pushed
    obtain ⟨hdrops, hruns, hfailed⟩ := Vehicle.receive_new_counts hnew e.sent e.pushed
    have hinputs : p.vehicle.inputs e =
        [inputsOf p.vehicle.session.held p.vehicle.session.up.logicalReceived f] := by
      rw [Vehicle.inputs, if_pos hrunning, hlog]
      rfl
    have hanswer : p.vehicle.answer e = [e.pushed] := by
      rw [Vehicle.answer, hrunning, hnew]
      rfl
    have hbefore : p.vehicle.session.state = Episode.stateAfter autoArm history := h.looping.fed.state
    have htick : f.tick = history.length := by
      obtain ⟨g, hg, hclass, -⟩ := Session.core_of_new hnew
      obtain rfl : f = g := Except.ok.inj (hframe.symm.trans hg)
      rw [h.looping.fed.length]
      exact (h.looping.fed.serving.new_iff f).mp hclass
    rw [← hstep] at hrecords hdrops hruns hfailed hstate
    rw [hinputs] at hlooping ⊢
    refine ⟨hlooping, ?_, fun i hi => ?_, ?_, fun hnone r hr => ?_, fun hnone r hr => ?_, hclean, fun hover => ?_⟩
    · rw [hrecords]
      refine h.chronicle.concat (hbefore ▸ hlive) ?_
      rw [← hbefore]
      exact execute_tells p.vehicle.session htick e.sent p.vehicle.drops
    · rcases List.mem_append.mp hi with hi | hi
      · exact h.unstopped i hi
      · obtain rfl := List.mem_singleton.mp hi
        rfl
    · rw [hdrops, hpushed, hanswer, List.count_append, h.dropped]
      cases e.pushed <;> rfl
    · rw [hdrops] at hnone
      rw [hrecords] at hr
      rcases List.mem_append.mp hr with hr | hr
      · exact h.undropped (by omega) r hr
      · have hundropped : p.vehicle.drops = 0 := by omega
        rw [List.mem_singleton.mp hr, hundropped]
        rfl
    · rw [hfailed] at hnone
      rw [hrecords] at hr
      rcases List.mem_append.mp hr with hr | hr
      · exact h.sent (by omega) r hr
      · have hsent : e.sent = true := by
          cases hsent : e.sent with
          | true => rfl
          | false => rw [hsent] at hnone; exact absurd hnone (Nat.succ_ne_zero _)
        rw [List.mem_singleton.mp hr, presented, hsent, if_pos rfl]
        exact sent_bit _
    · have hfault : p'.vehicle.session.fault = none := by
        rw [hstep, (Vehicle.receive_kept p.vehicle e.datagram e.sent e.pushed).2]
        rcases p.vehicle.session.fault_of_receive e.datagram with hfatal | hkept
        · exact absurd (hnew.symm.trans hfatal) (by decide)
        · exact hkept.trans hsound
      have hafter : p'.vehicle.session.state = Episode.stateAfter autoArm _ := hlooping.fed.state
      refine .inr (.inr ⟨hfault, ?_⟩)
      rw [hafter] at hstate ⊢
      refine (Episode.sound_run autoArm _).terminal.mpr ?_
      rw [hruns, Session.reason, hfault, hafter] at hover
      cases hterminal : (Episode.stateAfter autoArm
          (history ++ [inputsOf p.vehicle.session.held p.vehicle.session.up.logicalReceived f])).terminal with
      | some t => rfl
      | none => rw [hterminal] at hover; exact absurd hover (by decide)
  · obtain ⟨hlog, -, hrecords⟩ := Vehicle.receive_other hnew e.sent e.pushed
    obtain ⟨hdrops, hruns, hfailed⟩ := Vehicle.receive_other_counts hnew e.sent e.pushed
    have hinputs : p.vehicle.inputs e = [] := by
      rw [Vehicle.inputs, if_pos hrunning, hlog]
      rfl
    have hanswer : p.vehicle.answer e = [] := by
      rw [Vehicle.answer, hrunning, if_neg (by simpa using hnew)]
    rw [← hstep] at hrecords hdrops hruns hfailed
    rw [hinputs, List.append_nil] at hlooping ⊢
    refine ⟨hlooping, hrecords ▸ h.chronicle, h.unstopped, ?_, ?_, ?_, hclean, fun hover => ?_⟩
    · rw [hdrops, hpushed, hanswer, List.append_nil, h.dropped]
    · rw [hdrops, hrecords]
      exact h.undropped
    · rw [hfailed, hrecords]
      exact h.sent
    · have hfatal : (p.vehicle.session.receive e.datagram).2 = .fatal := by
        rw [hruns, hrunning] at hover
        simpa using hover
      obtain ⟨fault, hfault, hreason⟩ := Session.fault_of_fatal hfatal
      refine .inr (.inl ⟨fault, ?_, hreason⟩)
      rw [hstep, (Vehicle.receive_kept p.vehicle e.datagram e.sent e.pushed).2]
      exact hfault

/-- A pass of the loop keeps it. -/
theorem Served.pass (h : Served autoArm history p) (x : Pass) : ∃ history', Served autoArm history' (p.pass x) := by
  unfold Process.pass
  cases hrunning : p.vehicle.running with
  | false => exact ⟨history, h⟩
  | true =>
    rw [if_neg (by decide)]
    cases x with
    | stopped =>
      have hlooping : Looping autoArm history { p.vehicle with running := false } :=
        ⟨h.looping.fed, nofun, h.looping.aged, h.looping.commands, h.looping.fitting⟩
      exact ⟨history, hlooping, h.chronicle, h.unstopped, h.dropped, h.undropped, h.sent, h.clean, fun _ => .inl rfl⟩
    | failed errno interrupted stop =>
      dsimp only
      split
      · exact ⟨history, h.looping, h.chronicle, h.unstopped, h.dropped, h.undropped, h.sent, h.clean, h.ended⟩
      · refine ⟨history, h.stop hrunning rfl rfl ?_⟩
        cases stop with
        | true => exact .inl (Bool.or_true _)
        | false => exact .inr rfl
    | received e answer =>
      dsimp only
      split
      · exact ⟨history, h.stop hrunning rfl rfl (.inr rfl)⟩
      · exact ⟨_, h.turn hrunning e rfl rfl⟩

/-- What every run of the loop keeps. -/
theorem served_run (autoArm : Bool) (passes : List Pass) : ∃ history, Served autoArm history (Process.run autoArm passes) := by
  induction passes using List.reverseRecOn with
  | nil =>
    refine ⟨[], ⟨fed_initial autoArm, fun _ => ⟨rfl, nofun⟩, nofun, rfl, nofun⟩, .nil, nofun, rfl, nofun, nofun, ?_, nofun⟩
    exact fun _ => ⟨rfl, rfl, rfl, rfl, rfl, rfl, rfl⟩
  | append_singleton passes x ih =>
    obtain ⟨history, h⟩ := ih
    rw [Process.run, List.foldl_append]
    exact h.pass x

end Tvc.Lockstep
