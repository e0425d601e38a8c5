import Tvc.Freerun.Serving
import Tvc.Lockstep.Serving
import Tvc.Recorder.Certificate

/-!
# What exit code 0 certifies

Either mode returns 0 only after it has asked for every way in which its run could be incomplete. The
questions are asked at the end, of flags and counters that were set far from each other; what the loops keep
says that a run which passes them all has left a complete recording behind.
-/

namespace Tvc

open Recorder (CompleteRecording complete_recording)

variable [Arith F64] {w : ℕ} {β : Type} [Inhabited β] {image : Recorder.Image w β}

/-- A lockstep run is complete: its recording is that of the summary, nothing malformed and no conflict was
counted, and every first send of a reply succeeded. -/
def Lockstep.Run.Certified {autoArm : Bool} : Lockstep.Run image autoArm → Prop
  | .served env .. =>
    let session := env.session autoArm
    let records := (env.process autoArm).vehicle.records
    CompleteRecording (env.recorder image autoArm).drain.file 0 0 0 session.up.logicalReceived session.reason
        session.reasonTick records ∧
      session.up.Clean ∧ session.down.originalTxFail = 0 ∧ ∀ r ∈ records, r.flags &&& 2 = 2
  | _ => False

/-- A free run is complete: its recording is that of the summary, nothing malformed and no conflict was
counted, a terminal copy was sent and the identities of the admission hold. -/
def Freerun.Run.Certified {cfg : Freerun.RunConfig} : Freerun.Run image cfg → Prop
  | .served env .. =>
    let r := env.runtime cfg
    CompleteRecording (env.recorder image cfg).drain.file env.monoNs env.epochNs r.tickBase r.cycles r.reason
        r.reasonTick (env.records cfg) ∧
      (r.admission.episode.Clean ∧ r.admission.recorded.Clean ∧ r.admission.terminalCounts.conflict = 0) ∧
      1 ≤ r.termSent ∧ r.admission.identitiesHold = true
  | _ => False

/-- What lockstep has asked for before it returns 0. -/
theorem Lockstep.Run.asked {autoArm : Bool} {env : Lockstep.Environment w β} {ended joined answered stopped stays}
    (hcode : (served env ended joined answered stopped stays : Lockstep.Run image autoArm).exitCode = 0) :
    (env.recorder image autoArm).drain.writeFailed = false ∧ env.stopAtExit = false ∧ env.rtOk = true ∧
      (env.session autoArm).integrity = false ∧
      ((env.session autoArm).reason ≠ .peerLost ∧ (env.session autoArm).reason ≠ .internal) ∧
      (env.process autoArm).vehicle.drops = 0 ∧ (env.session autoArm).down.originalTxFail = 0 := by
  simp only [exitCode] at hcode
  split at hcode
  · nomatch hcode
  rename_i hwrote
  split at hcode
  · nomatch hcode
  rename_i hstop
  split at hcode
  · nomatch hcode
  rename_i hrt
  split at hcode
  · nomatch hcode
  rename_i hintegrity
  split at hcode
  · nomatch hcode
  rename_i hreason
  simp only [Bool.or_eq_true, not_or, Bool.not_eq_true, beq_iff_eq, bne_iff_ne, ne_eq, not_not, Bool.not_eq_eq_eq_not,
    Bool.not_true] at hwrote hstop hrt hintegrity hreason
  obtain ⟨⟨⟨⟨hpeer, hinternal⟩, -⟩, hdrops⟩, hsent⟩ := hreason
  exact ⟨hwrote.2, hstop, by simpa using hrt, hintegrity, ⟨hpeer, hinternal⟩, hdrops, hsent⟩

/-- Lockstep certifies a complete run. -/
theorem Lockstep.certified {autoArm : Bool} (run : Lockstep.Run image autoArm) (hcode : run.exitCode = 0) :
    run.Certified := by
  cases run with
  | noSocket => nomatch hcode
  | noFile => nomatch hcode
  | noHeader => nomatch hcode
  | served env ended joined answered stopped stays =>
    obtain ⟨hwritten, hstop, hrt, hintegrity, ⟨hpeer, hinternal⟩, hdrops, hsent⟩ := Lockstep.Run.asked hcode
    have hflag : env.stop = false := by
      by_contra hset
      nomatch hstop.symm.trans (stays (Bool.eq_true_of_not_eq_false hset))
    have hunseen : (env.process autoArm).stopSeen = false := by
      by_contra hset
      nomatch hflag.symm.trans (stopped (Bool.eq_true_of_not_eq_false hset))
    have hsession : env.session autoArm = (env.process autoArm).vehicle.session := by
      rw [Environment.session, Process.conclude, hflag, hrt]
      rfl
    obtain ⟨history, h⟩ : ∃ history, Served autoArm history (env.process autoArm) := served_run autoArm _
    rw [hsession] at hpeer hinternal hintegrity hsent
    -- A loop that the flag did not end has a fault or an ended machine, and a fault is not asked for.
    obtain ⟨hfault, hended⟩ : (env.process autoArm).vehicle.session.fault = none ∧
        (env.process autoArm).vehicle.session.state.mode = .terminated := by
      rcases h.ended (ended hrt) with hseen | ⟨fault, hfault, hreason⟩ | hover
      · nomatch hunseen.symm.trans hseen
      · have hwhy : (env.process autoArm).vehicle.session.reason = fault.reason := by
          rw [Session.reason, hfault]
          rfl
        rw [hwhy] at hpeer hinternal
        exact hreason.elim (absurd · hinternal) (absurd · hpeer)
      · exact hover
    have hstate : (env.process autoArm).vehicle.session.state = Episode.stateAfter autoArm history := h.looping.fed.state
    obtain ⟨t, ht⟩ : ∃ t, (Episode.stateAfter autoArm history).terminal = some t :=
      Option.isSome_iff_exists.mp ((Episode.sound_run autoArm history).terminal.mp (hstate ▸ hended))
    have hreason : (env.process autoArm).vehicle.session.reason = t.reason := by
      rw [Session.reason, hfault, hstate, ht]
      rfl
    have htick : (env.process autoArm).vehicle.session.reasonTick = t.tick := by
      rw [Session.reasonTick, hfault, hstate, ht]
      rfl
    have hconcluded : Episode.Concluded t.reason := by
      refine (h.chronicle.concluded h.unstopped t ht).resolve_right fun hunknown => ?_
      exact hinternal (hreason.trans hunknown.1)
    have hnone : (env.recorder image autoArm).answers.count false = 0 := by
      rw [answered, ← h.dropped, hdrops]
    have hlength : history.length = (env.process autoArm).vehicle.session.up.logicalReceived := h.looping.fed.length
    have hrecording := complete_recording h.chronicle h.looping.fed.sensed ht hconcluded h.looping.fitting
      (h.undropped hdrops) (s := env.recorder image autoArm) rfl joined hwritten hnone
    unfold Run.Certified
    dsimp only
    rw [hsession, hreason, htick, ← hlength]
    exact ⟨hrecording, h.clean hintegrity, hsent, h.sent hsent⟩

/-- What free run has asked for before it returns 0. -/
theorem Freerun.Run.asked {cfg : Freerun.RunConfig} {env : Freerun.Environment w β} {joined answered stays}
    (hcode : (served env joined answered stays : Freerun.Run image cfg).exitCode = 0) :
    (env.started cfg = true → (env.recorder image cfg).drain.writeFailed = false) ∧ env.drops cfg = 0 ∧
      env.stopAtExit = false ∧ env.rtOk cfg = true ∧
      ((env.runtime cfg).admission.integrity = false ∧ (env.runtime cfg).admission.identitiesHold = true) ∧
      (env.origin cfg).isSome = true ∧ (env.runtime cfg).failure = .none ∧ (env.runtime cfg).termSent ≠ 0 := by
  simp only [exitCode] at hcode
  split at hcode
  · nomatch hcode
  rename_i hwrote
  split at hcode
  · nomatch hcode
  rename_i hstop
  split at hcode
  · nomatch hcode
  rename_i hrt
  split at hcode
  · nomatch hcode
  rename_i hadmission
  split at hcode
  · nomatch hcode
  rename_i hended
  simp only [Bool.or_eq_true, Bool.and_eq_true, not_or, not_and, Bool.not_eq_true, beq_iff_eq, bne_iff_ne, ne_eq, not_not]
    at hwrote hstop hrt hadmission hended
  obtain ⟨⟨⟨-, hwritten⟩, -⟩, hdrops⟩ := hwrote
  obtain ⟨⟨horigin, hfailure⟩, hsent⟩ := hended
  refine ⟨hwritten, hdrops, hstop, by simpa using hrt, ⟨hadmission.1, by simpa using hadmission.2⟩, ?_, hfailure, hsent⟩
  exact Option.isNone_eq_false_iff.mp horigin

/-- Free run certifies a complete run. -/
theorem Freerun.certified {cfg : Freerun.RunConfig} (run : Freerun.Run image cfg) (hcode : run.exitCode = 0) :
    run.Certified := by
  cases run with
  | noSocket => nomatch hcode
  | noFile => nomatch hcode
  | noHeader => nomatch hcode
  | served env joined answered stays =>
    obtain ⟨hwritten, hdrops, hstop, hrt, ⟨hintegrity, hidentities⟩, hacquired, hfailure, hsent⟩ :=
      Freerun.Run.asked hcode
    obtain ⟨o, horigin⟩ := Option.isSome_iff_exists.mp hacquired
    have hstarted : env.started cfg = true := by
      simp only [Environment.rtOk, Bool.and_eq_true] at hrt
      exact hrt.1.1.1
    have hunseen : env.stopSeen cfg = false := by
      by_contra hset
      nomatch hstop.symm.trans (stays (Bool.eq_true_of_not_eq_false hset))
    obtain ⟨history, h⟩ := env.served cfg o
    have hrecords : env.records cfg = (env.loop cfg o).records := by rw [Environment.records, horigin]; rfl
    have hnone : (env.loop cfg o).drops = 0 := by
      rw [Environment.drops, horigin] at hdrops
      exact hdrops
    have hunstopped : ∀ i ∈ history, i.stopReason = none := by
      intro i hi
      by_contra hstopped
      obtain ⟨e, he, hset⟩ := h.stopped i hi hstopped
      rw [Environment.stopSeen, horigin] at hunseen
      have hany := (Bool.or_eq_false_iff.mp hunseen).1
      exact List.any_eq_false.mp hany e he hset
    obtain ⟨attempts, last, sent, failed, hruntime, hanswered⟩ := Environment.runtime_of_origin horigin
    rw [hruntime] at hintegrity hidentities hfailure hsent
    have hended : (env.loop cfg o).r.state.mode = .terminated := hanswered hsent
    have hstate := h.scheduled.state
    obtain ⟨t, ht⟩ : ∃ t, (Episode.stateAfter cfg.autoArm history).terminal = some t :=
      Option.isSome_iff_exists.mp ((Episode.sound_run cfg.autoArm history).terminal.mp (hstate ▸ hended))
    have hreason : (env.runtime cfg).reason = t.reason := by
      rw [Runtime.reason, hruntime, hfailure, hstate, ht]
      rfl
    have htick : (env.runtime cfg).reasonTick = t.tick := by
      rw [Runtime.reasonTick, hruntime, hstate, ht]
      rfl
    have hchronicle := h.chronicle (env.room horigin)
    have hconcluded : Episode.Concluded t.reason := by
      refine (hchronicle.concluded hunstopped t ht).resolve_right ?_
      rintro ⟨-, i, hi, sim, hsim, hunknown⟩
      have hlegal := (h.lawful hintegrity).2 i hi sim hsim
      tauto
    have hpushed : env.pushed cfg = (env.executed cfg o).map BodyEvent.pushed := by
      rw [Environment.pushed, horigin]
      rfl
    have haccepted : (env.recorder image cfg).answers.count false = 0 := by
      rw [answered hstarted, hpushed, ← h.dropped, hnone]
    have hfaultless : (env.loop cfg o).r.admission.Faultless := h.scheduled.between.reachable.faultless hintegrity
    have hrecording := complete_recording hchronicle h.scheduled.sensed ht hconcluded h.scheduled.fitting
      (h.undropped hnone) (s := env.recorder image cfg) (by rw [Environment.recorder, hrecords]) (joined hstarted)
      (hwritten hstarted) haccepted
    unfold Run.Certified
    dsimp only
    rw [hreason, htick, hrecords, hruntime]
    have hbase : (env.loop cfg o).r.tickBase = o.tickBase := h.scheduled.base
    have hcycles : (env.loop cfg o).r.cycles = history.length := h.cycles
    dsimp only
    rw [hbase, hcycles]
    exact ⟨hrecording, ⟨hfaultless.episode, hfaultless.recorded, hfaultless.conflict⟩,
      Nat.one_le_iff_ne_zero.mpr hsent, hidentities⟩

/-- Exit code 0 certifies a complete run, in lockstep and in free run, whatever the outside does; and in free
run the machine ends by the last scheduled cycle, at the cycle run last, unless a sleep fails. -/
theorem exit_code_certifies (image : Recorder.Image w β) :
    (∀ (autoArm : Bool) (run : Lockstep.Run image autoArm), run.exitCode = 0 → run.Certified) ∧
      (∀ (cfg : Freerun.RunConfig) (run : Freerun.Run image cfg), run.exitCode = 0 → run.Certified) ∧
      ∀ (cfg : Freerun.RunConfig) (env : Freerun.Environment w β) (o : Freerun.Origin),
        0 < cfg.total → env.origin cfg = some o →
          let r := env.runtime cfg
          (r.state.mode = .terminated ∧ 1 ≤ r.cycles ∧ r.cycles ≤ cfg.total ∧
              r.reasonTick = r.tickBase + (r.cycles - 1)) ∨
            r.failure = .internal ∧ ∃ n < cfg.total, (env.bodies n).SleepFails := by
  refine ⟨fun _ => Lockstep.certified, fun _ => Freerun.certified, ?_⟩
  intro cfg env o htotal horigin r
  obtain ⟨history, h⟩ := env.served cfg o
  have hlength : (env.events cfg).length = cfg.total := by simp [Freerun.Environment.events]
  obtain ⟨attempts, last, sent, failed, hruntime, -⟩ := Freerun.Environment.runtime_of_origin horigin
  have hstate : r.state = (env.loop cfg o).r.state := by simp only [r, hruntime]
  have hcycles : r.cycles = history.length := by simp only [r, hruntime, h.cycles]
  have hbase : r.tickBase = o.tickBase := by simp only [r, hruntime, h.scheduled.base]
  have hfailure : r.failure = (env.loop cfg o).r.failure := by simp only [r, hruntime]
  rcases Freerun.Loop.ends_by_horizon cfg.toConfig o.tickBase o.origin o.carry htotal hlength with
    ⟨hended, -⟩ | ⟨hfailed, e, he, hfails⟩
  · have hafter := h.scheduled.state
    change (env.loop cfg o).r.state.mode = .terminated at hended
    obtain ⟨t, ht⟩ := Option.isSome_iff_exists.mp
      ((Episode.sound_run cfg.autoArm history).terminal.mp (hafter ▸ hended))
    obtain ⟨hplace, record, hrecord, -⟩ := (h.chronicle (env.room horigin)).last h.scheduled.sensed ht
    have hsome : 1 ≤ history.length := by
      rw [← (h.chronicle (env.room horigin)).length]
      exact List.length_pos_of_mem (List.mem_of_getLast? hrecord)
    have hn : history.length ≤ cfg.total := by
      rw [h.scheduled.length, ← hlength]
      exact Freerun.Loop.n_le cfg.toConfig o.tickBase o.origin o.carry (env.events cfg)
    have htick : r.reasonTick = t.tick := by
      rw [Freerun.Runtime.reasonTick, hstate, hafter, ht]
      rfl
    refine .inl ⟨hstate ▸ hended, hcycles ▸ hsome, hcycles ▸ hn, ?_⟩
    rw [htick, hbase, hcycles]
    omega
  · obtain ⟨n, hn, rfl⟩ := List.mem_map.mp he
    exact .inr ⟨hfailure.trans hfailed, n, List.mem_range.mp hn, hfails⟩

end Tvc
