import Tvc.Admission.Faults
import Tvc.Episode.Chronicle
import Tvc.Freerun.Bookkeeping
import Tvc.Freerun.Process

/-!
# What the scheduled cycles keep

Each scheduled cycle leaves behind what the exit code later asks for: a record with the state it left, the
count of what was not pushed, and an admission without a fault only while every terminal it offered was
legal. The loop ends with the machine, at the last cycle at the latest, or with a sleep that fails.
-/

namespace Tvc.Freerun

open Episode (Chronicle reasonOf)

variable [Arith F64]

namespace Loop

/-- The events of one more body. -/
theorem executed_concat (cfg : Config) (carry : Datagram) (x : Loop) (events : List BodyEvent) (e : BodyEvent) :
    x.executed cfg carry (events ++ [e]) = x.executed cfg carry events ++
      if (events.foldl (body cfg carry) x).Runs cfg e then [e] else [] := by
  induction events generalizing x with
  | nil => rw [List.nil_append, executed, executed, executed, List.append_nil, List.nil_append, List.foldl_nil]
  | cons e' rest ih => rw [List.cons_append, executed, ih, executed, List.append_assoc, List.foldl_cons]

/-- The record of a body tells its tick and the state it leaves. -/
theorem record_tells (cfg : Config) (carry : Datagram) (x : Loop) (e : BodyEvent)
    (hbound : x.r.tickBase + x.n < 2 ^ 64)
    (hsound : (x.output cfg carry e).state.mode = .terminated ↔ (x.output cfg carry e).state.terminal.isSome = true) :
    Episode.Tells x.r.tickBase x.n (x.output cfg carry e).state (x.record cfg carry e) where
  tick := (BitVec.toNat_ofNat _ _).trans (Nat.mod_eq_of_lt hbound)
  state := rfl
  reason := by
    unfold record sentRecord recordOf
    dsimp only
    split
    · rfl
    · rename_i hlive
      have hnone : (x.output cfg carry e).state.terminal = none := by
        by_contra hsome
        exact hlive (beq_iff_eq.mpr (hsound.mpr (Option.isSome_iff_ne_none.mpr hsome)))
      rw [reasonOf, hnone]
      rfl

end Loop

/-- What the scheduled cycles keep. -/
structure Served (cfg : Config) (tickBase : ℕ) (history : List (EpisodeInput F64)) (executed : List BodyEvent)
    (x : Loop) : Prop where
  scheduled : Scheduled cfg tickBase history x
  chronicle : tickBase + cfg.total ≤ 2 ^ 64 → Chronicle cfg.autoArm tickBase history x.records
  stopped : ∀ i ∈ history, i.stopReason ≠ none → ∃ e ∈ executed, e.stop = true
  lawful : x.r.admission.integrity = false → (∀ sim ∈ x.r.simSeen, Admission.LegalReason sim) ∧
    ∀ i ∈ history, ∀ sim ∈ i.simReason, sim = 1 ∨ sim = 2 ∨ sim = 3
  cycles : x.r.cycles = history.length
  dropped : x.drops = (executed.map BodyEvent.pushed).count false
  undropped : x.drops = 0 → ∀ r ∈ x.records, r.drops = 0
  going : x.running = true →
    x.r.state.mode ≠ .terminated ∧ x.r.failure = .none ∧ (x.n < cfg.total ∨ cfg.total = 0)
  ended : x.running = false → x.r.state.mode = .terminated ∧ x.r.failure = .none ∨ x.r.failure = .internal
  answered : x.r.terminalCycle ≠ 0 ∨ x.r.termSent ≠ 0 → x.r.state.mode = .terminated

variable {cfg : Config} {tickBase : ℕ} {history : List (EpisodeInput F64)} {executed : List BodyEvent} {x : Loop}

omit [Arith F64] in
/-- A legal reason is one that the policy knows. -/
theorem legal_toNat {reason : U32} (h : Admission.LegalReason reason) :
    reason.toNat = 1 ∨ reason.toNat = 2 ∨ reason.toNat = 3 := by
  obtain ⟨hlow, hhigh⟩ := h
  omega

/-- The reasons seen up to a body are legal, unless the admission has a fault after it. -/
theorem Served.lawful_after (h : Served cfg tickBase history executed x) (carry : Datagram) (e : BodyEvent)
    (hsound : (x.admitted carry e).integrity = false) :
    ∀ sim ∈ ((x.admitted carry e).cycle.terminal.map Terminal.reason).or x.r.simSeen, Admission.LegalReason sim := by
  have hreach := h.scheduled.between.reachable
  have hbefore : x.r.admission.integrity = false := by
    by_contra hfault
    have hstays : (x.admitted carry e).integrity = true :=
      hreach.run_rule (fun _ _ => Admission.integrity_step) (Bool.eq_true_of_not_eq_false hfault) _
    nomatch hsound.symm.trans hstays
  have hfaultless : (x.admitted carry e).Faultless := (hreach.run _).faultless hsound
  intro sim hsim
  cases hterminal : (x.admitted carry e).cycle.terminal with
  | none =>
    rw [hterminal] at hsim
    exact (h.lawful hbefore).1 sim hsim
  | some t =>
    rw [hterminal] at hsim
    obtain rfl : t.reason = sim := Option.some.inj hsim
    exact hfaultless.terminal t hterminal

/-- A body that runs the policy keeps it. -/
theorem Served.run_turn (h : Served cfg tickBase history executed x) (carry : Datagram) {e : BodyEvent}
    (hruns : x.Runs cfg e) :
    Served cfg tickBase (history ++ [x.input cfg carry e]) (executed ++ [e]) (x.body cfg carry e) := by
  have hscheduled := h.scheduled.turn carry e
  rw [if_pos hruns] at hscheduled
  obtain ⟨errors, errno, refused, hbody⟩ := Loop.body_eq carry hruns
  obtain ⟨hlive, hsound, -⟩ := h.going hruns.1
  have hlast : (x.input cfg carry e).tick = tickBase + x.n := congrArg (· + x.n) h.scheduled.base
  have hended : (x.output cfg carry e).state.mode = .terminated ↔
      (x.output cfg carry e).state.terminal.isSome = true := by
    have hstate : (x.output cfg carry e).state =
        Episode.stateAfter cfg.autoArm (history ++ [x.input cfg carry e]) := by
      rw [Episode.stateAfter_concat, ← h.scheduled.state]
      rfl
    rw [hstate]
    exact (Episode.sound_run cfg.autoArm _).terminal
  rw [hbody] at hscheduled ⊢
  refine ⟨hscheduled, fun hroom => ?_, fun i hi hstop => ?_, fun hintegrity => ?_, ?_, ?_, fun hnone r hr => ?_,
    fun hrunning => ?_, fun hover => ?_, fun hanswered => ?_⟩
  · refine (h.chronicle hroom).concat (h.scheduled.state ▸ hlive) ?_
    rw [← h.scheduled.state, h.scheduled.length, ← h.scheduled.base]
    refine x.record_tells cfg carry e ?_ hended
    have hn := hruns.2.1
    rw [h.scheduled.base]
    omega
  · rcases List.mem_append.mp hi with hi | hi
    · obtain ⟨e', he', hstopped⟩ := h.stopped i hi hstop
      exact ⟨e', List.mem_append_left _ he', hstopped⟩
    · obtain rfl := List.mem_singleton.mp hi
      refine ⟨e, by simp, ?_⟩
      by_contra hgoes
      exact hstop (if_neg hgoes)
  · have hlegal := h.lawful_after carry e hintegrity
    have hbefore : x.r.admission.integrity = false := by
      by_contra hfault
      have hstays : (x.admitted carry e).integrity = true :=
        h.scheduled.between.reachable.run_rule (fun _ _ => Admission.integrity_step)
          (Bool.eq_true_of_not_eq_false hfault) _
      nomatch hintegrity.symm.trans hstays
    refine ⟨hlegal, fun i hi sim hsim => ?_⟩
    rcases List.mem_append.mp hi with hi | hi
    · exact (h.lawful hbefore).2 i hi sim hsim
    · obtain rfl := List.mem_singleton.mp hi
      obtain ⟨reason, hreason, rfl⟩ := Option.mem_map.mp hsim
      exact legal_toNat (hlegal reason hreason)
  · rw [List.length_append, ← h.cycles]
    rfl
  · rw [List.map_append, List.count_append, ← h.dropped]
    cases hpushed : e.pushed <;> simp [Loop.cycled, hpushed]
  · have hbefore : x.drops = 0 := (Nat.add_eq_zero_iff.mp hnone).1
    rcases List.mem_append.mp hr with hr | hr
    · exact h.undropped hbefore r hr
    · rw [List.mem_singleton.mp hr, Loop.record, hbefore]
      rfl
  · have hmode : (x.output cfg carry e).state.mode ≠ .terminated := by
      intro hmode
      have hends : x.ends cfg carry e = true := beq_iff_eq.mpr hmode
      simp [Loop.cycled, hends] at hrunning
    refine ⟨hmode, hsound, .inl (Nat.lt_of_le_of_ne hruns.2.1 fun hfinal => hmode ?_)⟩
    exact Episode.terminated_of_horizon (h.scheduled.driven carry e).stopAllowed (beq_iff_eq.mpr hfinal)
  · refine .inl ⟨?_, hsound⟩
    have hends : x.ends cfg carry e = true := by simpa [Loop.cycled] using hover
    exact beq_iff_eq.mp hends
  · by_contra hmode
    have hends : x.ends cfg carry e = false := beq_eq_false_iff_ne.mpr hmode
    simp only [Loop.cycled, hends, Bool.false_eq_true, if_false, Bool.false_and, Bool.toNat_false, Nat.add_zero] at hanswered
    exact hlive (h.answered hanswered)

/-- One more body keeps it. -/
theorem Served.turn (h : Served cfg tickBase history executed x) (carry : Datagram) (e : BodyEvent) :
    Served cfg tickBase (history ++ if x.Runs cfg e then [x.input cfg carry e] else [])
      (executed ++ if x.Runs cfg e then [e] else []) (x.body cfg carry e) := by
  by_cases hruns : x.Runs cfg e
  · rw [if_pos hruns, if_pos hruns]
    exact h.run_turn carry hruns
  · have hscheduled := h.scheduled.turn carry e
    rw [if_neg hruns, List.append_nil] at hscheduled ⊢
    rw [if_neg hruns, List.append_nil]
    by_cases hover : x.running = false ∨ cfg.total ≤ x.n
    · rw [Loop.body_of_over carry hover]
      exact h
    · rw [not_or, Bool.not_eq_false, not_le] at hover
      rw [Loop.body_of_failed carry hover.1 hover.2 fun hslept => hruns ⟨hover.1, hover.2, hslept⟩] at hscheduled ⊢
      exact ⟨hscheduled, h.chronicle, h.stopped, h.lawful, h.cycles, h.dropped, h.undropped, nofun, fun _ => .inr rfl,
        h.answered⟩

/-- What every scheduled run keeps. -/
theorem served_run (cfg : Config) (tickBase : ℕ) (origin : ℤ) (carry : Datagram) (events : List BodyEvent) :
    Served cfg tickBase ((Loop.initial cfg tickBase origin).inputs cfg carry events)
      ((Loop.initial cfg tickBase origin).executed cfg carry events) (Loop.run cfg tickBase origin carry events) := by
  induction events using List.reverseRecOn with
  | nil =>
    refine ⟨scheduled_run cfg tickBase origin carry [], fun _ => .nil, nofun, fun _ => ⟨nofun, nofun⟩, rfl, rfl, nofun,
      fun _ => ⟨nofun, rfl, ?_⟩, nofun, ?_⟩
    · have hstart : (Loop.run cfg tickBase origin carry []).n = 0 := rfl
      rw [hstart]
      omega
    · rintro (h | h) <;> exact absurd rfl h
  | append_singleton events e ih =>
    rw [Loop.inputs_concat, Loop.executed_concat, Loop.run, List.foldl_append]
    exact ih.turn carry e

/-! ## How a run ends -/

/-- While the loop runs, each event was a cycle. -/
theorem Loop.n_of_running (cfg : Config) (tickBase : ℕ) (origin : ℤ) (carry : Datagram) (events : List BodyEvent)
    (hroom : events.length ≤ cfg.total) (hrunning : (run cfg tickBase origin carry events).running = true) :
    (run cfg tickBase origin carry events).n = events.length := by
  induction events using List.reverseRecOn with
  | nil => rfl
  | append_singleton events e ih =>
    rw [List.length_append, List.length_singleton] at hroom ⊢
    rw [run, List.foldl_append] at hrunning ⊢
    change (body cfg carry (run cfg tickBase origin carry events) e).running = true at hrunning
    change (body cfg carry (run cfg tickBase origin carry events) e).n = events.length + 1
    by_cases hruns : (run cfg tickBase origin carry events).Runs cfg e
    · rw [← ih (by omega) hruns.1]
      exact (body_of_runs carry hruns).2.2.2.1
    · by_cases hover : (run cfg tickBase origin carry events).running = false ∨
          cfg.total ≤ (run cfg tickBase origin carry events).n
      · rw [body_of_over carry hover] at hrunning
        have hn := ih (by omega) hrunning
        rcases hover with hover | hover
        · exact absurd (hrunning.symm.trans hover) (by decide)
        · omega
      · rw [not_or, Bool.not_eq_false, not_le] at hover
        rw [body_of_failed carry hover.1 hover.2 fun hslept => hruns ⟨hover.1, hover.2, hslept⟩] at hrunning
        exact absurd hrunning Bool.false_ne_true

/-- No more cycles are run than there are events. -/
theorem Loop.n_le (cfg : Config) (tickBase : ℕ) (origin : ℤ) (carry : Datagram) (events : List BodyEvent) :
    (run cfg tickBase origin carry events).n ≤ events.length := by
  induction events using List.reverseRecOn with
  | nil => exact le_rfl
  | append_singleton events e ih =>
    rw [List.length_append, List.length_singleton, run, List.foldl_append]
    change (body cfg carry (run cfg tickBase origin carry events) e).n ≤ events.length + 1
    by_cases hruns : (run cfg tickBase origin carry events).Runs cfg e
    · rw [(body_of_runs carry hruns).2.2.2.1]
      exact Nat.succ_le_succ ih
    · rw [(body_of_not_runs carry hruns).2.2.2.1]
      exact Nat.le_succ_of_le ih

/-- A sleep of the event fails. -/
def BodyEvent.SleepFails (e : BodyEvent) : Prop := ¬(e.sleepError = 0 ∨ e.sleepError = EINTR)

/-- Only a sleep that fails is a failure of the loop. -/
theorem Loop.failure_of_run (cfg : Config) (tickBase : ℕ) (origin : ℤ) (carry : Datagram) (events : List BodyEvent)
    (hfailed : (run cfg tickBase origin carry events).r.failure ≠ .none) : ∃ e ∈ events, e.SleepFails := by
  induction events using List.reverseRecOn with
  | nil => exact absurd rfl hfailed
  | append_singleton events e ih =>
    rw [run, List.foldl_append] at hfailed
    change (body cfg carry (run cfg tickBase origin carry events) e).r.failure ≠ .none at hfailed
    by_cases hslept : e.sleepError = 0 ∨ e.sleepError = EINTR
    · have hkept : (body cfg carry (run cfg tickBase origin carry events) e).r.failure =
          (run cfg tickBase origin carry events).r.failure := by
        by_cases hover : (run cfg tickBase origin carry events).running = false ∨
            cfg.total ≤ (run cfg tickBase origin carry events).n
        · rw [body_of_over carry hover]
        · rw [not_or, Bool.not_eq_false, not_le] at hover
          obtain ⟨errors, errno, refused, hbody⟩ := body_eq carry ⟨hover.1, hover.2, hslept⟩
          rw [hbody]
          rfl
      rw [hkept] at hfailed
      obtain ⟨e', he', hfails⟩ := ih hfailed
      exact ⟨e', List.mem_append_left _ he', hfails⟩
    · exact ⟨e, by simp, hslept⟩

/-- With an event for each scheduled cycle the machine ends, unless a sleep fails. -/
theorem Loop.ends_by_horizon (cfg : Config) (tickBase : ℕ) (origin : ℤ) (carry : Datagram) {events : List BodyEvent}
    (htotal : 0 < cfg.total) (hlength : events.length = cfg.total) :
    let x := run cfg tickBase origin carry events
    x.r.state.mode = .terminated ∧ x.r.failure = .none ∨ x.r.failure = .internal ∧ ∃ e ∈ events, e.SleepFails := by
  intro x
  have hserved := served_run cfg tickBase origin carry events
  have hover : x.running = false := by
    by_contra hrunning
    have hrunning : x.running = true := Bool.eq_true_of_not_eq_false hrunning
    have hn : x.n = events.length := n_of_running cfg tickBase origin carry events hlength.le hrunning
    rcases (hserved.going hrunning).2.2 with hlt | hzero
    · have hn' : (run cfg tickBase origin carry events).n = events.length := hn
      omega
    · omega
  refine (hserved.ended hover).imp_right fun hfailed => ⟨hfailed, ?_⟩
  refine failure_of_run cfg tickBase origin carry events ?_
  rw [hfailed]
  decide

omit [Arith F64] in
/-- Repeating the terminal reply touches only its own counters. -/
theorem resendTerminal_keeps (copies : ℕ → CopyEvent) (left copy : ℕ) (r : Runtime) :
    ∃ attempts last sent failed, resendTerminal copies left copy r =
      { r with termAttempts := attempts, termLast := last, termSent := sent, termFailed := failed } := by
  induction left generalizing copy r with
  | zero => exact ⟨_, _, _, _, rfl⟩
  | succ left ih =>
    unfold resendTerminal
    split
    · exact ⟨_, _, _, _, rfl⟩
    · obtain ⟨attempts, last, sent, failed, heq⟩ := ih (copy + 1) (r.noteCopy (copies copy))
      exact ⟨attempts, last, sent, failed, heq⟩

/-- The scheduled cycles of a run with an origin. -/
theorem Environment.served {w : ℕ} {β : Type} (env : Environment w β) (cfg : RunConfig) (o : Origin) :
    ∃ history, Served cfg.toConfig o.tickBase history (env.executed cfg o) (env.loop cfg o) :=
  ⟨_, served_run cfg.toConfig o.tickBase o.origin o.carry (env.events cfg)⟩

omit [Arith F64] in
/-- The ticks of a run with an origin do not wrap. -/
theorem Environment.room {w : ℕ} {β : Type} (env : Environment w β) {cfg : RunConfig} {o : Origin}
    (h : env.origin cfg = some o) : o.tickBase + cfg.total ≤ 2 ^ 64 := by
  have hfits : o.fits cfg = true := (Option.filter_eq_some_iff.mp h).2
  have hticks := of_decide_eq_true (Bool.and_eq_true_iff.mp hfits).1
  unfold UINT64_MAX at hticks
  omega

/-- The runtime of a run with an origin is that of its cycles but for the copies of the terminal reply, which
only an ended machine sends. -/
theorem Environment.runtime_of_origin {w : ℕ} {β : Type} {env : Environment w β} {cfg : RunConfig} {o : Origin}
    (h : env.origin cfg = some o) :
    ∃ attempts last sent failed,
      env.runtime cfg =
        { (env.loop cfg o).r with
          termAttempts := attempts, termLast := last, termSent := sent, termFailed := failed } ∧
      (sent ≠ 0 → (env.loop cfg o).r.state.mode = .terminated) := by
  obtain ⟨history, hserved⟩ := env.served cfg o
  have hruntime : env.runtime cfg =
      if (env.loop cfg o).r.terminalCycle != 0 then
        resendTerminal env.copies (cfg.terminalCopies - 1) 1 (env.loop cfg o).r
      else (env.loop cfg o).r := by
    unfold runtime
    rw [h]
  by_cases hanswered : (env.loop cfg o).r.terminalCycle = 0
  · refine ⟨_, _, _, _, hruntime.trans (if_neg (by simpa using hanswered)), fun hsent => ?_⟩
    exact hserved.answered (.inr hsent)
  · obtain ⟨attempts, last, sent, failed, hresent⟩ :=
      resendTerminal_keeps env.copies (cfg.terminalCopies - 1) 1 (env.loop cfg o).r
    refine ⟨attempts, last, sent, failed, ?_, fun _ => hserved.answered (.inl hanswered)⟩
    rw [hruntime, if_pos (by simpa using hanswered), hresent]

end Tvc.Freerun
