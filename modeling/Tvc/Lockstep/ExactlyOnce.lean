import Mathlib.Data.List.Induction
import Tvc.Lib.Machine
import Tvc.Lockstep.Session

/-!
# Exactly-once execution in lockstep

The policy reads and writes a small part of the session, its core. A datagram either executes
the policy, and then carries the tick after the newest answered one, or leaves the core as it
is. So the policy runs once for each tick, in order, whatever is repeated, stale or malformed
in between, and what is refused or answered from the kept reply can be deleted from a history.
-/

namespace Tvc.Lockstep

variable [Arith F64]

/-- The part of a session that executing the policy reads and writes. -/
@[ext] structure Core where
  state : EpisodeState F64
  held : Option (Observation F64)
  acks : List Ack
  answered : Bool
  newestAnswered : ℕ
  lastPayload : Bytes
  cycle : ℕ
  reply : Bytes
  record : Telem.ControlRecord

omit [Arith F64] in
/-- The core of a session. -/
def Session.core (s : Session) : Core :=
  ⟨s.state, s.held, s.acks, s.answered, s.newestAnswered, s.lastPayload, s.up.logicalReceived, s.reply,
    s.record⟩

namespace Core

/-- The core of a new session. -/
def initial (autoArm : Bool) : Core := (Session.initial autoArm).core

omit [Arith F64] in
/-- What becomes of a frame. -/
def classify (c : Core) (f : Frame) : Disposition :=
  if c.answered && f.tick == c.newestAnswered then
    if f.payload == c.lastPayload then .cached else .discard
  else if c.answered && f.tick < c.newestAnswered then .discard
  else if (!c.answered && f.tick != 0) || (c.answered && f.tick != c.newestAnswered + 1) then .fatal
  else .new

/-- The inputs that executing a frame hands to the policy. -/
def inputs (c : Core) (f : Frame) : EpisodeInput F64 := inputsOf c.held c.cycle f

/-- The core after executing a frame. -/
def execute (c : Core) (f : Frame) : Core :=
  let result := Episode.step c.state (c.inputs f)
  { state := result.state
    held := (c.inputs f).held
    acks := result.acks
    answered := true
    newestAnswered := f.tick
    lastPayload := f.payload
    cycle := c.cycle + 1
    reply := replyFrame c.cycle (replyFields (c.inputs f) c.cycle f result)
    record := (applyAcks result.acks (recordOf (c.inputs f) f result)).2 }

/-- The core after a frame. -/
def take (c : Core) (f : Frame) : Core := if c.classify f = .new then c.execute f else c

end Core

/-- Executing acts on the core alone. -/
theorem Session.execute_core (s : Session) (f : Frame) : (s.execute f).core = s.core.execute f :=
  Core.ext rfl rfl rfl rfl rfl rfl (countSample_logicalReceived ..) rfl rfl

/-- A datagram acts on the core through its frame alone. -/
theorem Session.receive_core (s : Session) (d : Datagram) :
    (s.receive d).1.core = d.frame.toOption.elim s.core s.core.take ∧
      (s.receive d).2 = d.frame.toOption.elim .discard s.core.classify := by
  cases hframe : d.frame with
  | error e => simp [receive, hframe, Except.toOption, core]
  | ok f =>
    simp only [receive, hframe, Except.toOption, Option.elim_some, Core.take, Core.classify, core]
    repeat' split
    all_goals first | contradiction | exact ⟨rfl, rfl⟩ | exact ⟨execute_core _ f, rfl⟩

/-- A datagram that is answered anew carries the frame that is executed. -/
theorem Session.core_of_new {s : Session} {d : Datagram} (h : (s.receive d).2 = .new) :
    ∃ f, d.frame = .ok f ∧ s.core.classify f = .new ∧ (s.receive d).1.core = s.core.execute f := by
  obtain ⟨hcore, hanswer⟩ := s.receive_core d
  cases hframe : d.frame with
  | error e => simp [hanswer, hframe, Except.toOption] at h
  | ok f =>
    have hclass : s.core.classify f = .new := by simpa [hanswer, hframe, Except.toOption] using h
    exact ⟨f, rfl, hclass, by simp [hcore, hframe, Except.toOption, Core.take, hclass]⟩

/-- Only an execution changes the core. -/
theorem core_of_not_new {s : Session} {d : Datagram} (h : (s.receive d).2 ≠ .new) : (s.receive d).1.core = s.core := by
  rw [(s.receive_core d).2] at h
  rw [(s.receive_core d).1]
  cases hframe : d.frame with
  | error e => rfl
  | ok f =>
    have hclass : s.core.classify f ≠ .new := by simpa [hframe, Except.toOption] using h
    simp [Except.toOption, Core.take, hclass]

/-- One datagram: the session it leaves, with its disposition and the reply then at hand. -/
def Session.respond (s : Session) (d : Datagram) : Session × Disposition × Bytes :=
  ((s.receive d).1, (s.receive d).2, (s.receive d).1.reply)

/-- An answer that leaves the policy alone: a refusal, or the kept reply again. -/
def silent (answer : Disposition × Bytes) : Bool := answer.1 == .cached || answer.1 == .discard

/-- The replies of the executed ticks, among the answers of a history. -/
def newReplies (answers : List (Disposition × Bytes)) : List Bytes :=
  (answers.filter fun answer => answer.1 == .new).map Prod.snd

/-! ## The invariant -/

/-- What every session keeps: the newest answered payload is that of the newest answered tick,
and as many cycles have run as ticks were answered. -/
structure Core.Serving (c : Core) : Prop where
  unanswered : c.answered = false → c.cycle = 0
  cycle : c.answered = true → c.cycle = c.newestAnswered + 1
  payload : c.answered = true → ∃ f : Frame, f.payload = c.lastPayload ∧ f.tick = c.newestAnswered

variable {c : Core} {s : Session}

omit [Arith F64] in
/-- A frame is executed when it carries the next tick. -/
theorem Core.Serving.new_iff (h : c.Serving) (f : Frame) : c.classify f = .new ↔ f.tick = c.cycle := by
  cases hanswered : c.answered with
  | false =>
    rw [h.unanswered hanswered]
    by_cases htick : f.tick = 0 <;> simp [classify, hanswered, htick]
  | true =>
    rw [h.cycle hanswered]
    simp only [classify, hanswered, Bool.true_and, beq_iff_eq, Bool.not_true, Bool.false_and,
      Bool.false_or, bne_iff_ne, decide_eq_true_eq]
    repeat' split
    all_goals first | (constructor <;> intro _ <;> first | contradiction | omega) | simp_all

omit [Arith F64] in
/-- The newest answered payload again. -/
theorem Core.classify_repeat {f : Frame} (h : c.answered = true) (htick : f.tick = c.newestAnswered)
    (hpayload : f.payload = c.lastPayload) : c.classify f = .cached := by
  simp [classify, h, htick, hpayload]

omit [Arith F64] in
/-- Another payload for the newest answered tick. -/
theorem Core.classify_conflict {f : Frame} (h : c.answered = true) (htick : f.tick = c.newestAnswered)
    (hpayload : f.payload ≠ c.lastPayload) : c.classify f = .discard := by
  simp [classify, h, htick, hpayload]

omit [Arith F64] in
/-- A tick before the newest answered one. -/
theorem Core.classify_old {f : Frame} (h : c.answered = true) (htick : f.tick < c.newestAnswered) :
    c.classify f = .discard := by
  simp [classify, h, htick, htick.ne]

omit [Arith F64] in
/-- A tick beyond the next one. -/
theorem Core.Serving.classify_gap (h : c.Serving) {f : Frame} (htick : c.cycle < f.tick) :
    c.classify f = .fatal := by
  cases hanswered : c.answered with
  | false => simp [classify, hanswered, Nat.ne_zero_of_lt htick]
  | true =>
    rw [h.cycle hanswered] at htick
    simp [classify, hanswered, show f.tick ≠ c.newestAnswered by omega,
      show ¬f.tick < c.newestAnswered by omega, htick.ne']

/-- Executing the frame of the next tick keeps the invariant. -/
theorem Core.serving_execute {f : Frame} (hf : f.tick = c.cycle) :
    (c.execute f).Serving where
  unanswered hfalse := nomatch hfalse
  cycle _ := congrArg (· + 1) hf.symm
  payload _ := ⟨f, rfl, rfl⟩

/-- A frame keeps the invariant. -/
theorem Core.Serving.take_step (h : c.Serving) (f : Frame) : (c.take f).Serving := by
  unfold take
  split
  · exact serving_execute ((h.new_iff f).mp ‹_›)
  · exact h

/-- A new session serves. -/
theorem Core.serving_initial (autoArm : Bool) : (Core.initial autoArm).Serving where
  unanswered _ := rfl
  cycle h := nomatch h
  payload h := nomatch h

/-! ## What a history executes -/

/-- The frame a datagram executes, with the inputs it hands to the policy. -/
def Session.execution (s : Session) (d : Datagram) : Option (Frame × EpisodeInput F64) :=
  match (s.receive d).2, d.frame with
  | .new, .ok f => some (f, inputsOf s.held s.up.logicalReceived f)
  | _, _ => none

/-- A datagram that is answered anew executes its frame. -/
theorem Session.execution_of_new {s : Session} {d : Datagram} {f : Frame} (h : (s.receive d).2 = .new)
    (hframe : d.frame = .ok f) : s.execution d = some (f, inputsOf s.held s.up.logicalReceived f) := by
  simp only [execution, h, hframe]

/-- Any other datagram executes nothing. -/
theorem Session.execution_of_not_new {s : Session} {d : Datagram} (h : (s.receive d).2 ≠ .new) :
    s.execution d = none := by
  unfold execution
  split
  · contradiction
  · rfl

/-- The executions of a history, in order. -/
def Session.executions : Session → List Datagram → List (Frame × EpisodeInput F64)
  | _, [] => []
  | s, d :: rest => (s.execution d).toList ++ executions (s.receive d).1 rest

/-- The executions of one more datagram. -/
theorem Session.executions_concat (s : Session) (history : List Datagram) (d : Datagram) :
    s.executions (history ++ [d]) =
      s.executions history ++ ((Machine.run respond s history).1.execution d).toList := by
  induction history generalizing s with
  | nil => simp [executions]
  | cons d' rest ih =>
    rw [List.cons_append, executions, ih, executions, List.append_assoc]
    rfl

/-- What a history has executed: one frame for each tick so far, and nothing else. -/
structure Executed (autoArm : Bool) (s : Session) (answers : List (Disposition × Bytes))
    (log : List (Frame × EpisodeInput F64)) : Prop where
  serving : s.core.Serving
  ticks : log.map (fun e => e.2.tick) = List.range s.core.cycle
  answered : s.answered = log.getLast?.isSome
  newest : ∀ e ∈ log.getLast?, e.1.payload = s.lastPayload ∧ e.1.tick = s.newestAnswered
  state : s.state = (Machine.run Episode.advance (Episode.initial autoArm) (log.map Prod.snd)).1
  transitions : s.events.episodeTransitions = s.core.cycle
  news : (newReplies answers).length = s.core.cycle

/-- The transitions counted by a datagram. -/
theorem Session.receive_transitions (s : Session) (d : Datagram) :
    (s.receive d).1.events.episodeTransitions =
      s.events.episodeTransitions + ((s.receive d).2 == .new).toNat := by
  unfold receive
  cases d.frame with
  | error e => rfl
  | ok f =>
    dsimp only
    repeat' split
    all_goals rfl

/-- One more datagram executes the next tick or nothing. -/
theorem Executed.receive_step {autoArm : Bool} {answers : List (Disposition × Bytes)}
    {log : List (Frame × EpisodeInput F64)} (h : Executed autoArm s answers log) (d : Datagram) :
    Executed autoArm (s.receive d).1 (answers ++ [((s.receive d).2, (s.receive d).1.reply)])
      (log ++ (s.execution d).toList) := by
  have htransitions := s.receive_transitions d
  by_cases hnew : (s.receive d).2 = .new
  · -- The frame of the next tick is executed.
    obtain ⟨f, hframe, hclass, hexecuted⟩ := Session.core_of_new hnew
    have htick : f.tick = s.core.cycle := (h.serving.new_iff f).mp hclass
    have hlog : s.execution d = some (f, s.core.inputs f) := Session.execution_of_new hnew hframe
    have hnews : newReplies (answers ++ [((s.receive d).2, (s.receive d).1.reply)]) =
        newReplies answers ++ [(s.receive d).1.reply] := by
      simp [newReplies, hnew]
    rw [hlog, Option.toList_some]
    refine ⟨hexecuted ▸ Core.serving_execute htick, ?_, ?_, fun e he => ?_, ?_, ?_, ?_⟩
    · have hcycle : (s.receive d).1.core.cycle = s.core.cycle + 1 := by rw [hexecuted]; rfl
      have hinput : (s.core.inputs f).tick = f.tick := rfl
      simp [hcycle, List.range_succ, h.ticks, hinput, htick]
    · rw [List.getLast?_concat]
      exact congrArg Core.answered hexecuted
    · obtain rfl : (f, s.core.inputs f) = e := by simpa using he
      exact ⟨(congrArg Core.lastPayload hexecuted).symm, (congrArg Core.newestAnswered hexecuted).symm⟩
    · have hstate : (s.receive d).1.state = (Episode.step s.state (s.core.inputs f)).state :=
        congrArg Core.state hexecuted
      rw [hstate, h.state, List.map_append, Machine.run_append]
      rfl
    · rw [htransitions, hnew, h.transitions, hexecuted]
      rfl
    · rw [hnews, List.length_append, h.news, hexecuted]
      rfl
  · -- Everything else leaves the core alone.
    have hsame : (s.receive d).1.core = s.core := core_of_not_new hnew
    have hlog : s.execution d = none := Session.execution_of_not_new hnew
    have hnews : newReplies (answers ++ [((s.receive d).2, (s.receive d).1.reply)]) =
        newReplies answers := by
      simp [newReplies, hnew]
    rw [hlog, Option.toList_none, List.append_nil]
    refine ⟨hsame ▸ h.serving, hsame ▸ h.ticks, ?_, ?_, ?_, ?_, ?_⟩
    · exact (congrArg Core.answered hsame).trans h.answered
    · have hpayload : (s.receive d).1.lastPayload = s.lastPayload := congrArg Core.lastPayload hsame
      have hnewest : (s.receive d).1.newestAnswered = s.newestAnswered :=
        congrArg Core.newestAnswered hsame
      rw [hpayload, hnewest]
      exact h.newest
    · exact (congrArg Core.state hsame).trans h.state
    · rw [htransitions, hsame, h.transitions]
      simp [hnew]
    · rw [hnews, hsame]
      exact h.news

/-- What every history has executed. -/
theorem executed_run (autoArm : Bool) (history : List Datagram) :
    Executed autoArm (Machine.run Session.respond (Session.initial autoArm) history).1
      (Machine.run Session.respond (Session.initial autoArm) history).2
      ((Session.initial autoArm).executions history) := by
  induction history using List.reverseRecOn with
  | nil => exact ⟨Core.serving_initial autoArm, rfl, rfl, nofun, rfl, rfl, rfl⟩
  | append_singleton history d ih =>
    rw [Machine.run_append, Session.executions_concat]
    exact ih.receive_step d

/-! ## Silent datagrams -/

/-- Sessions with one core answer a datagram alike. -/
theorem respond_congr (s t : Session) (d : Datagram) (h : s.core = t.core) :
    (s.respond d).1.core = (t.respond d).1.core ∧ (s.respond d).2 = (t.respond d).2 := by
  have hcore : (s.receive d).1.core = (t.receive d).1.core := by
    rw [(s.receive_core d).1, (t.receive_core d).1, h]
  have hanswer : (s.receive d).2 = (t.receive d).2 := by
    rw [(s.receive_core d).2, (t.receive_core d).2, h]
  exact ⟨hcore, Prod.ext hanswer (congrArg Core.reply hcore)⟩

/-- A silent answer leaves the core as it was. -/
theorem core_of_silent (s : Session) (d : Datagram) (h : silent (s.respond d).2 = true) :
    (s.respond d).1.core = s.core := by
  refine core_of_not_new fun hnew => ?_
  simp [silent, Session.respond, hnew] at h

/-- Histories with the same datagrams that are not answered silently agree. -/
theorem kept_agree {history history' : List Datagram}
    (h : Machine.kept Session.respond silent s history = Machine.kept Session.respond silent s history') :
    (Machine.run Session.respond s history).1.core = (Machine.run Session.respond s history').1.core ∧
      newReplies (Machine.run Session.respond s history).2 =
        newReplies (Machine.run Session.respond s history').2 := by
  have hnews (answers : List (Disposition × Bytes)) :
      newReplies (answers.filter fun answer => !silent answer) = newReplies answers := by
    have hloud (answer : Disposition × Bytes) (hnew : (answer.1 == .new) = true) :
        (!silent answer) = true := by
      simp_all [silent]
    rw [newReplies, newReplies, List.filter_filter]
    congr 2
    funext answer
    cases hnew : answer.1 == .new with
    | false => rfl
    | true => simp [hloud answer hnew]
  obtain ⟨hcore, hanswers⟩ := Machine.run_kept respond_congr core_of_silent s history
  obtain ⟨hcore', hanswers'⟩ := Machine.run_kept respond_congr core_of_silent s history'
  rw [h] at hcore hanswers
  refine ⟨hcore.trans hcore'.symm, ?_⟩
  rw [← hnews, hanswers, ← hanswers', hnews]

/-- Exactly-once execution: a history executes the policy once for each tick of a prefix of the
ticks, in order; a repeat is answered from the kept reply and everything else is refused, both
without touching the core; and histories that differ only in such datagrams agree. -/
theorem lockstep_exactly_once (autoArm : Bool) (history : List Datagram) :
    let r := Machine.run Session.respond (Session.initial autoArm) history
    let log := (Session.initial autoArm).executions history
    let n := (newReplies r.2).length
    (log.map (fun e => e.2.tick) = List.range n ∧
      r.1.state = (Machine.run Episode.advance (Episode.initial autoArm) (log.map Prod.snd)).1 ∧
      r.1.events.episodeTransitions = n) ∧
    (∀ d, (∀ e, d.frame = .error e → (r.1.receive d).2 = .discard ∧ (r.1.receive d).1.core = r.1.core) ∧
      ∀ f, d.frame = .ok f →
        (∀ last ∈ log.getLast?, f.payload = last.1.payload →
          (r.1.receive d).2 = .cached ∧ (r.1.receive d).1.core = r.1.core) ∧
        (∀ last ∈ log.getLast?, f.tick = last.1.tick → f.payload ≠ last.1.payload →
          (r.1.receive d).2 = .discard ∧ (r.1.receive d).1.core = r.1.core) ∧
        (∀ last ∈ log.getLast?, f.tick < last.1.tick →
          (r.1.receive d).2 = .discard ∧ (r.1.receive d).1.core = r.1.core) ∧
        (f.tick = n → (r.1.receive d).2 = .new ∧
          (r.1.receive d).1.events.episodeTransitions = n + 1) ∧
        (n < f.tick → (r.1.receive d).2 = .fatal ∧ (r.1.receive d).1.core = r.1.core ∧
          (r.1.receive d).1.events.episodeTransitions = n)) ∧
    ∀ history',
      Machine.kept Session.respond silent (Session.initial autoArm) history =
        Machine.kept Session.respond silent (Session.initial autoArm) history' →
      r.1.core = (Machine.run Session.respond (Session.initial autoArm) history').1.core ∧
        newReplies r.2 = newReplies (Machine.run Session.respond (Session.initial autoArm) history').2 := by
  intro r log n
  have h : Executed autoArm r.1 r.2 log := executed_run autoArm history
  have hn : n = r.1.core.cycle := h.news
  have hlast : ∀ last ∈ log.getLast?, r.1.core.answered = true := by
    intro last hlast
    have hsome := h.answered
    rwa [Option.mem_def.mp hlast] at hsome
  have hanswer (d : Datagram) {f : Frame} (hf : d.frame = .ok f) :
      (r.1.receive d).2 = r.1.core.classify f := by
    simp [(r.1.receive_core d).2, hf, Except.toOption]
  have hquiet {d : Datagram} {kind : Disposition} (hkind : (r.1.receive d).2 = kind) (hne : kind ≠ .new) :
      (r.1.receive d).2 = kind ∧ (r.1.receive d).1.core = r.1.core :=
    ⟨hkind, core_of_not_new (hkind ▸ hne)⟩
  refine ⟨⟨hn ▸ h.ticks, h.state, hn ▸ h.transitions⟩,
    fun d => ⟨fun e he => ?_, fun f hf => ⟨fun last hl hpayload => ?_, fun last hl htick hpayload => ?_,
      fun last hl htick => ?_, fun htick => ?_, fun htick => ?_⟩⟩, fun history' hkept => kept_agree hkept⟩
  · exact hquiet (by simp [(r.1.receive_core d).2, he, Except.toOption]) nofun
  · have hsame : f = last.1 := Frame.ext hpayload
    refine hquiet ((hanswer d hf).trans ?_) nofun
    rw [hsame]
    exact Core.classify_repeat (hlast last hl) (h.newest last hl).2 (h.newest last hl).1
  · rw [(h.newest last hl).2] at htick
    rw [(h.newest last hl).1] at hpayload
    exact hquiet ((hanswer d hf).trans (Core.classify_conflict (hlast last hl) htick hpayload)) nofun
  · rw [(h.newest last hl).2] at htick
    exact hquiet ((hanswer d hf).trans (Core.classify_old (hlast last hl) htick)) nofun
  · have hnew : (r.1.receive d).2 = .new :=
      (hanswer d hf).trans ((h.serving.new_iff f).mpr (htick.trans hn))
    refine ⟨hnew, ?_⟩
    rw [r.1.receive_transitions d, hnew, h.transitions, hn]
    rfl
  · have hfatal := (hanswer d hf).trans (h.serving.classify_gap (hn ▸ htick))
    refine ⟨hfatal, core_of_not_new (hfatal ▸ nofun), ?_⟩
    rw [r.1.receive_transitions d, hfatal, h.transitions, hn]
    rfl

end Tvc.Lockstep
