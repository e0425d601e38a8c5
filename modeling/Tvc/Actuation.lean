import Tvc.ControlBounds
import Tvc.Episode.Limits
import Tvc.HeadlessRun
import Tvc.Lockstep.Refinement

/-!
# The actuator never cuts a command off

The commands of the policy are within the limits of the actuator, computed, coasted or neutral. In the headless
reference and in lockstep nothing else reaches the actuator, however late, so it applies what it is told.
-/

namespace Tvc

open Actuator (Passes step_of_passes)

/-! ## The headless reference -/

namespace Headless

variable {F : Type} [Arith F] [Classify F]

/-- What the loop keeps: the policy coasts on a command that passes, and what is on its way to the actuator or has
reached it was commanded in a row. -/
structure Contained (l : Loop F) : Prop where
  settled : l.state.settleCount ≤ 1000
  coasting : Passes l.state.pid.lastDelta
  passing : ∀ row ∈ l.rows, Passes row.episode.requestedDelta
  delayed : ∀ x, some x ∈ l.delay → ∃ row ∈ l.rows, row.episode.requestedDelta = x
  applied : ∀ row ∈ l.rows, ∀ x ∈ row.arriving,
    row.actuator = ⟨x⟩ ∧ ∃ commanded ∈ l.rows, commanded.episode.requestedDelta = x

variable {spec : Scenario F} {l : Loop F}

/-- One more tick. -/
theorem Contained.turn (hlimits : OrderedLimits F) (h : Contained l) (n : ℕ) : Contained (tick spec l n) := by
  obtain ⟨hstate, hdelay, -, -, row, hrows, hepisode, -, -, -, -, harriving, hactuator⟩ := tick_keeps spec l n
  have hagrees : EpisodeRef.step l.state (inputOf spec l n) = Episode.step l.state (inputOf spec l n) :=
    EpisodeRef.step_agrees h.settled (inputOf spec l n)
  obtain ⟨hpasses, hcoasting⟩ := Episode.step_passes hlimits h.coasting (inputOf spec l n)
  rw [← hagrees] at hpasses hcoasting
  -- What waits for the actuator in this tick was commanded in one of the rows.
  have hwaiting : ∀ x, some x ∈ waiting spec l n → ∃ commanded ∈ l.rows ++ [row], commanded.episode.requestedDelta = x := by
    intro x hx
    rcases List.mem_append.mp hx with hx | hx
    · obtain ⟨commanded, hmem, heq⟩ := h.delayed x hx
      exact ⟨commanded, List.mem_append_left _ hmem, heq⟩
    · have hlast := List.mem_singleton.mp hx
      split at hlast
      · nomatch hlast
      · exact ⟨row, by simp, hepisode ▸ (Option.some.inj hlast).symm⟩
  have hpassing : ∀ commanded ∈ l.rows ++ [row], Passes commanded.episode.requestedDelta := by
    intro commanded hmem
    rcases List.mem_append.mp hmem with hmem | hmem
    · exact h.passing commanded hmem
    · obtain rfl := List.mem_singleton.mp hmem
      exact hepisode ▸ hpasses
  refine ⟨?_, hstate ▸ hcoasting, hrows ▸ hpassing, ?_, ?_⟩
  · rw [hstate, hagrees]
    exact Episode.step_settleCount_le h.settled (inputOf spec l n)
  · rw [hdelay, hrows]
    exact fun x hx => hwaiting x (List.mem_of_mem_tail hx)
  · rw [hrows]
    intro reached hmem x hx
    rcases List.mem_append.mp hmem with hmem | hmem
    · obtain ⟨hact, commanded, hcommanded, heq⟩ := h.applied reached hmem x hx
      exact ⟨hact, commanded, List.mem_append_left _ hcommanded, heq⟩
    · obtain rfl := List.mem_singleton.mp hmem
      have hhead : some x ∈ waiting spec l n := by
        rw [Option.mem_def, harriving] at hx
        cases hwait : waiting spec l n with
        | nil => rw [hwait] at hx; nomatch hx
        | cons first rest => rw [hwait] at hx; exact hx ▸ List.mem_cons_self
      obtain ⟨commanded, hcommanded, heq⟩ := hwaiting x hhead
      refine ⟨?_, commanded, hcommanded, heq⟩
      rw [hactuator, Option.mem_def.mp hx]
      exact step_of_passes (heq ▸ hpassing commanded hcommanded) l.act

/-- The loop keeps it over all ticks. -/
theorem contained_upTo (hlimits : OrderedLimits F) (spec : Scenario F) (seed : U64) (delayTicks : Fin 2) (n : ℕ) :
    Contained (upTo spec seed delayTicks n) := by
  induction n with
  | zero =>
    change Contained (initial spec seed delayTicks)
    exact ⟨Nat.zero_le _, Actuator.passes_neutral hlimits, fun row hrow => absurd hrow List.not_mem_nil,
      fun x hx => absurd (List.eq_of_mem_replicate hx) (Option.some_ne_none x),
      fun row hrow => absurd hrow List.not_mem_nil⟩
  | succ n ih =>
    rw [upTo_succ]
    split
    · exact ih
    · exact ih.turn hlimits n

end Headless

/-! ## Lockstep -/

namespace Lockstep

open StopAndWait

variable [Arith F64] {spec : Scenario F64} {seed : U64} {delayTicks : Fin 2}

/-- What waits for the actuator when a reply is taken. -/
def Course.waiting (c : Course) (r : Request) (answer : Wire.Fields) : List (Option F64) :=
  c.delay ++ [if r.downDrop then none else some (answer.float .delta)]

/-- The commands of the records are those of a run of the policy. -/
def Commanded (autoArm : Bool) (server : Server) : Prop :=
  ∃ history, server.1.state = Episode.stateAfter autoArm history ∧
    server.2.map Telem.ControlRecord.cmd = Episode.commands autoArm history

/-- The record of an executed frame tells the command. -/
theorem execute_cmd (core : Core) (f : Frame) :
    (core.execute f).record.cmd = (Episode.step core.state (core.inputs f)).requestedDelta := by
  obtain ⟨flags, number, status, hothers⟩ := applyAcks_others
    (Episode.step core.state (core.inputs f)).acks
    (recordOf (core.inputs f) f (Episode.step core.state (core.inputs f)))
  change (applyAcks _ _).2.cmd = _
  rw [hothers]
  unfold recordOf
  dsimp only
  split <;> rfl

/-- Executing a frame is one more cycle of the policy. -/
theorem Commanded.execute {autoArm : Bool} {server : Server} (h : Commanded autoArm server) (f : Frame) :
    Commanded autoArm (server.1.execute f, server.2 ++ [(server.1.execute f).record]) := by
  obtain ⟨history, hstate, hcommands⟩ := h
  refine ⟨history ++ [server.1.inputs f], ?_, ?_⟩
  · rw [Episode.stateAfter_concat, ← hstate]
    rfl
  · rw [List.map_append, List.map_singleton, execute_cmd, hcommands, Episode.commands_concat, ← hstate]

/-- The recorded commands pass. -/
theorem Commanded.passes {autoArm : Bool} {server : Server} (hlimits : OrderedLimits F64) (h : Commanded autoArm server) :
    ∀ x ∈ server.2.map Telem.ControlRecord.cmd, Passes x := by
  obtain ⟨history, -, hcommands⟩ := h
  rw [hcommands]
  exact (Episode.commands_pass hlimits autoArm history).1

/-- What exchanges keep: what is on its way to the actuator or has reached it was commanded. -/
structure Contained (autoArm : Bool) (y : Course × Server) : Prop where
  told : Commanded autoArm y.2
  delayed : ∀ x, some x ∈ y.1.delay → x ∈ y.2.2.map Telem.ControlRecord.cmd
  replied : ∀ a ∈ y.1.replies, a.float .delta ∈ y.2.2.map Telem.ControlRecord.cmd
  applied : ∀ row ∈ y.1.rows, row.applied = true → row.cmdApplied ∈ y.2.2.map Telem.ControlRecord.cmd

/-- A completed tick keeps the reply. -/
theorem complete_replies (c : Course) (r : Request) (answer : Wire.Fields) :
    (c.complete r answer).replies = c.replies ++ [answer] := by
  unfold Course.complete
  dsimp only
  repeat' split
  all_goals rfl

omit [Arith F64] in
/-- What is first in line waits. -/
theorem Course.mem_waiting {c : Course} {r : Request} {answer : Wire.Fields} {x : F64}
    (h : (c.waiting r answer).headD none = some x) : some x ∈ c.waiting r answer := by
  cases hwait : c.waiting r answer with
  | nil => rw [hwait] at h; nomatch h
  | cons first rest => rw [hwait] at h; exact h ▸ List.mem_cons_self

/-- One more exchange. -/
theorem Contained.exchange (hlimits : OrderedLimits F64) {autoArm : Bool} {y y' : Course × Server}
    (h : Contained autoArm y) (hexchange : (protocol spec).exchange y = some y') : Contained autoArm y' := by
  obtain ⟨c, r, f, hx⟩ := exchanged hexchange
  obtain ⟨-, -, -, hdelay, -, -, hrows, -⟩ := complete_fields c r (Wire.actuatorDict
    (replyFields (y.2.1.inputs f) y.2.1.cycle f (Episode.step y.2.1.state (y.2.1.inputs f))))
  have hreplies := complete_replies c r (Wire.actuatorDict
    (replyFields (y.2.1.inputs f) y.2.1.cycle f (Episode.step y.2.1.state (y.2.1.inputs f))))
  have hdelta : (Wire.actuatorDict (replyFields (y.2.1.inputs f) y.2.1.cycle f
      (Episode.step y.2.1.state (y.2.1.inputs f)))).float .delta = (y.2.1.execute f).record.cmd :=
    (execute_cmd y.2.1 f).symm
  have hclient := hx.client
  generalize Wire.actuatorDict (replyFields (y.2.1.inputs f) y.2.1.cycle f
    (Episode.step y.2.1.state (y.2.1.inputs f))) = answer at hclient hdelay hrows hreplies hdelta
  have hcourse := hx.requested.course
  have hcommands : y'.2.2.map Telem.ControlRecord.cmd =
      y.2.2.map Telem.ControlRecord.cmd ++ [(y.2.1.execute f).record.cmd] := by
    rw [hx.server, List.map_append]
    rfl
  have htold : Commanded autoArm y'.2 := by
    rw [hx.server]
    exact h.told.execute f
  -- What waits for the actuator in this tick was commanded in it or before.
  have hwaiting : ∀ x, some x ∈ c.waiting r answer → x ∈ y'.2.2.map Telem.ControlRecord.cmd := by
    intro x hx'
    rw [hcommands]
    rcases List.mem_append.mp hx' with hx' | hx'
    · have hkept : c.delay = y.1.delay := by rw [hcourse]
      exact List.mem_append_left _ (h.delayed x (hkept ▸ hx'))
    · have hlast := List.mem_singleton.mp hx'
      split at hlast
      · nomatch hlast
      · exact List.mem_append_right _ (List.mem_singleton.mpr ((Option.some.inj hlast).trans hdelta))
  refine ⟨htold, ?_, ?_, ?_⟩
  · rw [hclient, hdelay]
    exact fun x hx' => hwaiting x (List.mem_of_mem_tail hx')
  · have hkept : c.replies = y.1.replies := by rw [hcourse]
    rw [hclient, hreplies, hcommands, hkept]
    intro a hmem
    rcases List.mem_append.mp hmem with hmem | hmem
    · exact List.mem_append_left _ (h.replied a hmem)
    · obtain rfl := List.mem_singleton.mp hmem
      exact List.mem_append_right _ (List.mem_singleton.mpr hdelta)
  · have hkept : c.rows = y.1.rows := by rw [hcourse]
    rw [hclient, hrows, hkept]
    intro row hmem happlied
    rcases List.mem_append.mp hmem with hmem | hmem
    · rw [hcommands]
      exact List.mem_append_left _ (h.applied row hmem happlied)
    · obtain rfl := List.mem_singleton.mp hmem
      obtain ⟨x, hfirst⟩ := Option.isSome_iff_exists.mp happlied
      have hfirst : (c.waiting r answer).headD none = some x := hfirst
      have hcommanded := hwaiting x (Course.mem_waiting hfirst)
      change (Actuator.step c.act ((c.waiting r answer).headD none)).applied ∈ _
      rw [hfirst, step_of_passes (htold.passes hlimits x hcommanded)]
      exact hcommanded

/-- What undisturbed exchanges keep. -/
theorem contained_sync (hlimits : OrderedLimits F64) {n : ℕ} {y : Course × Server}
    (h : (protocol spec).sync (start spec seed delayTicks) n = some y) : Contained spec.autoArm y := by
  refine sync_induction (P := fun _ => Contained spec.autoArm) ?_ (fun h hexchange => h.exchange hlimits hexchange) h
  exact ⟨⟨[], rfl, rfl⟩, fun x hx => absurd (List.eq_of_mem_replicate hx) (Option.some_ne_none x),
    fun a ha => absurd ha List.not_mem_nil, fun row hrow => absurd hrow List.not_mem_nil⟩

/-- A request that is under way has only drawn and numbered. -/
theorem Follows.keeps {client : Course} {sim : Sim} (h : Follows spec client sim) {α : Type} (keep : Course → α)
    (hkeep : ∀ streamUp streamDown draws commandSeq,
      keep { client with streamUp, streamDown, draws, commandSeq } = keep client) :
    keep sim.course = keep client := by
  have hrequest {r : Request} (hr : client.request spec = .ok (sim.course, r)) : keep sim.course = keep client := by
    rw [(requested hr).course]
    exact hkeep _ _ _ _
  unfold Follows at h
  split at h
  · rw [h]
  · rw [h]
  · exact hrequest h.2
  · exact hrequest h.2
  · rcases h with h | ⟨r, hr⟩
    · rw [h]
    · exact hrequest hr

variable {p : Pair} {client : Course} {server : Server} {completed answered : ℕ} {requests : List Request}

/-- What the vehicle has recorded are the commands of a run of the policy. -/
theorem Tracks.told (hlimits : OrderedLimits F64)
    (h : Tracks spec seed delayTicks p client server completed answered requests) :
    ∃ history, p.vehicle.records.map Telem.ControlRecord.cmd = Episode.commands spec.autoArm history := by
  have hserver : Commanded spec.autoArm server := by
    by_cases hlevel : answered = completed
    · obtain ⟨s, hsync, hs⟩ := h.inStep.client
      obtain rfl := hs hlevel
      exact (contained_sync hlimits hsync).told
    · obtain ⟨-, data, hserved⟩ := h.inStep.server hlevel
      obtain ⟨y, r, f, hy, -, -, -, rfl, -⟩ := served_at hserved
      exact (contained_sync hlimits hy).told.execute f
  obtain ⟨history, -, hcommands⟩ := hserver
  have hreported := congrArg (List.map Reported.cmd) h.records
  rw [List.map_map, List.map_map] at hreported
  exact ⟨history, hreported.trans hcommands⟩

/-- What the simulator's course holds was commanded by the vehicle. -/
theorem Tracks.commanded (hlimits : OrderedLimits F64)
    (h : Tracks spec seed delayTicks p client server completed answered requests) :
    let commands := p.vehicle.records.map Telem.ControlRecord.cmd
    (∀ x, some x ∈ p.sim.course.delay → x ∈ commands) ∧
      (∀ a ∈ p.sim.course.replies, a.float .delta ∈ commands) ∧
      ∀ row ∈ p.sim.course.rows, row.applied = true → row.cmdApplied ∈ commands := by
  obtain ⟨s, hsync, -⟩ := h.inStep.client
  have hcontained := contained_sync hlimits hsync
  obtain ⟨rest, hrest⟩ := h.records_begin hsync
  have hcommands : p.vehicle.records.map Telem.ControlRecord.cmd =
      s.2.map Telem.ControlRecord.cmd ++ rest.map Reported.cmd := by
    have hreported := congrArg (List.map Reported.cmd) hrest
    rw [List.map_append, List.map_map, List.map_map] at hreported
    exact hreported
  have hcourse : p.sim.course.delay = client.delay ∧ p.sim.course.replies = client.replies ∧
      p.sim.course.rows = client.rows :=
    ⟨h.sim.keeps Course.delay fun _ _ _ _ => rfl, h.sim.keeps Course.replies fun _ _ _ _ => rfl,
      h.sim.keeps Course.rows fun _ _ _ _ => rfl⟩
  obtain ⟨hdelay, hreplies, hrows⟩ := hcourse
  intro commands
  rw [hdelay, hreplies, hrows]
  have hmem {x : F64} (hx : x ∈ s.2.map Telem.ControlRecord.cmd) : x ∈ commands := by
    change x ∈ p.vehicle.records.map Telem.ControlRecord.cmd
    rw [hcommands]
    exact List.mem_append_left _ hx
  exact ⟨fun x hx => hmem (hcontained.delayed x hx), fun a ha => hmem (hcontained.replied a ha),
    fun row hrow happlied => hmem (hcontained.applied row hrow happlied)⟩

/-- The actuator in lockstep applies each command that it is told, a recorded one, unaltered. -/
theorem reachable_unaltered (hlimits : OrderedLimits F64) (h : p.Reachable spec seed delayTicks) :
    let commands := p.vehicle.records.map Telem.ControlRecord.cmd
    (∃ history, commands = Episode.commands spec.autoArm history) ∧
      (∀ x ∈ commands, ∀ act, Actuator.step act (some x) = ⟨x⟩) ∧
      (∀ row ∈ p.sim.course.rows, row.applied = true → row.cmdApplied ∈ commands) ∧
      ∀ r attempt logged, p.sim.phase = .waiting r attempt logged → ∀ data ∈ p.downlink, ∀ answer,
        receiptOf r.tick p.sim.lastReply data = .answer answer → ∀ x,
          (p.sim.course.waiting r answer).headD none = some x →
            x ∈ commands ∧ (p.sim.course.complete r answer).act = ⟨x⟩ := by
  intro commands
  obtain ⟨client, server, completed, answered, requests, htracks⟩ := tracks_reachable h
  have htold : ∃ history, commands = Episode.commands spec.autoArm history := htracks.told hlimits
  have hpassing : ∀ x ∈ commands, Passes x := by
    obtain ⟨history, hcommands⟩ := htold
    rw [hcommands]
    exact (Episode.commands_pass hlimits spec.autoArm history).1
  obtain ⟨hdelay, -, hrows⟩ := htracks.commanded hlimits
  refine ⟨htold, fun x hx => step_of_passes (hpassing x hx), hrows, fun r attempt logged hphase data hdata answer hanswer x hx => ?_⟩
  -- The pair that has taken the reply is reachable too, and knows the reply.
  have hnext := h.tail (.reply hphase hdata)
  obtain ⟨client', server', completed', answered', requests', htracks'⟩ := tracks_reachable hnext
  obtain ⟨-, hreplies, -⟩ := htracks'.commanded hlimits
  have hcourse : (p.sim.receive r data).course = p.sim.course.complete r answer := by
    unfold Sim.receive
    rw [hanswer]
  have hreplied : answer.float .delta ∈ commands := by
    refine hreplies answer ?_
    rw [hcourse, complete_replies]
    exact List.mem_append_right _ List.mem_cons_self
  have hcommanded : x ∈ commands := by
    rcases List.mem_append.mp (Course.mem_waiting hx) with hwait | hwait
    · exact hdelay x hwait
    · have hlast := List.mem_singleton.mp hwait
      split at hlast
      · nomatch hlast
      · exact Option.some.inj hlast ▸ hreplied
  refine ⟨hcommanded, ?_⟩
  obtain ⟨-, -, -, -, hact, -⟩ := complete_fields p.sim.course r answer
  rw [hact]
  change Actuator.step p.sim.course.act ((p.sim.course.waiting r answer).headD none) = _
  rw [hx]
  exact step_of_passes (hpassing x hcommanded) _

end Lockstep

open Saturation (peak)

/-- Over exact rationals the controller, from its initial state, bounds its output and its integrator by the limit
and the rate that it keeps by the largest rate observed; the integrator waits while the output would exceed the limit
in the direction of the error, and is else the integral cut off at the limit. So the actuator alters no command of the
policy: not in a run of the headless reference, over the rationals or any doubles whose limits are ordered, and
not in lockstep, where what reaches it is a command that the vehicle has recorded. -/
theorem commands_unaltered :
    (∀ (observations : List (Observation ℚ)) (o : Observation ℚ),
      let s := Control.after observations
      let r := Control.step s o
      let integral := max (-0.12) (min 0.12 (s.iState + 7.68 * (1 / 500) * o.theta))
      let u := 3.277 * o.theta + integral + 0.309 * r.2.dPrev
      |r.1| ≤ 0.12 ∧ |r.2.iState| ≤ 0.12 ∧
        r.2.dPrev = s.dPrev + 1 / 3 * (o.omega - s.dPrev) ∧
        |r.2.dPrev| ≤ ((observations ++ [o]).map fun observation => |observation.omega|).foldl max 0 ∧
        if 0.12 < u ∧ 0 < o.theta ∨ u < -0.12 ∧ o.theta < 0 then r.2.iState = s.iState else r.2.iState = integral) ∧
    (OrderedLimits ℚ ∧ @OrderedLimits F64 ieee) ∧
    (∀ (F : Type) [Arith F] [Classify F], OrderedLimits F →
      ∀ (spec : Scenario F) (seed : U64) (delayTicks : Fin 2), ∀ row ∈ Headless.rows spec seed delayTicks,
        (∀ act, Actuator.step act (some row.episode.requestedDelta) = ⟨row.episode.requestedDelta⟩) ∧
          ∀ x ∈ row.arriving, row.actuator = ⟨x⟩ ∧
            ∃ commanded ∈ Headless.rows spec seed delayTicks, commanded.episode.requestedDelta = x) ∧
    ∀ [Arith F64], OrderedLimits F64 →
      ∀ (spec : Scenario F64) (seed : U64) (delayTicks : Fin 2) (p : Lockstep.Pair),
        p.Reachable spec seed delayTicks →
          let commands := p.vehicle.records.map Telem.ControlRecord.cmd
          (∃ history, commands = Episode.commands spec.autoArm history) ∧
            (∀ x ∈ commands, ∀ act, Actuator.step act (some x) = ⟨x⟩) ∧
            (∀ row ∈ p.sim.course.rows, row.applied = true → row.cmdApplied ∈ commands) ∧
            ∀ r attempt logged, p.sim.phase = .waiting r attempt logged → ∀ data ∈ p.downlink, ∀ answer,
              Lockstep.receiptOf r.tick p.sim.lastReply data = .answer answer → ∀ x,
                (p.sim.course.waiting r answer).headD none = some x →
                  x ∈ commands ∧ (p.sim.course.complete r answer).act = ⟨x⟩ := by
  refine ⟨fun observations o => ?_, ⟨orderedLimits_rat, orderedLimits_ieee⟩, ?_, ?_⟩
  · intro s r integral u
    have hstep := Control.step_rat s o
    have hpeak := Saturation.abs_smoothed_le (show (0 : ℚ) ≤ 1 / 3 by norm_num) (by norm_num)
      ((observations ++ [o]).map Observation.omega)
    have hnext := Control.after_concat observations o
    have hlimit := Control.after_iState (observations ++ [o])
    have hrate := Control.after_dPrev (observations ++ [o])
    rw [← hrate, hnext, peak, List.foldl_map] at hpeak
    rw [hnext] at hlimit
    refine ⟨?_, hlimit, ?_, ?_, ?_⟩
    · change |(Control.step s o).1| ≤ 0.12
      rw [hstep]
      exact Saturation.abs_saturate_le (by norm_num) _
    · change (Control.step s o).2.dPrev = _
      rw [hstep]
      rfl
    · rw [List.foldl_map]
      exact hpeak
    · have hu : u = Control.unsaturated s o := by
        change 3.277 * o.theta + integral + 0.309 * (Control.step s o).2.dPrev = _
        rw [hstep]
        rfl
      change if 0.12 < u ∧ 0 < o.theta ∨ u < -0.12 ∧ o.theta < 0 then (Control.step s o).2.iState = s.iState
        else (Control.step s o).2.iState = integral
      rw [hu, hstep]
      dsimp only
      split
      · rename_i hwinding
        exact if_pos hwinding
      · rename_i hgoing
        exact if_neg hgoing
  · intro F _ _ hlimits spec seed delayTicks row hrow
    have hcontained := Headless.contained_upTo hlimits spec seed delayTicks spec.ticks
    exact ⟨step_of_passes (hcontained.passing row hrow), hcontained.applied row hrow⟩
  · intro _ hlimits spec seed delayTicks p hreachable
    exact Lockstep.reachable_unaltered hlimits hreachable

end Tvc
