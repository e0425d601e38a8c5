import Tvc.Freerun.Cycles

/-!
# The bookkeeping of a scheduled cycle

A body changes the runtime in stages, each with its branches. Here the branches are folded into the fields
they set, once, so that a count of a run is read off the body without walking through it again.
-/

namespace Tvc.Freerun

open Telem (ControlRecord)
open Lockstep (rungOf)

namespace Runtime

/-- Noting a receive call, field by field. -/
theorem noteReceive_eq (r : Runtime) (e : BodyEvent) :
    ∃ errors errno refused, r.noteReceive e =
      { r with
        receiveBatches := r.receiveBatches + 1
        receiveErrors := errors
        receiveErrno := errno
        peerRefused := refused } := by
  unfold noteReceive
  cases e.received with
  | ok batch => exact ⟨_, _, _, rfl⟩
  | error errno =>
    dsimp only
    split <;> exact ⟨_, _, _, rfl⟩

/-- Noting a send, field by field. -/
theorem noteSend_eq (r : Runtime) (terminal : Bool) (e : BodyEvent) :
    r.noteSend terminal e =
      { r with
        firstTerminalTxOk := if terminal then e.sent else r.firstTerminalTxOk
        terminalCycle := if terminal then 1 else r.terminalCycle
        termAttempts := if terminal then 1 else r.termAttempts
        termFirst := if terminal then e.beforeSendNs else r.termFirst
        termLast := if terminal then e.txNs else r.termLast
        termSent := r.termSent + (terminal && e.sent).toNat
        termFailed := r.termFailed + (terminal && !e.sent).toNat
        normalSent := r.normalSent + (!terminal && e.sent).toNat
        normalFailed := r.normalFailed + (!terminal && !e.sent).toNat } := by
  cases terminal <;> simp [noteSend]

/-- Measuring, field by field. -/
theorem measure_eq (r : Runtime) (recorded : Bool) (rung : ℕ) (terminal : Bool) (record : ControlRecord)
    (e : BodyEvent) :
    r.measure recorded rung terminal record e =
      { r with
        episodeWindow := r.episodeWindow.record rung terminal e.sent r.admission.cycle.fresh.isSome
        recordedWindow :=
          if recorded then r.recordedWindow.record rung terminal e.sent r.admission.cycle.fresh.isSome
          else r.recordedWindow
        served :=
          r.served ++ if recorded && record.flags &&& 3 == 3 then [(record.sensorSendNs, record.txNs)] else []
        uplinkWait :=
          r.uplinkWait ++ if recorded && record.flags &&& 3 == 3 then [(record.sensorSendNs, record.rxNs)] else []
        compute := r.compute ++ if recorded && record.flags &&& 3 == 3 then [(record.rxNs, record.txNs)] else []
        discarded :=
          r.discarded ++
            if recorded then r.admission.cycle.discards.map fun d => (d.sendNs, BitVec.ofInt 64 e.rxNs) else [] } := by
  unfold measure
  generalize (record.flags &&& 3 == 3) = served
  cases recorded <;> cases served <;> simp

end Runtime

namespace Loop

variable [Arith F64]

/-- The output of the policy in a body. -/
def output (cfg : Config) (carry : Datagram) (x : Loop) (e : BodyEvent) : EpisodeOutput F64 :=
  Episode.step x.r.state (x.input cfg carry e)

/-- The body ends the run. -/
def ends (cfg : Config) (carry : Datagram) (x : Loop) (e : BodyEvent) : Bool :=
  (x.output cfg carry e).state.mode == .terminated

/-- The record a body presents. -/
def record (cfg : Config) (carry : Datagram) (x : Loop) (e : BodyEvent) : ControlRecord :=
  sentRecord
    (recordOf (x.input cfg carry e) (x.admitted carry e) e (x.r.origin + x.n * kPeriodNs) (x.output cfg carry e)) e
    x.drops

/-- The state after a body that runs the policy, field by field, but for the receive call's errors. -/
def cycled (cfg : Config) (carry : Datagram) (x : Loop) (e : BodyEvent) (errors errno refused : ℕ) : Loop :=
  let admission := x.admitted carry e
  let terminal := x.ends cfg carry e
  let recorded := decide (cfg.warmup ≤ x.n)
  let fresh := admission.cycle.fresh.isSome
  let rung := rungOf admission.cycle.staleness fresh
  let record := x.record cfg carry e
  let served := recorded && record.flags &&& 3 == 3
  let deadline := x.r.origin + x.n * kPeriodNs
  { r :=
      { admission
        episodeWindow := x.r.episodeWindow.record rung terminal e.sent fresh
        recordedWindow :=
          if recorded then x.r.recordedWindow.record rung terminal e.sent fresh else x.r.recordedWindow
        served := x.r.served ++ if served then [(record.sensorSendNs, record.txNs)] else []
        discarded :=
          x.r.discarded ++
            if recorded then admission.cycle.discards.map fun d => (d.sendNs, BitVec.ofInt 64 e.rxNs) else []
        uplinkWait := x.r.uplinkWait ++ if served then [(record.sensorSendNs, record.rxNs)] else []
        compute := x.r.compute ++ if served then [(record.rxNs, record.txNs)] else []
        state := (x.output cfg carry e).state
        tickBase := x.r.tickBase
        cycles := x.r.cycles + 1
        receiveBatches := x.r.receiveBatches + 1
        pidCalls := x.r.pidCalls + (fresh && (x.output cfg carry e).state.mode == Mode.flying).toNat
        pushed := x.r.pushed + e.pushed.toNat
        terminalCycle := if terminal then 1 else x.r.terminalCycle
        normalSent := x.r.normalSent + (!terminal && e.sent).toNat
        normalFailed := x.r.normalFailed + (!terminal && !e.sent).toNat
        termAttempts := if terminal then 1 else x.r.termAttempts
        termSent := x.r.termSent + (terminal && e.sent).toNat
        termFailed := x.r.termFailed + (terminal && !e.sent).toNat
        receiveErrors := errors
        peerRefused := refused
        terminalReceivedRecorded := x.r.terminalReceivedRecorded +
          if recorded then admission.terminalCounts.receivedRaw - x.r.admission.terminalCounts.receivedRaw else 0
        firstTerminalTxOk := if terminal then e.sent else x.r.firstTerminalTxOk
        origin := x.r.origin
        termFirst := if terminal then e.beforeSendNs else x.r.termFirst
        termLast := if terminal then e.txNs else x.r.termLast
        terminationNs := if terminal then e.terminatedNs else x.r.terminationNs
        terminationBeforeNs := if terminal then e.policyStartedNs else x.r.terminationBeforeNs
        simSeen := (admission.cycle.terminal.map Terminal.reason).or x.r.simSeen
        failure := x.r.failure
        receiveErrno := errno
        sleepError := e.sleepError
        reply :=
          replyOf (x.input cfg carry e) x.n
            (recordOf (x.input cfg carry e) admission e deadline (x.output cfg carry e)) e }
    n := x.n + 1
    previousWoke := e.wokeNs
    running := !terminal
    records := x.records ++ [record]
    drops := x.drops + (!e.pushed).toNat
    wakeups :=
      x.wakeups ++
        if recorded then
          [(e.wokeNs - deadline, if x.previousWoke != 0 then e.wokeNs - x.previousWoke - kPeriodNs else 0,
            e.doneNs - e.wokeNs)]
        else []
    missed := x.missed + (recorded && decide (deadline + kPeriodNs < e.doneNs)).toNat }

/-- A body that runs the policy changes each field once. -/
theorem body_eq {cfg : Config} (carry : Datagram) {x : Loop} {e : BodyEvent} (h : x.Runs cfg e) :
    ∃ errors errno refused, x.body cfg carry e = x.cycled cfg carry e errors errno refused := by
  obtain ⟨hrunning, hn, hsleep⟩ := h
  have hgoes : (!x.running || decide (cfg.total ≤ x.n)) = false := by simp [hrunning, hn]
  have hslept : (e.sleepError != 0 && e.sleepError != EINTR) = false := by
    rcases hsleep with hsleep | hsleep <;> simp [hsleep]
  obtain ⟨errors, errno, refused, hnoted⟩ := Runtime.noteReceive_eq { x.r with sleepError := e.sleepError } e
  refine ⟨errors, errno, refused, ?_⟩
  unfold body
  rw [if_neg (by rw [hgoes]; decide)]
  dsimp only
  rw [if_neg (by rw [hslept]; decide), hnoted, Runtime.noteSend_eq, Runtime.measure_eq]
  dsimp only [cycled]
  cases decide (cfg.warmup ≤ x.n) with
  | false =>
    simp only [Bool.false_eq_true, if_false, Bool.false_and, List.append_nil]
    rfl
  | true =>
    simp only [if_true, Bool.true_and]
    rfl

/-- A sleep that fails ends the loop. -/
theorem body_of_failed {cfg : Config} (carry : Datagram) {x : Loop} {e : BodyEvent} (hrunning : x.running = true)
    (hn : x.n < cfg.total) (hsleep : ¬(e.sleepError = 0 ∨ e.sleepError = EINTR)) :
    x.body cfg carry e =
      { x with r := { x.r with sleepError := e.sleepError, failure := .internal }, running := false } := by
  have hgoes : (!x.running || decide (cfg.total ≤ x.n)) = false := by simp [hrunning, hn]
  have hslept : (e.sleepError != 0 && e.sleepError != EINTR) = true := by simpa using hsleep
  unfold body
  rw [if_neg (by rw [hgoes]; decide)]
  dsimp only
  rw [if_pos hslept]

/-- After the end of the loop a body does nothing. -/
theorem body_of_over {cfg : Config} (carry : Datagram) {x : Loop} {e : BodyEvent}
    (h : x.running = false ∨ cfg.total ≤ x.n) : x.body cfg carry e = x := by
  unfold body
  rw [if_pos (by rcases h with h | h <;> simp [h])]

end Loop

end Tvc.Freerun
