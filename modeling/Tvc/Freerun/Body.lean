import Tvc.Admission.Model
import Tvc.Lockstep.Session

/-!
# The scheduled cycles of `src/freerun.cpp`

In free run the vehicle wakes at fixed deadlines. A body drains the socket into the admission, runs
the policy once on the sample it admits, sends the command and records the cycle. What the outside
does in a body, the clock readings and the outcomes of the calls to the system, is an event.

Clock readings are integers; a record and a reply hold their 64-bit patterns. The histograms of the
measurements are the lists of what is recorded in them. `run` takes no first frame whose tick is above
`UINT64_MAX - total`, so the ticks of the cycles are natural numbers that do not wrap.
-/

namespace Tvc.Freerun

open Telem (ControlRecord)
open Lockstep (rungOf replyFrame)

/-- `kPeriodNs`. -/
def kPeriodNs : ℤ := 2000000

/-- `kBatchSize`. -/
def kBatchSize : ℕ := 8

def EINTR : ℕ := 4
def EAGAIN : ℕ := 11
def EWOULDBLOCK : ℕ := EAGAIN
def ECONNREFUSED : ℕ := 111

/-- `Config`, as far as the scheduled cycles read it; `parse` accepts no greater skew. -/
structure Config where
  autoArm : Bool := false
  cycles : ℕ := 300000
  warmup : ℕ := 5000
  skewMax : ℕ := 4
  skew_le : skewMax ≤ Admission.kMaxSkew := by decide

/-- The skew of an option that is not given is allowed. -/
theorem skew_default : 4 ≤ Admission.kMaxSkew := by decide

/-- The number of scheduled cycles. -/
def Config.total (cfg : Config) : ℕ := cfg.cycles + cfg.warmup

/-- `Batch`: what one receive call returns. -/
structure Batch where
  datagrams : List Datagram
  fits : datagrams.length ≤ kBatchSize

/-- A batch may be empty. -/
theorem batch_empty : ([] : List Datagram).length ≤ kBatchSize := by decide

/-- What the outside does in one body. -/
structure BodyEvent where
  sleepError : ℕ := 0
  wokeNs : ℤ
  rxNs : ℤ
  policyStartedNs : ℤ
  terminatedNs : ℤ
  beforeSendNs : ℤ
  txNs : ℤ
  doneNs : ℤ
  received : Except ℕ Batch
  stop : Bool
  sent : Bool
  pushed : Bool

/-- `Window`. -/
structure Window where
  ladder : ℕ → ℕ := fun _ => 0
  sent : ℕ := 0
  failed : ℕ := 0
  served : ℕ := 0

/-- `Window::record`. -/
def Window.record (w : Window) (rung : ℕ) (terminal success fresh : Bool) : Window where
  ladder := Function.update w.ladder rung (w.ladder rung + 1)
  sent := w.sent + (!terminal && success).toNat
  failed := w.failed + (!terminal && !success).toNat
  served := w.served + (fresh && success).toNat

/-- `Runtime`. -/
structure Runtime where
  admission : Admission
  episodeWindow : Window := {}
  recordedWindow : Window := {}
  served : List (U64 × U64) := []
  discarded : List (U64 × U64) := []
  uplinkWait : List (U64 × U64) := []
  compute : List (U64 × U64) := []
  state : EpisodeState F64
  tickBase : ℕ
  cycles : ℕ := 0
  receiveBatches : ℕ := 0
  pidCalls : ℕ := 0
  pushed : ℕ := 0
  terminalCycle : ℕ := 0
  normalSent : ℕ := 0
  normalFailed : ℕ := 0
  termAttempts : ℕ := 0
  termSent : ℕ := 0
  termFailed : ℕ := 0
  receiveErrors : ℕ := 0
  peerRefused : ℕ := 0
  terminalReceivedRecorded : ℕ := 0
  firstTerminalTxOk : Bool := false
  origin : ℤ
  termFirst : ℤ := 0
  termLast : ℤ := 0
  terminationNs : ℤ := 0
  terminationBeforeNs : ℤ := 0
  simSeen : Option U32 := none
  failure : Reason := .none
  receiveErrno : ℕ := 0
  sleepError : ℕ := 0
  reply : Bytes := List.replicate (Telem.kFrameOverhead + Telem.kActuatorV1PayloadBytes) 0

/-- The loop of `run_freerun`: the runtime, the loop statistics, and the records presented to the
ring, with the ring's count of those it could not take. -/
structure Loop where
  r : Runtime
  n : ℕ := 0
  previousWoke : ℤ := 0
  running : Bool := true
  records : List ControlRecord := []
  drops : ℕ := 0
  wakeups : List (ℤ × ℤ × ℤ) := []
  missed : ℕ := 0

/-! ## One body -/

/-- The calls that a body makes of the admission. -/
def cycleCalls (tick : ℕ) (datagrams : List Datagram) : List Admission.Call :=
  .beginCycle tick :: datagrams.map .receive ++ [.finishCycle]

/-- The datagrams of a receive call. -/
def batchOf (e : BodyEvent) : List Datagram :=
  match e.received with
  | .error _ => []
  | .ok batch => batch.datagrams

/-- The datagrams of a body: the carried first frame comes before the first batch. -/
def datagramsOf (n : ℕ) (carry : Datagram) (e : BodyEvent) : List Datagram :=
  (if n = 0 then [carry] else []) ++ batchOf e

/-- The receive call's errors. -/
def Runtime.noteReceive (r : Runtime) (e : BodyEvent) : Runtime :=
  let r := { r with receiveBatches := r.receiveBatches + 1 }
  match e.received with
  | .ok _ => r
  | .error errno =>
    if errno != EAGAIN && errno != EWOULDBLOCK then
      { r with
        receiveErrors := r.receiveErrors + 1
        receiveErrno := errno
        peerRefused := r.peerRefused + (errno == ECONNREFUSED).toNat }
    else r

/-- The inputs of the policy for an admitted cycle. -/
def inputsOf (cfg : Config) (tick n : ℕ) (admission : Admission) (simSeen : Option U32) (stop : Bool) :
    EpisodeInput F64 where
  tick
  held := admission.held.map fun sample => ⟨sample.tick, sample.theta, sample.omega, true⟩
  fresh := admission.cycle.fresh.isSome
  staleness := admission.cycle.staleness
  command := none
  horizonReached := n + 1 == cfg.total
  simReason := simSeen.map BitVec.toNat
  stopReason := if stop then some .signal else none

variable [Arith F64]

/-- The record of a cycle before its command is sent. -/
def recordOf (inputs : EpisodeInput F64) (admission : Admission) (e : BodyEvent) (deadline : ℤ)
    (result : EpisodeOutput F64) : ControlRecord :=
  let admitted := admission.cycle
  let rung := rungOf admitted.staleness inputs.fresh
  { tick := BitVec.ofNat 64 inputs.tick
    deadlineNs := BitVec.ofInt 64 deadline
    wokeNs := BitVec.ofInt 64 e.wokeNs
    rxNs := BitVec.ofInt 64 e.rxNs
    sensorTick := inputs.held.elim (BitVec.allOnes 64) fun held => BitVec.ofNat 64 held.tick
    sensorSendNs := admission.held.elim 0 Sample.sendNs
    theta := inputs.held.elim ⟨0⟩ Observation.theta
    omega := inputs.held.elim ⟨0⟩ Observation.omega
    cmd := result.requestedDelta
    iState := result.state.pid.iState
    dPrev := result.state.pid.dPrev
    staleness := BitVec.ofNat 32 admitted.staleness
    rxCount := BitVec.ofNat 8 admitted.rxCount
    discardedOld := BitVec.ofNat 8 admitted.counts.old
    discardedSuperseded := BitVec.ofNat 8 admitted.counts.superseded
    discardedOther := BitVec.ofNat 8 (admitted.counts.nonfinite + admitted.counts.skewExcess)
    state := BitVec.ofNat 8 result.state.mode.toNat
    reason :=
      if result.state.mode == .terminated then
        BitVec.ofNat 8 ((result.state.terminal.map TerminalResult.reason).getD .none).toNat
      else 0
    flags := (if inputs.fresh then 1 else 0) ||| (if rung == 1 then 8 else 0) |||
      (if rung == 2 then 16 else 0) ||| (if (batchOf e).length == kBatchSize then 32 else 0) |||
      (if admitted.counts.nonfinite != 0 then 128 else 0) }

/-- The reply of a cycle. -/
def replyOf (inputs : EpisodeInput F64) (n : ℕ) (record : ControlRecord) (e : BodyEvent) : Bytes :=
  replyFrame n
    { tick := record.tick
      vehTick := BitVec.ofNat 64 n
      tSensorSendNs := record.sensorSendNs
      tVehSendNs := BitVec.ofInt 64 e.beforeSendNs
      delta := record.cmd
      status := record.state.setWidth 32 ||| (record.reason.setWidth 32 <<< 8) |||
        (BitVec.ofNat 32 (rungOf inputs.staleness inputs.fresh) <<< 16)
      staleness := record.staleness }

/-- A record after its command was sent or not. -/
def sentRecord (record : ControlRecord) (e : BodyEvent) (drops : ℕ) : ControlRecord :=
  { record with
    txNs := BitVec.ofInt 64 e.txNs
    flags := if e.sent then record.flags ||| 2 else record.flags
    doneNs := BitVec.ofInt 64 e.doneNs
    drops := BitVec.ofNat 64 drops }

omit [Arith F64] in
/-- The counters of what was sent. -/
def Runtime.noteSend (r : Runtime) (terminal : Bool) (e : BodyEvent) : Runtime :=
  if terminal then
    { r with
      firstTerminalTxOk := e.sent
      terminalCycle := 1
      termAttempts := 1
      termFirst := e.beforeSendNs
      termLast := e.txNs
      termSent := r.termSent + e.sent.toNat
      termFailed := r.termFailed + (!e.sent).toNat }
  else
    { r with
      normalSent := r.normalSent + e.sent.toNat
      normalFailed := r.normalFailed + (!e.sent).toNat }

omit [Arith F64] in
/-- The measurements of a cycle, over the run and over its recorded part. -/
def Runtime.measure (r : Runtime) (recorded : Bool) (rung : ℕ) (terminal : Bool) (record : ControlRecord)
    (e : BodyEvent) : Runtime :=
  let admitted := r.admission.cycle
  let r := { r with episodeWindow := r.episodeWindow.record rung terminal e.sent admitted.fresh.isSome }
  if recorded then
    let r := { r with recordedWindow := r.recordedWindow.record rung terminal e.sent admitted.fresh.isSome }
    let r :=
      if record.flags &&& 3 == 3 then
        { r with
          served := r.served ++ [(record.sensorSendNs, record.txNs)]
          uplinkWait := r.uplinkWait ++ [(record.sensorSendNs, record.rxNs)]
          compute := r.compute ++ [(record.rxNs, record.txNs)] }
      else r
    { r with discarded := r.discarded ++ admitted.discards.map fun d => (d.sendNs, BitVec.ofInt 64 e.rxNs) }
  else r

/-- One body of `run_freerun`, if the schedule is not over. -/
def Loop.body (cfg : Config) (carry : Datagram) (x : Loop) (e : BodyEvent) : Loop :=
  if !x.running || cfg.total ≤ x.n then x
  else
    let deadline := x.r.origin + x.n * kPeriodNs
    let r := { x.r with sleepError := e.sleepError }
    if e.sleepError != 0 && e.sleepError != EINTR then
      { x with r := { r with failure := .internal }, running := false }
    else
      let r := r.noteReceive e
      let tick := r.tickBase + x.n
      let recorded := decide (cfg.warmup ≤ x.n)
      let admission := (Machine.run Admission.call r.admission (cycleCalls tick (datagramsOf x.n carry e))).1
      let simSeen := (admission.cycle.terminal.map Terminal.reason).or r.simSeen
      let inputs := inputsOf cfg tick x.n admission simSeen e.stop
      let result := Episode.step r.state inputs
      let terminal := result.state.mode == .terminated
      let rung := rungOf admission.cycle.staleness inputs.fresh
      let record := recordOf inputs admission e deadline result
      let r :=
        { r with
          admission
          terminalReceivedRecorded := r.terminalReceivedRecorded +
            if recorded then admission.terminalCounts.receivedRaw - r.admission.terminalCounts.receivedRaw else 0
          simSeen
          state := result.state
          cycles := r.cycles + 1
          pidCalls := r.pidCalls + (inputs.fresh && result.state.mode == Mode.flying).toNat
          terminationBeforeNs := if terminal then e.policyStartedNs else r.terminationBeforeNs
          terminationNs := if terminal then e.terminatedNs else r.terminationNs
          reply := replyOf inputs x.n record e }
      let record := sentRecord record e x.drops
      let r := (r.noteSend terminal e).measure recorded rung terminal record e
      { r := { r with pushed := r.pushed + e.pushed.toNat }
        n := x.n + 1
        previousWoke := e.wokeNs
        running := !terminal
        records := x.records ++ [record]
        drops := x.drops + (!e.pushed).toNat
        wakeups :=
          if recorded then
            x.wakeups ++
              [(e.wokeNs - deadline, if x.previousWoke != 0 then e.wokeNs - x.previousWoke - kPeriodNs else 0,
                e.doneNs - e.wokeNs)]
          else x.wakeups
        missed := x.missed + (recorded && decide (deadline + kPeriodNs < e.doneNs)).toNat }

/-- The loop as it starts, at the first frame's tick and the chosen origin. -/
def Loop.initial (cfg : Config) (tickBase : ℕ) (origin : ℤ) : Loop where
  r :=
    { admission := .initial tickBase cfg.skewMax cfg.warmup
      state := Episode.initial cfg.autoArm
      tickBase
      origin }

/-- `run_freerun` over what the outside does. -/
def Loop.run (cfg : Config) (tickBase : ℕ) (origin : ℤ) (carry : Datagram) (events : List BodyEvent) : Loop :=
  events.foldl (Loop.body cfg carry) (Loop.initial cfg tickBase origin)

end Tvc.Freerun
