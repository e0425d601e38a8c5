import Tvc.Freerun.Cycles
import Tvc.Recorder.Complete

/-!
# The free-run process

`run` of `src/freerun.cpp` around the scheduled cycles: it opens the recording and the ground link, takes
the first frame as the origin, runs the cycles, repeats the terminal reply, joins the drain, writes the
summary and returns an exit code. What the outside does is given, with every read of the stop flag: each
body and each copy has its event, and the loops take those they need.

A run is one that can happen: its drain was joined, the ring answered each record as the recorder says, and
the stop flag stays set once it was found set. A drain without a thread leaves its file to `run`.
-/

namespace Tvc.Freerun

open Telem (encodeRecordingHeader kControlV1SchemaHash)

/-- `Config`, with what `run` reads around the scheduled cycles. -/
structure RunConfig extends Config where
  phaseUs : ℤ := 400
  terminalCopies : ℕ := 12
  groundRequested : Bool := false

/-- What the outside does in one pass of `resend_terminal`. -/
structure CopyEvent where
  stop : Bool
  sleepError : ℕ
  sent : Bool
  sentNs : ℤ

/-- The counters of one more copy of the terminal reply. -/
def Runtime.noteCopy (r : Runtime) (e : CopyEvent) : Runtime :=
  { r with
    termAttempts := r.termAttempts + 1
    termLast := e.sentNs
    termSent := r.termSent + e.sent.toNat
    termFailed := r.termFailed + (!e.sent).toNat }

/-- `resend_terminal`, from a copy on with as many left as given. -/
def resendTerminal (copies : ℕ → CopyEvent) : ℕ → ℕ → Runtime → Runtime
  | 0, _, r => r
  | left + 1, copy, r =>
    if (copies copy).stop || (copies copy).sleepError != 0 then r
    else resendTerminal copies left (copy + 1) (r.noteCopy (copies copy))

/-- The stop flag was found set in `resend_terminal`. -/
def resendStopped (copies : ℕ → CopyEvent) : ℕ → ℕ → Bool
  | 0, _ => false
  | left + 1, copy =>
    if (copies copy).stop then true
    else if (copies copy).sleepError != 0 then false
    else resendStopped copies left (copy + 1)

/-- The origin of a run: the first frame with its tick, and the time of the first cycle. -/
structure Origin where
  carry : Datagram
  tickBase : ℕ
  origin : ℤ

/-- The origin that a first frame sets. -/
def originOf (cfg : RunConfig) (received : Except ℕ Datagram) (connected : Bool) (arrival : ℤ) : Option Origin :=
  match received with
  | .error _ => none
  | .ok carry =>
    match carry.frame with
    | .error _ => none
    | .ok f => if connected then some ⟨carry, f.tick, arrival + cfg.phaseUs * 1000⟩ else none

/-- `INT64_MAX`. -/
def INT64_MAX : ℤ := 2 ^ 63 - 1

/-- `UINT64_MAX`. -/
def UINT64_MAX : ℕ := 2 ^ 64 - 1

/-- The ticks and the deadlines of all cycles fit. The total is far below `UINT64_MAX`, from which the source
subtracts it. -/
def Origin.fits (o : Origin) (cfg : RunConfig) : Bool :=
  decide (o.tickBase + cfg.total ≤ UINT64_MAX) &&
    decide (cfg.total + cfg.terminalCopies ≤ ((INT64_MAX - o.origin) / kPeriodNs).toNat)

/-- What the outside does to a process whose recording is open. -/
structure Environment (w : ℕ) (β : Type) where
  monoNs : U64
  epochNs : U64
  linked : Bool
  memoryOk : Bool
  cpuOk : Bool
  fifoOk : Bool
  received : Except ℕ Datagram
  connected : Bool
  arrival : ℤ
  bodies : ℕ → BodyEvent
  copies : ℕ → CopyEvent
  stop : Bool
  slots : Fin SpscRing.kSlots → SpscRing.Words w β
  moves : List Recorder.Move
  closed : Bool
  wrote : Bool
  csvs : Bool
  stopAtExit : Bool

/-- The scheduled cycles that run the policy, with their events. -/
def Loop.executed [Arith F64] (cfg : Config) (carry : Datagram) : Loop → List BodyEvent → List BodyEvent
  | _, [] => []
  | x, e :: rest => (if x.Runs cfg e then [e] else []) ++ executed cfg carry (x.body cfg carry e) rest

namespace Environment

variable {w : ℕ} {β : Type}

/-- The drain was started. -/
def started (env : Environment w β) (cfg : RunConfig) : Bool := !cfg.groundRequested || env.linked

/-- `rt_ok`. -/
def rtOk (env : Environment w β) (cfg : RunConfig) : Bool :=
  env.started cfg && env.memoryOk && env.cpuOk && env.fifoOk

/-- The origin that the first frame sets. -/
def firstOrigin (env : Environment w β) (cfg : RunConfig) : Option Origin :=
  if env.rtOk cfg then originOf cfg env.received env.connected env.arrival else none

/-- The origin, if `run` acquires one. -/
def origin (env : Environment w β) (cfg : RunConfig) : Option Origin :=
  (env.firstOrigin cfg).filter fun o => o.fits cfg

/-- The events of the scheduled cycles. -/
def events (env : Environment w β) (cfg : RunConfig) : List BodyEvent := (List.range cfg.total).map env.bodies

variable [Arith F64]

/-- The loop of the scheduled cycles, run from an origin. -/
def loop (env : Environment w β) (cfg : RunConfig) (o : Origin) : Loop :=
  .run cfg.toConfig o.tickBase o.origin o.carry (env.events cfg)

/-- The events of the cycles that were run from an origin. -/
def executed (env : Environment w β) (cfg : RunConfig) (o : Origin) : List BodyEvent :=
  (Loop.initial cfg.toConfig o.tickBase o.origin).executed cfg.toConfig o.carry (env.events cfg)

/-- The runtime that the summary tells of. -/
def runtime (env : Environment w β) (cfg : RunConfig) : Runtime :=
  match env.origin cfg with
  | none =>
    { admission := .initial 0 4 0
      state := Episode.initial cfg.autoArm
      tickBase := (env.firstOrigin cfg).elim 0 Origin.tickBase
      origin := (env.firstOrigin cfg).elim 0 Origin.origin
      receiveErrno :=
        match env.received with
        | .error errno => if env.rtOk cfg then errno else 0
        | .ok _ => 0
      failure := if !env.rtOk cfg then .internal else if env.stop then .signal else .peerLost }
  | some o =>
    let r := (env.loop cfg o).r
    if r.terminalCycle != 0 then resendTerminal env.copies (cfg.terminalCopies - 1) 1 r else r

/-- The records presented to the ring. -/
def records (env : Environment w β) (cfg : RunConfig) : List Telem.ControlRecord :=
  ((env.origin cfg).map fun o => (env.loop cfg o).records).getD []

/-- What `try_push` returned. -/
def pushed (env : Environment w β) (cfg : RunConfig) : List Bool :=
  ((env.origin cfg).map fun o => (env.executed cfg o).map BodyEvent.pushed).getD []

/-- The records that the ring could not take. -/
def drops (env : Environment w β) (cfg : RunConfig) : ℕ :=
  ((env.origin cfg).map fun o => (env.loop cfg o).drops).getD 0

/-- The stop flag was found set before the summary. -/
def stopSeen (env : Environment w β) (cfg : RunConfig) : Bool :=
  match env.origin cfg with
  | none => env.stop
  | some o =>
    (env.executed cfg o).any BodyEvent.stop ||
      ((env.loop cfg o).r.terminalCycle != 0 && resendStopped env.copies (cfg.terminalCopies - 1) 1)

/-- The recorder once the process has joined it. -/
def recorder [Inhabited β] (env : Environment w β) (image : Recorder.Image w β) (cfg : RunConfig) :
    Recorder.System w β :=
  Recorder.run image
    (Recorder.initial env.slots (encodeRecordingHeader env.monoNs env.epochNs kControlV1SchemaHash)
      cfg.groundRequested (env.records cfg)) env.moves

end Environment

/-- `reason` of the summary. -/
def Runtime.reason (r : Runtime) : Reason :=
  if r.failure != .none then r.failure else (r.state.terminal.map TerminalResult.reason).getD .internal

/-- `reason_tick` of the summary. -/
def Runtime.reasonTick (r : Runtime) : ℕ := (r.state.terminal.map TerminalResult.tick).getD r.tickBase

variable [Arith F64]

/-- What a run can come to: a failure before the drain is started, or what follows. -/
inductive Run {w : ℕ} {β : Type} [Inhabited β] (image : Recorder.Image w β) (cfg : RunConfig)
  | noSocket
  | noFile
  | noHeader
  | served (env : Environment w β)
      (joined : env.started cfg = true → (env.recorder image cfg).drain.phase = .finished)
      (answered : env.started cfg = true → (env.recorder image cfg).answers = env.pushed cfg)
      (stays : env.stopSeen cfg = true → env.stopAtExit = true)

/-- The exit code of `run`. -/
def Run.exitCode {w : ℕ} {β : Type} [Inhabited β] {image : Recorder.Image w β} {cfg : RunConfig} :
    Run image cfg → ℕ
  | .noSocket => 2
  | .noFile => 4
  | .noHeader => 4
  | .served env .. =>
    let r := env.runtime cfg
    if !env.wrote || !env.csvs || (env.started cfg && (env.recorder image cfg).drain.writeFailed) ||
        (!env.started cfg && !env.closed) || env.drops cfg != 0 then 4
    else if env.stopAtExit then 3
    else if !env.rtOk cfg then 2
    else if r.admission.integrity || !r.admission.identitiesHold then 6
    else if (env.origin cfg).isNone || r.failure != .none || r.termSent == 0 then 5
    else 0

end Tvc.Freerun
