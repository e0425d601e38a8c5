import Tvc.Episode.Chronicle
import Tvc.Lockstep.Counters
import Tvc.Recorder.Complete

/-!
# The lockstep process

`run` of `src/lockstep.cpp` around the session: it opens the socket and the recording, receives until a
reason ends the loop, joins the drain, writes the summary and returns an exit code. What the outside does
is given: the passes of the loop with every read of the stop flag, the interleaving of the two threads of
the recorder, and the outcomes of the calls before and after the loop.

A run is one that can happen: its loop has ended and its drain was joined, the ring answered each record
as the recorder says, and the stop flag stays set once it was found set.
-/

namespace Tvc.Lockstep

open Telem (encodeRecordingHeader kControlV1SchemaHash)

/-- `EINTR`. -/
def EINTR : ℕ := 4

/-- What one pass of the loop meets: a datagram and the answer to connecting to its source, a receive that
fails and the reads of the stop flag behind it, or the flag found set before receiving. -/
inductive Pass
  | received (e : Event) (connected : Except ℕ Unit)
  | failed (errno : ℕ) (interrupted stop : Bool)
  | stopped

/-- The process in its loop. `pushed` is what `try_push` returned, and `stopSeen` that the stop flag was
found set. -/
structure Process where
  vehicle : Vehicle
  connected : Bool := false
  receiveErrno : ℕ := 0
  stopSeen : Bool := false
  pushed : List Bool := []

variable [Arith F64]

/-- What `try_push` returns in a turn. -/
def Vehicle.answer (v : Vehicle) (e : Event) : List Bool :=
  if v.running && (v.session.receive e.datagram).2 == .new then [e.pushed] else []

namespace Process

/-- The process before its loop. -/
def initial (autoArm : Bool) : Process := { vehicle := .initial autoArm }

/-- One pass of the loop, while it runs. -/
def pass (p : Process) (x : Pass) : Process :=
  if !p.vehicle.running then p
  else
    match x with
    | .stopped => { p with vehicle.running := false, stopSeen := true }
    | .failed errno interrupted stop =>
      let p := { p with receiveErrno := errno }
      if errno == EINTR && !interrupted then p
      else
        { p with
          vehicle := p.vehicle.stop (if stop then .signal else .peerLost)
          stopSeen := p.stopSeen || errno == EINTR || stop }
    | .received e answer =>
      match p.connected, answer with
      | false, .error errno => { p with receiveErrno := errno, vehicle := p.vehicle.stop .peerLost }
      | _, _ => { p with connected := true, pushed := p.pushed ++ p.vehicle.answer e, vehicle := p.vehicle.step e }

/-- The loop over its passes. -/
def run (autoArm : Bool) (passes : List Pass) : Process := passes.foldl pass (initial autoArm)

omit [Arith F64] in
/-- The session after the loop. -/
def conclude (p : Process) (stop rtOk : Bool) : Session :=
  let session := if stop then p.vehicle.session.stop .signal else p.vehicle.session
  if rtOk then session else session.stop .internal

end Process

/-- What the outside does to a process whose recording is open. -/
structure Environment (w : ℕ) (β : Type) where
  memoryOk : Bool
  cpuOk : Bool
  fifoOk : Bool
  passes : List Pass
  stop : Bool
  slots : Fin SpscRing.kSlots → SpscRing.Words w β
  moves : List Recorder.Move
  wrote : Bool
  stopAtExit : Bool

namespace Environment

variable {w : ℕ} {β : Type}

/-- `rt_ok`. -/
def rtOk (env : Environment w β) : Bool := env.memoryOk && env.cpuOk && env.fifoOk

/-- The process after its loop, which runs only with `rt_ok`. -/
def process (env : Environment w β) (autoArm : Bool) : Process := .run autoArm (if env.rtOk then env.passes else [])

/-- The session that the summary tells of. -/
def session (env : Environment w β) (autoArm : Bool) : Session :=
  (env.process autoArm).conclude env.stop env.rtOk

/-- The recorder once the process has joined it. -/
def recorder [Inhabited β] (env : Environment w β) (image : Recorder.Image w β) (autoArm : Bool) :
    Recorder.System w β :=
  Recorder.run image
    (Recorder.initial env.slots (encodeRecordingHeader 0 0 kControlV1SchemaHash) false
      (env.process autoArm).vehicle.records) env.moves

end Environment

/-- What a run can come to: a failure before the loop, or the loop and what comes after it. -/
inductive Run {w : ℕ} {β : Type} [Inhabited β] (image : Recorder.Image w β) (autoArm : Bool)
  | noSocket
  | noFile
  | noHeader
  | served (env : Environment w β)
      (ended : env.rtOk = true → (env.process autoArm).vehicle.running = false)
      (joined : (env.recorder image autoArm).drain.phase = .finished)
      (answered : (env.recorder image autoArm).answers = (env.process autoArm).pushed)
      (stopped : (env.process autoArm).stopSeen = true → env.stop = true)
      (stays : env.stop = true → env.stopAtExit = true)

/-- The exit code of `run`. -/
def Run.exitCode {w : ℕ} {β : Type} [Inhabited β] {image : Recorder.Image w β} {autoArm : Bool} :
    Run image autoArm → ℕ
  | .noSocket => 2
  | .noFile => 4
  | .noHeader => 4
  | .served env .. =>
    let session := env.session autoArm
    if !env.wrote || (env.recorder image autoArm).drain.writeFailed then 4
    else if env.stopAtExit then 3
    else if !env.rtOk then 2
    else if session.integrity then 6
    else if session.reason == .peerLost || session.reason == .internal || session.reason == .none ||
        (env.process autoArm).vehicle.drops != 0 || session.down.originalTxFail != 0 then 5
    else 0

end Tvc.Lockstep
