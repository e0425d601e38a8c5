import Tvc.Payload.Vehicle
import Tvc.Ring

/-!
# The recorder of `src/telemetry.cpp`

The control thread pushes the record of each cycle into the ring and stops the drain after the last one.
The drain thread pops batches, writes each record as a frame, and ends when it finds the ring empty after
it has seen the flag. A move lets one of the two threads take its next access to the ring or to the flag,
or the drain its next call on its file; what the outside makes of the call is its outcome.

How a record lies in memory is left open: any image that gives the record back will do. The bytes of a
file are those `fwrite` took; when flushing them fails, only a front of them is stored.
-/

namespace Tvc.Telem

open ByteStore

/-- `kControlV1SchemaHash`. -/
def kControlV1SchemaHash : U32 := 0xADFA94C8

/-- `TVCRECRD`. -/
def kMagic : Bytes := [0x54, 0x56, 0x43, 0x52, 0x45, 0x43, 0x52, 0x44]

/-- `encode_recording_header`. -/
def encodeRecordingHeader (monoNs epochNs : U64) (schemaHash : U32) : Bytes :=
  kMagic ++ encodeLe 2 1 ++ encodeLe 2 0 ++ encodeLe 4 schemaHash.toNat ++ encodeLe 8 monoNs.toNat ++
    encodeLe 8 epochNs.toNat

end Tvc.Telem

namespace Tvc.Recorder

open Telem (ControlRecord encodeControl encodeFrame kControlV1PayloadBytes)
open SpscRing (Words)

/-- `EIO`. -/
def EIO : ℕ := 5

/-- The limit of a batch. -/
def kBatch : ℕ := 512

/-- How a record lies in memory. -/
structure Image (w : ℕ) (β : Type) where
  store : ControlRecord → Words w β
  load : Words w β → ControlRecord
  load_store : ∀ r, load (store r) = r

/-- `GroundCounters`. -/
structure GroundCounters where
  attempted : ℕ := 0
  sent : ℕ := 0
  sendErrors : ℕ := 0
  shortSends : ℕ := 0
  lastErrno : ℕ := 0

/-- What one send to the ground counts. -/
def GroundCounters.note (g : GroundCounters) (len : ℕ) (outcome : Except ℕ ℕ) : GroundCounters :=
  let g := { g with attempted := g.attempted + 1 }
  match outcome with
  | .ok sent =>
    if sent == len then { g with sent := g.sent + 1 }
    else { g with sendErrors := g.sendErrors + 1, lastErrno := EIO, shortSends := g.shortSends + 1 }
  | .error errno => { g with sendErrors := g.sendErrors + 1, lastErrno := errno }

/-- What the outside makes of the drain's calls: the bytes that are taken, the send to the ground, and
whether the file is flushed and closed. -/
structure Outcome where
  written : ℕ
  sent : Except ℕ ℕ
  flushed : Bool
  closed : Bool

/-- The file takes whole frames and stores what it took. -/
def Outcome.Stores (o : Outcome) : Prop :=
  Telem.kFrameOverhead + kControlV1PayloadBytes ≤ o.written ∧ o.flushed = true

/-- Where the drain stands in `run`. -/
inductive Phase (w : ℕ) (β : Type)
  | popping
  | writing (batch : List (Words w β))
  | checking
  | closing
  | finished

/-- `Drain<ControlRecord>`. -/
structure Drain (w : ℕ) (β : Type) where
  phase : Phase w β := .popping
  stopSeen : Bool := false
  seq : U32 := 0
  records : ℕ := 0
  bytes : ℕ := 0
  writeFailed : Bool := false
  file : Bytes
  connected : Bool
  ground : GroundCounters := {}

/-- The control thread and the drain thread with what they share. `todo` are the cycles whose records are
still to be pushed, `answers` what `try_push` returned, and `stop` is `stop_`. -/
structure System (w : ℕ) (β : Type) where
  ring : SpscRing.System w β
  todo : List ControlRecord
  answers : List Bool := []
  stop : Bool := false
  drain : Drain w β

/-- A thread takes its next access. -/
inductive Move
  | control
  | drain (o : Outcome)

variable {w : ℕ} {β : Type}

/-- `run` on one popped record. -/
def Drain.writeRecord (d : Drain w β) (r : ControlRecord) (o : Outcome) : Drain w β :=
  match encodeControl (List.replicate kControlV1PayloadBytes 0) r with
  | none => { d with writeFailed := true }
  | some payload =>
    let frame := encodeFrame 6 d.seq payload
    let written := min o.written frame.length
    let d := { d with seq := d.seq + 1, file := d.file ++ frame.take written }
    let d :=
      if written != frame.length then { d with writeFailed := true }
      else { d with records := d.records + 1, bytes := d.bytes + frame.length }
    if d.connected then { d with ground := d.ground.note frame.length o.sent } else d

/-- The end of `run`: what is not flushed is not stored, and a close error counts with a ground link only. -/
def Drain.close (d : Drain w β) (o : Outcome) : Drain w β :=
  let d := if o.flushed then d else { d with writeFailed := true, file := d.file.take o.written }
  let d := if !o.closed && d.connected then { d with writeFailed := true } else d
  { d with phase := .finished, connected := false }

/-- A record as it is pushed: it carries the drops so far. -/
def stamped (r : ControlRecord) (drops : U64) : ControlRecord := { r with drops }

/-- What `try_push` has returned after one more access. -/
def noteAnswer (answers : List Bool) : Option (SpscRing.Event w β) → List Bool
  | some (.pushed _) => answers ++ [true]
  | some (.dropped _) => answers ++ [false]
  | _ => answers

/-- The control thread up to its next access: the next record, or `stop` after the last one. -/
def controlStep [Inhabited β] (image : Image w β) (s : System w β) : System w β :=
  match s.ring.producer, s.todo with
  | .idle, [] => { s with stop := true }
  | .idle, r :: rest =>
    { s with ring := (SpscRing.tryPush s.ring (image.store (stamped r s.ring.ring.drops))).1, todo := rest }
  | _, _ =>
    let x := SpscRing.tryPush s.ring default
    { s with ring := x.1, answers := noteAnswer s.answers x.2 }

/-- Where the drain goes on after one more access of `pop_batch`. -/
def afterPop : Option (SpscRing.Event w β) → Phase w β
  | some (.popped []) => .checking
  | some (.popped batch) => .writing batch
  | _ => .popping

/-- The drain thread up to its next access. -/
def drainStep [Inhabited β] (image : Image w β) (s : System w β) (o : Outcome) : System w β :=
  match s.drain.phase with
  | .popping =>
    let x := SpscRing.popBatch s.ring kBatch
    { s with ring := x.1, drain.phase := afterPop x.2 }
  | .writing [] => { s with drain.phase := .popping }
  | .writing (r :: rest) => { s with drain := { s.drain.writeRecord (image.load r) o with phase := .writing rest } }
  | .checking =>
    if s.drain.stopSeen then { s with drain.phase := .closing }
    else if s.stop then { s with drain.stopSeen := true, drain.phase := .popping }
    else { s with drain.phase := .popping }
  | .closing => { s with drain := s.drain.close o }
  | .finished => s

/-- The system after one access. -/
def step [Inhabited β] (image : Image w β) (s : System w β) : Move → System w β
  | .control => controlStep image s
  | .drain o => drainStep image s o

/-- The system as it starts, on a file with its header. -/
def initial (slots : Fin SpscRing.kSlots → Words w β) (header : Bytes) (connected : Bool) (cycles : List ControlRecord) :
    System w β where
  ring := SpscRing.initial slots
  todo := cycles
  drain := { file := header, connected }

/-- The system after an interleaving. -/
def run [Inhabited β] (image : Image w β) (s : System w β) (moves : List Move) : System w β := moves.foldl (step image) s

end Tvc.Recorder
