import Tvc.Episode.Chronicle
import Tvc.Recorder.Complete

/-!
# The recording of a complete run

What an exit code of 0 stands for, as far as it is about the recording: a clean file with a record of every
cycle, of which exactly the last is terminated, where and why the summary says.
-/

namespace Tvc.Recorder

open Episode (Chronicle Concluded Sensed)
open Telem (ControlRecord FittingCounts crc32c encodeRecordingHeader kControlV1SchemaHash)
open SpscRing (Words)

/-- The recording of a complete run of some cycles that ended for a reason at a tick. -/
structure CompleteRecording (file : Bytes) (monoNs epochNs : U64) (base cycles : ℕ) (reason : Reason) (reasonTick : ℕ)
    (records : List ControlRecord) : Prop where
  clean : Wire.readTypedRecording crc32c file 6 =
    .ok (controlHeader monoNs epochNs, records.map Wire.controlDict, { framesOk := records.length })
  cycles : records.length = cycles
  ticks : ∀ k r, records[k]? = some r → r.tick.toNat = base + k
  drops : ∀ r ∈ records, r.drops = 0
  ended : ∀ k r, records[k]? = some r → (r.state = 3 ↔ k + 1 = records.length)
  last : ∃ r, records.getLast? = some r ∧ r.state = 3 ∧ r.reason = BitVec.ofNat 8 reason.toNat ∧
    r.tick.toNat = reasonTick
  concluded : Concluded reason

/-- The recording of an ended episode, when nothing was dropped and the drain found no failure. -/
theorem complete_recording [Arith F64] {autoArm : Bool} {base : ℕ} {history : List (EpisodeInput F64)}
    {records : List ControlRecord} (hchronicle : Chronicle autoArm base history records) (hsensed : Sensed base history)
    {t : TerminalResult} (ht : (Episode.stateAfter autoArm history).terminal = some t) (hconcluded : Concluded t.reason)
    (hfits : ∀ r ∈ records, FittingCounts r) (hdrops : ∀ r ∈ records, r.drops = 0)
    {w : ℕ} {β : Type} [Inhabited β] {image : Image w β} {slots : Fin SpscRing.kSlots → Words w β} {monoNs epochNs : U64}
    {connected : Bool} {moves : List Move} {s : System w β}
    (hs : s = run image (initial slots (encodeRecordingHeader monoNs epochNs kControlV1SchemaHash) connected records) moves)
    (hfinished : s.drain.phase = .finished) (hwritten : s.drain.writeFailed = false)
    (hnone : s.answers.count false = 0) :
    CompleteRecording s.drain.file monoNs epochNs base history.length t.reason t.tick records where
  clean := (recording_of_undropped hfits hdrops hs hfinished hwritten hnone).1
  cycles := hchronicle.length
  ticks k r hr := (hchronicle.tells k r hr).tick
  drops := hdrops
  ended k r hr :=
    hchronicle.ended_iff ((Episode.sound_run autoArm history).terminal.mpr (by rw [ht]; rfl)) hr
  last := (hchronicle.last hsensed ht).2
  concluded := hconcluded

end Tvc.Recorder
