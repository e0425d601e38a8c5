import Tvc.GroundLink.Streams
import Tvc.Recorder.Reader

/-!
# The receiver of `ground/link.py`

`Receiver` takes datagrams from one source and keeps the frames whose ticks increase. It remembers the last frame
only. What it does with a datagram it counts; the counters of the socket are left out.
-/

namespace Tvc.GroundLink

open ByteStore
open Telem (ControlRecord FittingCounts crc32c)

/-! ## Control frames -/

/-- The values of a control record are finite. -/
def finiteFields (fields : Wire.Fields) : Bool :=
  [Wire.FieldName.theta, .omega, .cmd, .iState, .dPrev].all fun k => Classify.isFinite (fields.float k)

/-- `control_frame`. -/
def controlFrame (data : Bytes) : Except Wire.Failure (StreamFrame Bytes) := do
  let (_, seq, payload) ← Wire.decodeDatagram data [6]
  let fields ← Wire.decodePayload 6 payload
  if !finiteFields fields then .error (.valueError "nonfinite control record")
  else return ⟨seq, fields.int .tick, data⟩

/-- The five values of a record are finite. -/
def FiniteRecord (r : ControlRecord) : Prop :=
  [r.theta, r.omega, r.cmd, r.iState, r.dPrev].all F64.isFinite = true

/-- The frame the drain writes is a control frame. -/
theorem controlFrame_encoding {r : ControlRecord} (hfits : FittingCounts r) (hfinite : FiniteRecord r) (k : ℕ) :
    controlFrame (Recorder.encoding r k) = .ok ⟨((k % 2 ^ 32 : ℕ) : ℤ), r.tick.toNat, Recorder.encoding r k⟩ := by
  obtain ⟨payload, hpayload, hlength⟩ := Recorder.encodeControl_of_fitting hfits
  have hdatagram : Wire.decodeDatagram (Recorder.encoding r k) [6] = .ok (6, k % 2 ^ 32, Recorder.payloadOf r) := by
    have hread := @Telem.decodeDatagram_encodeFrame 6 [6] (BitVec.ofNat 32 k) payload (by decide) (by decide) hlength
      (by rw [hlength]; decide)
    have hwire := Wire.decodeDatagram_of_ok hread
    rw [Telem.DecodedFrame.payload, Telem.load_encodeFrame_payload, ← Recorder.payloadOf_eq hpayload] at hwire
    exact hwire.trans (by rw [BitVec.toNat_ofNat]; rfl)
  have hfields : finiteFields (Wire.controlDict r) = true := hfinite
  unfold controlFrame
  rw [hdatagram]
  change (Wire.decodePayload 6 (Recorder.payloadOf r) >>= _) = _
  rw [Recorder.decodePayload_payloadOf hfits]
  change (if !finiteFields (Wire.controlDict r) then _ else _) = _
  rw [hfields]
  rfl

/-! ## The receiver -/

/-- The counters of the receiver. -/
structure Counters where
  received : ℕ := 0
  foreign : ℕ := 0
  malformed : ℕ := 0
  duplicate : ℕ := 0
  outOfOrder : ℕ := 0
  conflict : ℕ := 0
  recorded : ℕ := 0
  writeFailedDatagrams : ℕ := 0
  deriving DecidableEq, Repr

/-- The sum over `DISPOSITIONS`. -/
def Counters.disposed (c : Counters) : ℕ :=
  c.foreign + c.malformed + c.duplicate + c.outOfOrder + c.conflict + c.recorded + c.writeFailedDatagrams

/-- `Receiver`; `σ` are the addresses. -/
structure Receiver (σ : Type) where
  recording : Bytes
  source : Option σ := none
  last : Option Bytes := none
  lastTick : Option ℤ := none
  counters : Counters := {}

/-- `write_all`, on what the stream makes of the call. -/
def writeAll (stream data : Bytes) (outcome : Except ℕ ℕ) : Bytes × Except ℕ Unit :=
  match outcome with
  | .error errno => (stream, .error errno)
  | .ok n => (stream ++ data.take n, if n != data.length then .error Recorder.EIO else .ok ())

variable {σ : Type} [DecidableEq σ]

/-- `accept`, with the error it raises. -/
def Receiver.accept (r : Receiver σ) (data : Bytes) (source : σ) (outcome : Except ℕ ℕ) : Receiver σ × Except ℕ Unit :=
  let r := { r with counters.received := r.counters.received + 1 }
  if r.source.any (· != source) then ({ r with counters.foreign := r.counters.foreign + 1 }, .ok ())
  else match controlFrame data with
  | .error _ => ({ r with counters.malformed := r.counters.malformed + 1 }, .ok ())
  | .ok frame =>
    let r := { r with source := some source }
    if r.lastTick.any (frame.tick < ·) then ({ r with counters.outOfOrder := r.counters.outOfOrder + 1 }, .ok ())
    else if r.lastTick == some frame.tick then
      if r.last == some frame.raw then ({ r with counters.duplicate := r.counters.duplicate + 1 }, .ok ())
      else ({ r with counters.conflict := r.counters.conflict + 1 }, .ok ())
    else
      let (recording, result) := writeAll r.recording frame.raw outcome
      match result with
      | .error errno =>
        ({ r with recording, counters.writeFailedDatagrams := r.counters.writeFailedDatagrams + 1 }, .error errno)
      | .ok () =>
        ({ r with
            recording
            counters.recorded := r.counters.recorded + 1
            last := some frame.raw
            lastTick := some frame.tick }, .ok ())

/-- Every datagram is disposed of once, also when its write fails. -/
theorem Receiver.accept_disposed {r : Receiver σ} (h : r.counters.received = r.counters.disposed) (data : Bytes)
    (source : σ) (outcome : Except ℕ ℕ) :
    (r.accept data source outcome).1.counters.received = (r.accept data source outcome).1.counters.disposed := by
  unfold Counters.disposed at h ⊢
  unfold accept
  dsimp only
  split
  · dsimp only
    omega
  · split
    · dsimp only
      omega
    · split
      · dsimp only
        omega
      · split
        · split <;> dsimp only <;> omega
        · split <;> dsimp only <;> omega

/-- A datagram of another source than the one that is known is counted only. -/
theorem Receiver.accept_foreign {r : Receiver σ} {home source : σ} (hpinned : r.source = some home) (hne : source ≠ home)
    (data : Bytes) (outcome : Except ℕ ℕ) :
    (r.accept data source outcome).1 =
      { r with counters.received := r.counters.received + 1, counters.foreign := r.counters.foreign + 1 } := by
  have hforeign : r.source.any (· != source) = true := by
    rw [hpinned]
    exact bne_iff_ne.mpr hne.symm
  unfold accept
  dsimp only
  rw [if_pos hforeign]

/-- What becomes of a frame of the source. -/
inductive Receiver.Took (r : Receiver σ) (home : σ) (frame : StreamFrame Bytes) : Receiver σ → Prop
  | late (h : ∃ last ∈ r.lastTick, frame.tick < last) :
    Took r home frame { r with
      source := some home
      counters.received := r.counters.received + 1
      counters.outOfOrder := r.counters.outOfOrder + 1 }
  | again (htick : r.lastTick = some frame.tick) (hraw : r.last = some frame.raw) :
    Took r home frame { r with
      source := some home
      counters.received := r.counters.received + 1
      counters.duplicate := r.counters.duplicate + 1 }
  | other (htick : r.lastTick = some frame.tick) (hraw : r.last ≠ some frame.raw) :
    Took r home frame { r with
      source := some home
      counters.received := r.counters.received + 1
      counters.conflict := r.counters.conflict + 1 }
  | new (h : ∀ last ∈ r.lastTick, last < frame.tick) :
    Took r home frame { r with
      recording := r.recording ++ frame.raw
      source := some home
      counters.received := r.counters.received + 1
      counters.recorded := r.counters.recorded + 1
      last := some frame.raw
      lastTick := some frame.tick }

/-- A frame of the source is late, there already, another one of the last tick, or new. -/
theorem Receiver.accept_took {r : Receiver σ} {home : σ} (hsource : ∀ s ∈ r.source, s = home) {data : Bytes}
    {frame : StreamFrame Bytes} (hframe : controlFrame data = .ok frame) :
    r.Took home frame (r.accept data home (.ok frame.raw.length)).1 := by
  have hhome : r.source.any (· != home) = false := by
    cases hs : r.source with
    | none => rfl
    | some s =>
      obtain rfl := hsource s hs
      exact bne_self_eq_false s
  have hwritten : writeAll r.recording frame.raw (.ok frame.raw.length) = (r.recording ++ frame.raw, .ok ()) := by
    unfold writeAll
    dsimp only
    rw [List.take_length, bne_self_eq_false]
    rfl
  unfold accept
  dsimp only
  rw [hhome, if_neg Bool.false_ne_true, hframe]
  dsimp only
  split
  · rename_i hlate
    refine .late ?_
    cases hlast : r.lastTick with
    | none =>
      rw [hlast] at hlate
      nomatch hlate
    | some last =>
      rw [hlast] at hlate
      exact ⟨last, rfl, of_decide_eq_true hlate⟩
  · rename_i hlate
    split
    · rename_i htick
      split
      · rename_i hraw
        exact .again (beq_iff_eq.mp htick) (beq_iff_eq.mp hraw)
      · rename_i hraw
        exact .other (beq_iff_eq.mp htick) fun heq => hraw (beq_iff_eq.mpr heq)
    · rename_i htick
      rw [hwritten]
      refine .new fun last hlast => ?_
      obtain hlast : r.lastTick = some last := hlast
      rw [hlast] at hlate htick
      have hle : last ≤ frame.tick := not_lt.mp fun hlt => hlate (decide_eq_true hlt)
      exact hle.lt_of_ne fun heq => htick (beq_iff_eq.mpr (congrArg some heq))

end Tvc.GroundLink
