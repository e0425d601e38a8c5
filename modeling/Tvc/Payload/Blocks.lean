import Tvc.GroundWire
import Tvc.Payload.Vehicle

/-!
# Payloads as blocks

What a payload codec owes its callers, and why the layout of the payload is enough for it: a record is the
list of its blocks, its encoder stores them one behind the other, and its decoder reads a record whose
blocks are the slices of the buffer. The tables of the ground tools walk the same blocks.
-/

namespace Tvc

open ByteStore

/-- A payload type in both languages. -/
structure PayloadCodec (α : Type) where
  /-- The number of the type. -/
  ftype : ℕ
  /-- The length of its schema. -/
  size : ℕ
  /-- The encoder of the vehicle, on the buffer it writes. -/
  encode : Bytes → α → Bool × Bytes
  /-- The decoder of the vehicle, on the record it writes. -/
  decode : Bytes → α → Bool × α
  /-- The mapping the ground tools know the fields by. -/
  dict : α → Wire.Fields
  /-- The fields with the reserved flag bits cleared. -/
  masked : α → α
  /-- The counts of the fields fit. -/
  valid : α → Bool
  /-- The counts in a payload fit. -/
  counts : Bytes → Bool
  /-- The reserved flag bits of a payload are zero. -/
  reserved : Bytes → Bool

/-- What the codecs of a payload type owe their callers. -/
structure PayloadCodec.Correct {α : Type} (c : PayloadCodec α) : Prop where
  encode_accepts : ∀ p r, (c.encode p r).1 = true ↔ p.length = c.size ∧ c.valid r = true
  decode_accepts : ∀ q out, (c.decode q out).1 = true ↔ q.length = c.size ∧ c.counts q = true
  encode_untouched : ∀ p r, (c.encode p r).1 = false → (c.encode p r).2 = p
  decode_untouched : ∀ q out, (c.decode q out).1 = false → (c.decode q out).2 = out
  decode_encode : ∀ p r out, (c.encode p r).1 = true → c.decode (c.encode p r).2 out = (true, c.masked r)
  encode_decode : ∀ q out p, q.length = c.size → p.length = c.size → c.counts q = true → c.reserved q = true →
    c.encode p (c.decode q out).2 = (true, q)
  ground_encode : ∀ p r, p.length = c.size →
    (Wire.encodePayload c.ftype (c.dict r)).toOption = if (c.encode p r).1 then some (c.encode p r).2 else none
  ground_decode : ∀ q out,
    (Wire.decodePayload c.ftype q).toOption = if (c.decode q out).1 then some (c.dict (c.decode q out).2) else none

/-- The layout of a payload type: its records as blocks, and what the vehicle's codecs do with them. -/
structure PayloadCodec.LaidOut {α : Type} (c : PayloadCodec α) (blocks : α → List Bytes) (read : Bytes → α)
    (widths : List ℕ) : Prop where
  widths_sum : widths.sum = c.size
  blocks_widths : ∀ r, (blocks r).map List.length = widths
  blocks_injective : Function.Injective blocks
  encode_eq : ∀ p r, c.encode p r =
    if p.length = c.size ∧ c.valid r = true then (true, storeAll p 0 (blocks (c.masked r))) else (false, p)
  decode_eq : ∀ q out, c.decode q out = if q.length = c.size ∧ c.counts q = true then (true, read q) else (false, out)
  slices_eq : ∀ q, q.length = c.size → blocks (read q) = slices q 0 widths
  valid_read : ∀ q, c.valid (read q) = c.counts q
  valid_masked : ∀ r, c.valid (c.masked r) = c.valid r
  masked_read : ∀ q, c.reserved q = true → c.masked (read q) = read q

namespace PayloadCodec.LaidOut

variable {α : Type} {c : PayloadCodec α} {blocks : α → List Bytes} {read : Bytes → α} {widths : List ℕ}

/-- The blocks of a record take the length of the schema. -/
theorem flatten_length (h : c.LaidOut blocks read widths) (r : α) : (blocks r).flatten.length = c.size := by
  rw [List.length_flatten, h.blocks_widths, h.widths_sum]

/-- An accepted record is written as the concatenation of its blocks. -/
theorem encode_accepted (h : c.LaidOut blocks read widths) {p : Bytes} {r : α} (hp : p.length = c.size)
    (hvalid : c.valid r = true) : c.encode p r = (true, (blocks (c.masked r)).flatten) := by
  rw [h.encode_eq, if_pos ⟨hp, hvalid⟩, storeAll_flatten]
  rw [h.flatten_length, hp]

/-- What is read from the concatenation of the blocks of a record is the record. -/
theorem read_flatten (h : c.LaidOut blocks read widths) (r : α) : read (blocks r).flatten = r := by
  apply h.blocks_injective
  rw [h.slices_eq _ (h.flatten_length r), ← h.blocks_widths r]
  exact slices_append [] (blocks r)

/-- The blocks of what is read from a payload are the payload. -/
theorem flatten_read (h : c.LaidOut blocks read widths) {q : Bytes} (hq : q.length = c.size) :
    (blocks (read q)).flatten = q := by
  rw [h.slices_eq q hq, slices_flatten, h.widths_sum, ← hq, load_all]

/-- A payload type that is laid out and that the ground tools encode and decode block by block is correct. -/
theorem correct (h : c.LaidOut blocks read widths)
    (hencode : ∀ r, (Wire.encodePayload c.ftype (c.dict r)).toOption =
      if c.valid r = true then some (storeAll (List.replicate c.size 0) 0 (blocks (c.masked r))) else none)
    (hdecode : ∀ q, (Wire.decodePayload c.ftype q).toOption =
      if q.length = c.size ∧ c.counts q = true then some (c.dict (read q)) else none) : c.Correct where
  encode_accepts p r := by
    rw [h.encode_eq]
    split <;> simp_all
  decode_accepts q out := by
    rw [h.decode_eq]
    split <;> simp_all
  encode_untouched p r := by
    rw [h.encode_eq]
    split <;> simp
  decode_untouched q out := by
    rw [h.decode_eq]
    split <;> simp
  decode_encode p r out haccepted := by
    rw [h.encode_eq] at haccepted
    split at haccepted
    · rename_i hfits
      have hcounts : c.counts (blocks (c.masked r)).flatten = true := by
        rw [← h.valid_read, h.read_flatten, h.valid_masked, hfits.2]
      rw [h.encode_accepted hfits.1 hfits.2, h.decode_eq, if_pos ⟨h.flatten_length _, hcounts⟩, h.read_flatten]
    · contradiction
  encode_decode q out p hq hp hcounts hreserved := by
    rw [h.decode_eq, if_pos ⟨hq, hcounts⟩, h.encode_accepted hp (by rw [h.valid_read, hcounts]), h.masked_read q hreserved,
      h.flatten_read hq]
  ground_encode p r hp := by
    by_cases hvalid : c.valid r = true
    · have hzero : (blocks (c.masked r)).flatten.length = (List.replicate c.size (0 : U8)).length := by
        rw [h.flatten_length, List.length_replicate]
      rw [hencode, if_pos hvalid, h.encode_accepted hp hvalid, storeAll_flatten hzero]
      rfl
    · have hrefused : c.encode p r = (false, p) := by rw [h.encode_eq, if_neg fun hfits => hvalid hfits.2]
      rw [hencode, if_neg hvalid, hrefused]
      rfl
  ground_decode q out := by
    rw [hdecode, h.decode_eq]
    split
    · rfl
    · rfl

end PayloadCodec.LaidOut

/-! ## The blocks of the six payloads -/

namespace Telem

/-- The blocks of a telemetry payload. -/
def Record.blocks (r : Record) : List Bytes :=
  [encodeLe 8 r.tick.toNat, encodeLe 8 r.deadlineNs.toNat, encodeLe 8 r.wokeNs.toNat, encodeLe 8 r.doneNs.toNat,
    encodeLe 8 r.theta.bits.toNat, encodeLe 8 r.cmd.bits.toNat, encodeLe 8 r.drops.toNat]

/-- The blocks of a command payload. -/
def CommandFields.blocks (c : CommandFields) : List Bytes :=
  [encodeLe 4 c.cmdSeq.toNat, encodeLe 2 c.opcode.toNat, encodeLe 2 c.flags.toNat, encodeLe 8 c.effectiveTick.toNat]

/-- The blocks of an acknowledgement payload. -/
def AckFields.blocks (a : AckFields) : List Bytes :=
  [encodeLe 8 a.appliedTick.toNat, encodeLe 4 a.cmdSeq.toNat, encodeLe 2 a.status.toNat, encodeLe 1 a.state.toNat,
    encodeLe 1 a.reason.toNat]

/-- The blocks of a sensor payload. -/
def SensorFields.blocks (s : SensorFields) : List Bytes :=
  [encodeLe 8 s.tick.toNat, encodeLe 8 s.tSendNs.toNat, encodeLe 8 s.theta.bits.toNat, encodeLe 8 s.omega.bits.toNat,
    encodeLe 4 s.flags.toNat, encodeLe 4 s.cmdSeq.toNat, encodeLe 4 s.simReason.toNat]

/-- The blocks of an actuator payload. -/
def ActuatorFields.blocks (a : ActuatorFields) : List Bytes :=
  [encodeLe 8 a.tick.toNat, encodeLe 8 a.vehTick.toNat, encodeLe 8 a.tSensorSendNs.toNat, encodeLe 8 a.tVehSendNs.toNat,
    encodeLe 8 a.delta.bits.toNat, encodeLe 4 a.status.toNat, encodeLe 4 a.staleness.toNat]

/-- The blocks of a control payload. -/
def ControlRecord.blocks (r : ControlRecord) : List Bytes :=
  [encodeLe 8 r.tick.toNat, encodeLe 8 r.deadlineNs.toNat, encodeLe 8 r.wokeNs.toNat, encodeLe 8 r.doneNs.toNat,
    encodeLe 8 r.sensorSendNs.toNat, encodeLe 8 r.rxNs.toNat, encodeLe 8 r.txNs.toNat, encodeLe 8 r.sensorTick.toNat,
    encodeLe 8 r.theta.bits.toNat, encodeLe 8 r.omega.bits.toNat, encodeLe 8 r.cmd.bits.toNat,
    encodeLe 8 r.iState.bits.toNat, encodeLe 8 r.dPrev.bits.toNat, encodeLe 8 r.drops.toNat,
    encodeLe 4 r.staleness.toNat, encodeLe 4 r.ackCmdSeq.toNat, encodeLe 1 r.rxCount.toNat,
    encodeLe 1 r.discardedOld.toNat, encodeLe 1 r.discardedSuperseded.toNat, encodeLe 1 r.discardedOther.toNat,
    encodeLe 1 r.state.toNat, encodeLe 1 r.reason.toNat, encodeLe 1 r.flags.toNat, encodeLe 1 r.ackStatus.toNat]

end Telem

end Tvc
