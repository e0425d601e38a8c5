import Tvc.Episode.Acknowledgement
import Tvc.Lockstep.ExactlyOnce
import Tvc.Lockstep.Pair

/-!
# Acknowledgements in the recording

A cycle makes up to two acknowledgements, and its record and its reply have room for one. The
projection keeps the one that tells of a command that was run, and no cycle runs two. So what was
run can be read back from the records.
-/

namespace Tvc.Lockstep

open Telem (ControlRecord)

/-! ## The projection -/

/-- The acknowledgement on the wire: the first that was applied, or else the first. -/
def selectAck (acks : List Ack) : Option Ack := (acks.find? isApplied).or acks.head?

/-- The loop of the projection finds the selected acknowledgement. -/
theorem projectAck_eq (acks : List Ack) : projectAck acks = ⟨selectAck acks, acks.any isApplied⟩ := by
  induction acks using List.reverseRecOn with
  | nil => rfl
  | append_singleton acks a ih =>
    rw [projectAck, List.foldl_append, ← projectAck, ih]
    simp only [List.foldl_cons, List.foldl_nil, selectAck, List.any_append, List.any_cons, List.any_nil,
      Bool.or_false, List.find?_append]
    cases hfound : acks.find? isApplied with
    | some b =>
      have hany : acks.any isApplied = true := by
        rw [List.any_eq_true]
        exact ⟨b, List.mem_of_find?_eq_some hfound, List.find?_some hfound⟩
      simp [hany]
    | none =>
      have hany : acks.any isApplied = false := by
        rw [List.any_eq_false]
        exact fun b hb => List.find?_eq_none.mp hfound b hb
      rw [hany, List.head?_append]
      cases acks.head? <;> cases happlied : isApplied a <;> simp [happlied]

/-- What the masks of the projection do to a flag byte. -/
theorem marked_flags : ∀ flags : U8,
    (flags &&& ~~~68) &&& 64 = 0 ∧ (flags &&& ~~~68) &&& 4 = 0 ∧
      (flags &&& ~~~68 ||| 64) &&& 64 ≠ 0 ∧ (flags &&& ~~~68 ||| 64) &&& 4 = 0 ∧
      (flags &&& ~~~68 ||| 64 ||| 4) &&& 64 ≠ 0 ∧ (flags &&& ~~~68 ||| 64 ||| 4) &&& 4 ≠ 0 ∧
      (flags &&& ~~~68 ||| 64) &&& ~~~68 = flags &&& ~~~68 ∧
      (flags &&& ~~~68 ||| 64 ||| 4) &&& ~~~68 = flags &&& ~~~68 ∧
      (flags &&& ~~~68) &&& ~~~68 = flags &&& ~~~68 := by
  decide +kernel

/-- A record with the acknowledgement of its cycle, and the byte that goes into the reply. -/
structure Projected (acks : List Ack) (before after : ControlRecord) (ackByte : U8) : Prop where
  others : after.flags &&& ~~~68 = before.flags &&& ~~~68
  acked : after.flags &&& 64 ≠ 0 ↔ (selectAck acks).isSome = true
  applied : after.flags &&& 4 ≠ 0 ↔ acks.any isApplied = true
  byte : ackByte = if after.flags &&& 64 ≠ 0 then 0x80 ||| after.ackStatus else 0
  selected : ∀ a ∈ selectAck acks,
    after.ackCmdSeq = a.cmdSeq ∧ after.ackStatus = BitVec.ofNat 8 a.status.toNat

/-- Without an acknowledgement nothing was applied. -/
theorem any_of_selectAck_none {acks : List Ack} (h : selectAck acks = none) : acks.any isApplied = false := by
  have hempty : acks = [] := by simpa using (Option.or_eq_none_iff.mp h).2
  rw [hempty]
  rfl

/-- The projection marks a record with the selected acknowledgement and leaves its other flags. -/
theorem applyAcks_projected (acks : List Ack) (record : ControlRecord) :
    Projected acks record (applyAcks acks record).2 (applyAcks acks record).1 := by
  obtain ⟨h64, h4, hmarked64, hmarked4, hran64, hran4, hmarked, hran, hkept⟩ := marked_flags record.flags
  unfold applyAcks
  rw [projectAck_eq]
  dsimp only
  cases hselected : selectAck acks with
  | none =>
    refine ⟨hkept, ?_, ?_, ?_, ?_⟩
    · exact iff_of_false (not_not.mpr h64) (by rw [hselected]; decide)
    · exact iff_of_false (not_not.mpr h4) (by rw [any_of_selectAck_none hselected]; decide)
    · exact (if_neg (not_not.mpr h64)).symm
    · rw [hselected]
      exact fun a ha => nomatch ha
  | some a =>
    have hsome : (selectAck acks).isSome = true := by rw [hselected]; rfl
    have hown : ∀ b ∈ selectAck acks, b = a := fun b hb => by rw [hselected] at hb; exact (Option.some.inj hb).symm
    cases happlied : acks.any isApplied with
    | false =>
      refine ⟨hmarked, iff_of_true hmarked64 hsome, ?_, (if_pos hmarked64).symm, fun b hb => ?_⟩
      · exact iff_of_false (not_not.mpr hmarked4) (by rw [happlied]; decide)
      · rw [hown b hb]
        exact ⟨rfl, rfl⟩
    | true =>
      refine ⟨hran, iff_of_true hran64 hsome, ?_, (if_pos hran64).symm, fun b hb => ?_⟩
      · exact iff_of_true hran4 happlied
      · rw [hown b hb]
        exact ⟨rfl, rfl⟩

/-- The top byte of a status word is the acknowledgement's. -/
theorem statusOf_top (record : ControlRecord) {rung : ℕ} (hrung : rung < 2 ^ 8) (ackByte : U8) :
    (statusOf record rung ackByte >>> 24).setWidth 8 = ackByte := by
  refine BitVec.eq_of_getLsbD_eq fun i hi => ?_
  have hstate : record.state.getLsbD (24 + i) = false := BitVec.getLsbD_of_ge record.state _ (by omega)
  have hreason : record.reason.getLsbD (24 + i - 8) = false := BitVec.getLsbD_of_ge record.reason _ (by omega)
  have hladder : (BitVec.ofNat 32 rung).getLsbD (24 + i - 16) = false := by
    rw [BitVec.getLsbD_ofNat,
      Nat.testBit_lt_two_pow (hrung.trans_le (Nat.pow_le_pow_right (by decide) (by omega))), Bool.and_false]
  simp only [statusOf, BitVec.getLsbD_setWidth, BitVec.getLsbD_ushiftRight, BitVec.getLsbD_or,
    BitVec.getLsbD_shiftLeft, hstate, hreason, hladder, hi, show 24 + i < 32 by omega,
    show ¬24 + i < 24 by omega, Nat.add_sub_cancel_left, show i < 32 by omega, decide_true, decide_false,
    Bool.and_false, Bool.or_false, Bool.false_or, Bool.true_and, Bool.not_false]

/-- The rung fits its byte. -/
theorem rungOf_lt (age : ℕ) (fresh : Bool) : rungOf age fresh < 2 ^ 8 := by
  unfold rungOf
  repeat' split
  all_goals decide

/-! ## One cycle -/

/-- The test of the projection is that for a command that was run. -/
theorem isApplied_iff (a : Ack) : isApplied a = true ↔ Episode.IsApplied a := by
  simp [isApplied, Episode.IsApplied]

/-- The status byte of an acknowledgement says whether a command was run. -/
theorem statusByte_applied (a : Ack) :
    (BitVec.ofNat 8 a.status.toNat = 1#8 ∨ BitVec.ofNat 8 a.status.toNat = 2#8) ↔ Episode.IsApplied a := by
  unfold Episode.IsApplied
  cases a.status <;> decide

/-- The byte of a reply tells whether a command was run. -/
theorem ackByte_applied (a : Ack) :
    (0x80 ||| BitVec.ofNat 8 a.status.toNat = 0x81#8 ∨ 0x80 ||| BitVec.ofNat 8 a.status.toNat = 0x82#8) ↔
      Episode.IsApplied a := by
  unfold Episode.IsApplied
  cases a.status <;> decide

/-- The only command that was run is the one selected. -/
theorem selectAck_of_applied {acks : List Ack} (hone : acks.countP (fun a => decide (Episode.IsApplied a)) ≤ 1)
    {a : Ack} (ha : a ∈ acks) (happlied : Episode.IsApplied a) : selectAck acks = some a := by
  have hsame : (fun a => decide (Episode.IsApplied a)) = isApplied := by
    funext b
    rw [Bool.eq_iff_iff, decide_eq_true_iff, isApplied_iff]
  rw [hsame, List.countP_eq_length_filter] at hone
  have hmem : a ∈ acks.filter isApplied := List.mem_filter.mpr ⟨ha, (isApplied_iff a).mpr happlied⟩
  obtain ⟨b, hb⟩ := List.length_eq_one_iff.mp (hone.antisymm (List.length_pos_of_mem hmem))
  rw [hb, List.mem_singleton] at hmem
  rw [selectAck, ← List.head?_filter, hb, ← hmem]
  rfl

variable [Arith F64]

/-- What the record and the reply of a cycle tell of its acknowledgements. -/
structure Told (s : EpisodeState F64) (i : EpisodeInput F64) (record : ControlRecord) (status : U32) : Prop where
  ran : ∀ number, (record.flags &&& 4 ≠ 0 ∧ record.flags &&& 64 ≠ 0 ∧ record.ackCmdSeq = number ∧
      (record.ackStatus = 1#8 ∨ record.ackStatus = 2#8)) ↔
    ∃ c, Episode.RanCommand s i c ∧ c.cmdSeq = number
  mark : record.flags &&& 4 ≠ 0 ↔ ∃ c, Episode.RanCommand s i c
  reply : ((status >>> 24).setWidth 8 = 0x81#8 ∨ (status >>> 24).setWidth 8 = 0x82#8) ↔
    ∃ c, Episode.RanCommand s i c
  first : (∀ c, ¬Episode.RanCommand s i c) → ∀ a ∈ (Episode.step s i).acks.head?,
    record.flags &&& 64 ≠ 0 ∧ record.ackCmdSeq = a.cmdSeq ∧ record.ackStatus = BitVec.ofNat 8 a.status.toNat
  top : (status >>> 24).setWidth 8 = if record.flags &&& 64 ≠ 0 then 0x80 ||| record.ackStatus else 0

/-- A projected record and its status word tell of the cycle. -/
theorem told_of_projected {s : EpisodeState F64} {i : EpisodeInput F64} {before after : ControlRecord}
    {ackByte : U8} (h : Projected (Episode.step s i).acks before after ackByte) {status : U32}
    (htop : (status >>> 24).setWidth 8 = ackByte) : Told s i after status := by
  have hone := Episode.applied_le_one s i
  have hany : (∃ c, Episode.RanCommand s i c) ↔ ∃ a ∈ (Episode.step s i).acks, isApplied a = true := by
    constructor
    · rintro ⟨c, hc⟩
      obtain ⟨a, ha, happlied, -⟩ := (Episode.ranCommand_iff s i c.cmdSeq).mp ⟨c, hc, rfl⟩
      exact ⟨a, ha, (isApplied_iff a).mpr happlied⟩
    · rintro ⟨a, ha, happlied⟩
      obtain ⟨c, hc, -⟩ :=
        (Episode.ranCommand_iff s i a.cmdSeq).mpr ⟨a, ha, (isApplied_iff a).mp happlied, rfl⟩
      exact ⟨c, hc⟩
  have hselected {a : Ack} (ha : a ∈ (Episode.step s i).acks) (happlied : isApplied a = true) :
      a ∈ selectAck (Episode.step s i).acks := selectAck_of_applied hone ha ((isApplied_iff a).mp happlied)
  have hacked {a : Ack} (ha : a ∈ selectAck (Episode.step s i).acks) : after.flags &&& 64 ≠ 0 :=
    h.acked.mpr (Option.isSome_of_mem ha)
  have hmark : after.flags &&& 4 ≠ 0 ↔ ∃ c, Episode.RanCommand s i c := by
    rw [h.applied, List.any_eq_true, hany]
  refine ⟨fun number => ?_, hmark, ?_, fun hnone a ha => ?_, htop.trans h.byte⟩
  · constructor
    · rintro ⟨hflag, -, rfl, -⟩
      obtain ⟨a, ha, happlied⟩ := hany.mp (hmark.mp hflag)
      exact (Episode.ranCommand_iff s i _).mpr
        ⟨a, ha, (isApplied_iff a).mp happlied, (h.selected a (hselected ha happlied)).1.symm⟩
    · rintro ⟨c, hc, rfl⟩
      obtain ⟨a, ha, happlied, hnumber⟩ := (Episode.ranCommand_iff s i c.cmdSeq).mp ⟨c, hc, rfl⟩
      have hmem := hselected ha ((isApplied_iff a).mpr happlied)
      obtain ⟨hseq, hstatus⟩ := h.selected a hmem
      rw [hstatus]
      exact ⟨hmark.mpr ⟨c, hc⟩, hacked hmem, hseq.trans hnumber, (statusByte_applied a).mpr happlied⟩
  · rw [htop, h.byte, hany]
    cases hselect : selectAck (Episode.step s i).acks with
    | none =>
      have hflag : ¬after.flags &&& 64 ≠ 0 := by rw [h.acked, hselect]; decide
      rw [if_neg hflag]
      refine iff_of_false (by decide) fun ⟨a, ha, happlied⟩ => ?_
      exact absurd (hselect ▸ hselected ha happlied) (by simp)
    | some b =>
      have hb : b ∈ selectAck (Episode.step s i).acks := hselect
      rw [if_pos (hacked hb), (h.selected b hb).2, ackByte_applied, ← isApplied_iff]
      constructor
      · intro happlied
        rw [selectAck] at hselect
        rcases Option.or_eq_some_iff.mp hselect with hfound | ⟨-, hhead⟩
        · exact ⟨b, List.mem_of_find?_eq_some hfound, happlied⟩
        · exact ⟨b, List.mem_of_mem_head? hhead, happlied⟩
      · rintro ⟨a, ha, happlied⟩
        have hsame := hselected ha happlied
        rw [hselect] at hsame
        exact Option.some.inj hsame ▸ happlied
  · have hidle : (Episode.step s i).acks.find? isApplied = none :=
      List.find?_eq_none.mpr fun b hb happlied =>
        (hany.mpr ⟨b, hb, happlied⟩).elim hnone
    have hmem : a ∈ selectAck (Episode.step s i).acks := by
      rw [selectAck, hidle]
      exact ha
    exact ⟨hacked hmem, h.selected a hmem⟩

/-- The reply of an executed frame is made of the record that tells of its cycle. -/
theorem execute_told (s : Session) (f : Frame) :
    let i := inputsOf s.held s.up.logicalReceived f
    ∃ fields, (s.execute f).reply = replyFrame s.up.logicalReceived fields ∧
      Told s.state i (s.execute f).record fields.status ∧
      (s.execute f).record.flags &&& ~~~68 = (recordOf i f (Episode.step s.state i)).flags &&& ~~~68 := by
  intro i
  have hprojected := applyAcks_projected (Episode.step s.state i).acks (recordOf i f (Episode.step s.state i))
  refine ⟨_, rfl, told_of_projected hprojected ?_, hprojected.others⟩
  exact statusOf_top _ (rungOf_lt _ _) _

omit [Arith F64] in
/-- What the send does to the flag byte of a record. -/
theorem sent_flags : ∀ flags : U8,
    (flags ||| 2) &&& 4 = flags &&& 4 ∧ (flags ||| 2) &&& 64 = flags &&& 64 ∧
      (flags ||| 2) &&& ~~~68 = flags &&& ~~~68 ||| 2 := by
  decide +kernel

/-- What is presented to the ring of a record after its reply was sent or not. -/
def presented (record : ControlRecord) (sent : Bool) (drops : ℕ) : ControlRecord :=
  { record with
    flags := if sent then record.flags ||| 2 else record.flags
    drops := BitVec.ofNat 64 drops }

/-- A presented record tells of its cycle what the record does. -/
theorem Told.presented {s : EpisodeState F64} {i : EpisodeInput F64} {record : ControlRecord} {status : U32}
    (h : Told s i record status) (sent : Bool) (drops : ℕ) : Told s i (presented record sent drops) status := by
  obtain ⟨hran, hacked, -⟩ := sent_flags record.flags
  cases sent with
  | false => exact ⟨h.ran, h.mark, h.reply, h.first, h.top⟩
  | true =>
    refine ⟨?_, ?_, h.reply, ?_, ?_⟩ <;>
      simp only [Lockstep.presented, if_true, hran, hacked]
    exacts [h.ran, h.mark, h.first, h.top]

/-! ## The recording of a run -/

/-- A datagram with what becomes of the reply and of the record. -/
structure Event where
  datagram : Datagram
  sent : Bool
  pushed : Bool

namespace Vehicle

/-- One turn of the loop of `run`, while it runs. -/
def step (v : Vehicle) (e : Event) : Vehicle :=
  if v.running then (v.receive e.datagram e.sent e.pushed).1 else v

/-- The loop of `run` over the datagrams that arrive. -/
def run (autoArm : Bool) (events : List Event) : Vehicle := events.foldl step (initial autoArm)

/-- The inputs that one turn hands to the policy. -/
def inputs (v : Vehicle) (e : Event) : List (EpisodeInput F64) :=
  if v.running then ((v.session.execution e.datagram).map Prod.snd).toList else []

/-- The inputs that a run hands to the policy. -/
def inputsOf : Vehicle → List Event → List (EpisodeInput F64)
  | _, [] => []
  | v, e :: rest => v.inputs e ++ inputsOf (v.step e) rest

/-- The inputs of one more turn. -/
theorem inputsOf_concat (v : Vehicle) (events : List Event) (e : Event) :
    v.inputsOf (events ++ [e]) = v.inputsOf events ++ (events.foldl step v).inputs e := by
  induction events generalizing v with
  | nil => simp [inputsOf]
  | cons e' rest ih => rw [List.cons_append, inputsOf, ih, inputsOf, List.append_assoc, List.foldl_cons]

/-- A datagram that executes the policy: what it leaves of the session, the record that is presented
to the ring and the reply that is sent. -/
theorem receive_new {v : Vehicle} {d : Datagram} (h : (v.session.receive d).2 = .new) (sent pushed : Bool) :
    ∃ f, d.frame = .ok f ∧
      v.session.execution d = some (f, Lockstep.inputsOf v.session.held v.session.up.logicalReceived f) ∧
      (v.receive d sent pushed).1.session.state = (v.session.execute f).state ∧
      (v.receive d sent pushed).1.records =
        v.records ++ [presented (v.session.execute f).record sent v.drops] ∧
      (v.receive d sent pushed).2 = if sent then some (v.session.execute f).reply else none := by
  obtain ⟨f, hframe, -, hexecuted⟩ := Session.core_of_new h
  rw [← Session.execute_core] at hexecuted
  have hstate : (v.session.receive d).1.state = (v.session.execute f).state := congrArg Core.state hexecuted
  have hrecord : (v.session.receive d).1.record = (v.session.execute f).record :=
    congrArg Core.record hexecuted
  have hreply : (v.session.receive d).1.reply = (v.session.execute f).reply := congrArg Core.reply hexecuted
  refine ⟨f, hframe, Session.execution_of_new h hframe, ?_⟩
  rw [← hstate, ← hrecord, ← hreply]
  unfold receive
  generalize v.session.receive d = x at h
  obtain ⟨t, kind⟩ := x
  obtain rfl : kind = .new := h
  cases sent <;> cases hsent : t.replyTransmitted <;>
    simp [Session.beginSend, Session.finishSend, Session.noteRecord, presented, hsent]

/-- Any other datagram leaves the policy and the records alone. -/
theorem receive_other {v : Vehicle} {d : Datagram} (h : (v.session.receive d).2 ≠ .new) (sent pushed : Bool) :
    v.session.execution d = none ∧ (v.receive d sent pushed).1.session.state = v.session.state ∧
      (v.receive d sent pushed).1.records = v.records := by
  have hstate : (v.session.receive d).1.state = v.session.state := congrArg Core.state (core_of_not_new h)
  refine ⟨Session.execution_of_not_new h, ?_⟩
  rw [← hstate]
  unfold receive
  generalize v.session.receive d = x at h
  obtain ⟨t, kind⟩ := x
  cases kind with
  | new => exact absurd rfl h
  | discard => exact ⟨rfl, rfl⟩
  | fatal => exact ⟨rfl, rfl⟩
  | cached =>
    cases sent <;> cases hsent : t.replyTransmitted <;>
      simp [Session.beginSend, Session.finishSend, hsent]

end Vehicle

/-- The command a record tells was run. -/
def markOf (record : ControlRecord) : Option (U32 × U8) :=
  if record.flags &&& 4 ≠ 0 then some (record.ackCmdSeq, record.ackStatus) else none

/-- The acknowledgement of the command that a cycle ran. -/
def markOfAck (a : Ack) : U32 × U8 := (a.cmdSeq, BitVec.ofNat 8 a.status.toNat)

omit [Arith F64] in
/-- The mark of a projected record is that of the command that was run. -/
theorem Projected.mark {acks : List Ack} {before after : ControlRecord} {ackByte : U8}
    (h : Projected acks before after ackByte) : markOf after = (acks.find? isApplied).map markOfAck := by
  cases hfound : acks.find? isApplied with
  | none =>
    have hany : acks.any isApplied = false := by
      rw [List.any_eq_false]
      exact fun b hb => List.find?_eq_none.mp hfound b hb
    have hflag : ¬after.flags &&& 4 ≠ 0 := by rw [h.applied, hany]; decide
    rw [markOf, if_neg hflag]
    rfl
  | some a =>
    have hany : acks.any isApplied = true :=
      List.any_eq_true.mpr ⟨a, List.mem_of_find?_eq_some hfound, List.find?_some hfound⟩
    obtain ⟨hnumber, hstatus⟩ := h.selected a (by rw [selectAck, hfound]; rfl)
    rw [markOf, if_pos (h.applied.mpr hany), hnumber, hstatus]
    rfl

omit [Arith F64] in
/-- Presenting a record keeps its mark. -/
theorem markOf_presented (record : ControlRecord) (sent : Bool) (drops : ℕ) :
    markOf (presented record sent drops) = markOf record := by
  cases sent with
  | false => rfl
  | true =>
    unfold markOf presented
    rw [if_pos rfl, (sent_flags record.flags).1]

/-! ## Reading the recording back -/

/-- What the recording shows of the inputs so far: one record a cycle, marked with the command that
the cycle ran. -/
structure Recorded (autoArm : Bool) (history : List (EpisodeInput F64)) (v : Vehicle) : Prop where
  state : v.session.state = Episode.stateAfter autoArm history
  marks : v.records.map markOf =
    (Machine.run Episode.advance (Episode.initial autoArm) history).2.map fun out =>
      (out.acks.find? isApplied).map markOfAck

/-- One more turn of the loop records its cycle. -/
theorem Recorded.turn {autoArm : Bool} {history : List (EpisodeInput F64)} {v : Vehicle}
    (h : Recorded autoArm history v) (e : Event) : Recorded autoArm (history ++ v.inputs e) (v.step e) := by
  unfold Vehicle.inputs Vehicle.step
  cases v.running with
  | false => simpa using h
  | true =>
    by_cases hnew : (v.session.receive e.datagram).2 = .new
    · obtain ⟨f, -, hlog, hstate, hrecords, -⟩ := Vehicle.receive_new hnew e.sent e.pushed
      simp only [if_true, hlog, Option.map_some, Option.toList_some]
      refine ⟨?_, ?_⟩
      · rw [hstate, Episode.stateAfter_concat, ← h.state]
        rfl
      · have hmark : markOf (v.session.execute f).record =
            ((Episode.step v.session.state
              (inputsOf v.session.held v.session.up.logicalReceived f)).acks.find? isApplied).map markOfAck :=
          (applyAcks_projected _ _).mark
        rw [hrecords, List.map_append, h.marks, Machine.run_append, List.map_append, List.map_singleton,
          markOf_presented, hmark, h.state]
        rfl
    · obtain ⟨hlog, hstate, hrecords⟩ := Vehicle.receive_other hnew e.sent e.pushed
      simp only [if_true, hlog, Option.map_none, Option.toList_none, List.append_nil]
      exact ⟨hstate.trans h.state, hrecords ▸ h.marks⟩

/-- What the recording of every run shows. -/
theorem recorded_run (autoArm : Bool) (events : List Event) :
    Recorded autoArm ((Vehicle.initial autoArm).inputsOf events) (Vehicle.run autoArm events) := by
  induction events using List.reverseRecOn with
  | nil => exact ⟨rfl, rfl⟩
  | append_singleton events e ih =>
    rw [Vehicle.inputsOf_concat, Vehicle.run, List.foldl_append]
    exact ih.turn e

omit [Arith F64] in
/-- Of a batch with at most one command that was run, the first such is all there is. -/
theorem filter_applied {acks : List Ack} (hone : acks.countP (fun a => decide (Episode.IsApplied a)) ≤ 1) :
    acks.filter (fun a => decide (Episode.IsApplied a)) = (acks.find? isApplied).toList := by
  have hsame : (fun a => decide (Episode.IsApplied a)) = isApplied := by
    funext b
    rw [Bool.eq_iff_iff, decide_eq_true_iff, isApplied_iff]
  rw [hsame, List.countP_eq_length_filter] at hone
  rw [hsame, ← List.head?_filter]
  generalize acks.filter isApplied = l at hone
  match l, hone with
  | [], _ => rfl
  | [a], _ => rfl

/-- The marks of a recording are those of the commands its ledger enters as run. -/
theorem Recorded.read_back {autoArm : Bool} {history : List (EpisodeInput F64)} {v : Vehicle}
    (h : Recorded autoArm history v) :
    v.records.filterMap markOf =
      ((Episode.ledger autoArm history).entries.filter fun e => decide (Episode.IsApplied e.ack)).map
        fun e => markOfAck e.ack := by
  have hledger : ((Episode.ledger autoArm history).entries.filter fun e => decide (Episode.IsApplied e.ack)).map
      (fun e => markOfAck e.ack) =
        (((Episode.ledger autoArm history).entries.map Episode.Entry.ack).filter
          fun a => decide (Episode.IsApplied a)).map markOfAck := by
    rw [List.filter_map, List.map_map]
    rfl
  have hmarks : v.records.filterMap markOf = (v.records.map markOf).filterMap id := by
    rw [List.filterMap_map]
    rfl
  rw [hledger, Episode.ledger_acks, hmarks, h.marks]
  clear h hledger hmarks
  induction history using List.reverseRecOn with
  | nil => rfl
  | append_singleton history i ih =>
    have hone := Episode.applied_le_one (Episode.stateAfter autoArm history) i
    rw [Machine.run_append, List.map_append, List.filterMap_append, ih, List.flatMap_append, List.filter_append,
      List.map_append]
    congr 1
    simp only [Machine.run_cons, Machine.run_nil, List.map_singleton, List.flatMap_singleton]
    rw [show (Episode.advance (Machine.run Episode.advance (Episode.initial autoArm) history).1 i).2.acks =
      (Episode.step (Episode.stateAfter autoArm history) i).acks from rfl, filter_applied hone]
    cases (Episode.step (Episode.stateAfter autoArm history) i).acks.find? isApplied <;> rfl

/-- No application is lost in the recording: a record and its reply tell whether their cycle ran a
command and under which number, and the records of a run, read in order, name each command that was
run exactly once. -/
theorem applications_recorded (autoArm : Bool) (events : List Event) :
    let v := Vehicle.run autoArm events
    let history := (Vehicle.initial autoArm).inputsOf events
    let applied := (Episode.ledger autoArm history).entries.filter fun e => decide (Episode.IsApplied e.ack)
    (∀ d sent pushed, (v.session.receive d).2 = .new → ∃ f record fields,
      let i := inputsOf v.session.held v.session.up.logicalReceived f
      d.frame = .ok f ∧ (v.receive d sent pushed).1.records = v.records ++ [record] ∧
        (v.receive d sent pushed).1.session.state = (Episode.step v.session.state i).state ∧
        (v.receive d sent pushed).2 =
          (if sent then some (replyFrame v.session.up.logicalReceived fields) else none) ∧
        Told v.session.state i record fields.status ∧
        record.flags &&& ~~~68 =
          ((recordOf i f (Episode.step v.session.state i)).flags &&& ~~~68) ||| if sent then 2 else 0) ∧
      v.session.state = Episode.stateAfter autoArm history ∧ v.records.length = history.length ∧
      v.records.filterMap markOf = applied.map (fun e => markOfAck e.ack) ∧
      (applied.map Episode.Entry.presented).Nodup ∧
      ∀ e ∈ applied, ∃ i c, history[e.presented]? = some i ∧ i.command = some c ∧ e.ack.cmdSeq = c.cmdSeq := by
  intro v history applied
  have hrecorded : Recorded autoArm history v := recorded_run autoArm events
  refine ⟨fun d sent pushed hnew => ?_, hrecorded.state, ?_, hrecorded.read_back,
    Episode.applied_nodup autoArm history, fun e he => ?_⟩
  · obtain ⟨f, hframe, -, hstate, hrecords, hreply⟩ := Vehicle.receive_new hnew sent pushed
    obtain ⟨fields, hfields, htold, hothers⟩ := execute_told v.session f
    refine ⟨f, _, fields, hframe, hrecords, hstate, hfields ▸ hreply, htold.presented sent v.drops, ?_⟩
    cases sent with
    | false => simpa [presented] using hothers
    | true => exact (sent_flags _).2.2.trans (congrArg (· ||| 2) hothers)
  · have hlength := congrArg List.length hrecorded.marks
    simpa using hlength
  · exact Episode.presented_run autoArm history e (List.mem_filter.mp he).1

end Tvc.Lockstep
