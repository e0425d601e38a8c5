import Tvc.Lib.Thinning
import Tvc.Recorder.Drain

/-!
# What the recorder keeps

Between the two threads lies the ring, and its invariant says how what was popped relates to what was
pushed. To it come the records the control thread has offered, what the drain has written, and the
shutdown: a pop that starts after the flag was seen reads a head that does not move any more.
-/

namespace Tvc.Recorder

open BoundedQueue (Queue)
open SpscRing (Words)
open Telem (ControlRecord FittingCounts encodeControl encodeFrame kControlV1PayloadBytes kFrameOverhead)

variable {w : ℕ} {β : Type}

/-! ## The file -/

/-- The payload of a record. -/
@[irreducible] def payloadOf (r : ControlRecord) : Bytes := (encodeControl (List.replicate kControlV1PayloadBytes 0) r).getD []

/-- The frame of a record. -/
def encoding (r : ControlRecord) (k : ℕ) : Bytes := encodeFrame 6 (BitVec.ofNat 32 k) (payloadOf r)

/-- The frames of the records, numbered from 0. -/
def encodings (records : List ControlRecord) : Bytes := (records.zipIdx.map fun x => encoding x.1 x.2).flatten

/-- One more record is one more frame. -/
theorem encodings_concat (records : List ControlRecord) (r : ControlRecord) :
    encodings (records ++ [r]) = encodings records ++ encoding r records.length := by
  simp [encodings, List.zipIdx_append]

/-- The payload of a record. -/
theorem encodeControl_of_fitting {r : ControlRecord} (h : FittingCounts r) :
    ∃ payload, encodeControl (List.replicate kControlV1PayloadBytes 0) r = some payload ∧
      payload.length = kControlV1PayloadBytes := by
  obtain ⟨payload, hpayload⟩ := Option.isSome_iff_exists.mp h.encoded
  refine ⟨payload, hpayload, ?_⟩
  unfold encodeControl at hpayload
  by_cases hcheck : ((List.replicate kControlV1PayloadBytes (0 : U8)).length != kControlV1PayloadBytes ||
      !Telem.validCounts r.rxCount r.discardedOld r.discardedSuperseded r.discardedOther) = true
  · rw [if_pos hcheck] at hpayload
    nomatch hpayload
  · rw [if_neg hcheck] at hpayload
    rw [← Option.some.inj hpayload]
    simp

/-- The payload is what the encoder writes. -/
theorem payloadOf_eq {r : ControlRecord} {payload : Bytes}
    (h : encodeControl (List.replicate kControlV1PayloadBytes 0) r = some payload) : payloadOf r = payload := by
  unfold payloadOf
  rw [h]
  rfl

/-- A file with all frames of the records written so far. -/
structure Drain.Holds (d : Drain w β) (header : Bytes) (records : List ControlRecord) : Prop where
  file : d.file = header ++ encodings records
  seq : d.seq = BitVec.ofNat 32 records.length
  count : d.records = records.length
  bytes : d.bytes = (kFrameOverhead + kControlV1PayloadBytes) * records.length

/-- What the drain does with a frame. -/
structure Drain.Wrote (d d' : Drain w β) (frame : Bytes) (written : ℕ) : Prop where
  file : d'.file = d.file ++ frame.take (min written frame.length)
  seq : d'.seq = d.seq + 1
  whole : min written frame.length = frame.length →
    d'.records = d.records + 1 ∧ d'.bytes = d.bytes + frame.length ∧ d'.writeFailed = d.writeFailed
  short : min written frame.length ≠ frame.length → d'.writeFailed = true

/-- A record that is encoded is written as a frame. -/
theorem Drain.wrote (d : Drain w β) {r : ControlRecord} {payload : Bytes}
    (h : encodeControl (List.replicate kControlV1PayloadBytes 0) r = some payload) (o : Outcome) :
    d.Wrote (d.writeRecord r o) (encodeFrame 6 d.seq payload) o.written := by
  unfold Drain.writeRecord
  rw [h]
  dsimp only
  generalize encodeFrame 6 d.seq payload = frame
  by_cases hwhole : min o.written frame.length = frame.length
  · have hmarked : (min o.written frame.length != frame.length) = false := bne_eq_false_iff_eq.mpr hwhole
    simp only [hmarked, Bool.false_eq_true, if_false]
    split
    · exact ⟨rfl, rfl, fun _ => ⟨rfl, rfl, rfl⟩, fun hshort => absurd hwhole hshort⟩
    · exact ⟨rfl, rfl, fun _ => ⟨rfl, rfl, rfl⟩, fun hshort => absurd hwhole hshort⟩
  · have hmarked : (min o.written frame.length != frame.length) = true := bne_iff_ne.mpr hwhole
    simp only [hmarked, if_true]
    split
    · exact ⟨rfl, rfl, fun h => absurd h hwhole, fun _ => rfl⟩
    · exact ⟨rfl, rfl, fun h => absurd h hwhole, fun _ => rfl⟩

/-- A write that is stored, or that is not found to fail, appends the frame of its record. -/
theorem Drain.Holds.concat {d : Drain w β} {header : Bytes} {records : List ControlRecord} (h : d.Holds header records)
    {r : ControlRecord} (hfits : FittingCounts r) {o : Outcome}
    (hkept : o.Stores ∨ (d.writeRecord r o).writeFailed = false) :
    (d.writeRecord r o).Holds header (records ++ [r]) ∧ (d.writeRecord r o).writeFailed = d.writeFailed := by
  obtain ⟨payload, hpayload, hlength⟩ := encodeControl_of_fitting hfits
  have hwrote := d.wrote hpayload o
  have hencoding : encoding r records.length = encodeFrame 6 d.seq payload := by
    rw [encoding, payloadOf_eq hpayload, h.seq]
  have hframe : (encodeFrame 6 d.seq payload).length = kFrameOverhead + kControlV1PayloadBytes := by
    rw [Telem.encodeFrame_length, hlength]
  have hgrown : (records ++ [r]).length = records.length + 1 := List.length_append
  generalize encodeFrame 6 d.seq payload = frame at hwrote hencoding hframe
  have hwhole : min o.written frame.length = frame.length := by
    rcases hkept with hstores | hwritten
    · exact min_eq_right (hframe ▸ hstores.1)
    · by_contra hshort
      have hfailed := hwrote.short hshort
      rw [hwritten] at hfailed
      nomatch hfailed
  obtain ⟨hrecords, hbytes, hsame⟩ := hwrote.whole hwhole
  refine ⟨⟨?_, ?_, ?_, ?_⟩, hsame⟩
  · rw [hwrote.file, h.file, hwhole, List.take_length, encodings_concat, hencoding, List.append_assoc]
  · rw [hwrote.seq, h.seq, hgrown, BitVec.ofNat_add]
    rfl
  · rw [hrecords, h.count, hgrown]
  · rw [hbytes, h.bytes, hframe, hgrown, Nat.mul_succ]

/-- A failure that is found stays found. -/
theorem Drain.writeFailed_writeRecord {d : Drain w β} (h : d.writeFailed = true) (r : ControlRecord) (o : Outcome) :
    (d.writeRecord r o).writeFailed = true := by
  cases hpayload : encodeControl (List.replicate kControlV1PayloadBytes 0) r with
  | none =>
    unfold Drain.writeRecord
    rw [hpayload]
  | some payload =>
    have hwrote := d.wrote hpayload o
    by_cases hwhole : min o.written (encodeFrame 6 d.seq payload).length = (encodeFrame 6 d.seq payload).length
    · exact (hwrote.whole hwhole).2.2.trans h
    · exact hwrote.short hwhole

/-- Closing keeps a file that is stored, or that is not found to be lost. -/
theorem Drain.Holds.closed {d : Drain w β} {header : Bytes} {records : List ControlRecord} (h : d.Holds header records)
    {o : Outcome} (hkept : o.Stores ∨ (d.close o).writeFailed = false) : (d.close o).Holds header records := by
  have hflushed : o.flushed = true := by
    rcases hkept with hstores | hwritten
    · exact hstores.2
    · by_contra hlost
      unfold Drain.close at hwritten
      rw [if_neg hlost] at hwritten
      dsimp only at hwritten
      split at hwritten <;> nomatch hwritten
  unfold Drain.close
  rw [if_pos hflushed]
  dsimp only
  split
  · exact ⟨h.file, h.seq, h.count, h.bytes⟩
  · exact ⟨h.file, h.seq, h.count, h.bytes⟩

/-- A failure that is found stays found. -/
theorem Drain.writeFailed_close {d : Drain w β} (h : d.writeFailed = true) (o : Outcome) :
    (d.close o).writeFailed = true := by
  unfold Drain.close
  dsimp only
  repeat' split
  all_goals first | rfl | exact h

/-- Writing a record leaves the shutdown alone. -/
theorem Drain.stopSeen_writeRecord (d : Drain w β) (r : ControlRecord) (o : Outcome) :
    (d.writeRecord r o).stopSeen = d.stopSeen := by
  unfold Drain.writeRecord
  split
  · rfl
  · dsimp only
    repeat' split
    all_goals rfl

/-- Closing leaves the shutdown alone. -/
theorem Drain.close_keeps (d : Drain w β) (o : Outcome) :
    (d.close o).stopSeen = d.stopSeen ∧ (d.close o).phase = .finished := by
  unfold Drain.close
  dsimp only
  repeat' split
  all_goals exact ⟨rfl, rfl⟩

/-! ## The invariant -/

/-- The records that were pushed, as the answers tell. -/
def pushedRecords (cycles : List ControlRecord) (answers : List Bool) : List ControlRecord :=
  (Thinning.kept 0 cycles answers).map fun x => stamped x.1 (BitVec.ofNat 64 x.2)

/-- Where the drain stands, given what was pushed, popped and written. -/
inductive Phase.At (stopSeen : Bool) (pushed popped written : List (Words w β)) : Phase w β → Prop
  | popping (hwritten : popped = written) : At stopSeen pushed popped written .popping
  | writing {batch : List (Words w β)} (hwritten : popped = written ++ batch) :
      At stopSeen pushed popped written (.writing batch)
  | checking (hwritten : popped = written) (hempty : stopSeen = true → popped = pushed) :
      At stopSeen pushed popped written .checking
  | closing (hwritten : popped = written) (hseen : stopSeen = true) (hempty : popped = pushed) :
      At stopSeen pushed popped written .closing
  | finished (hwritten : popped = written) (hseen : stopSeen = true) (hempty : popped = pushed) :
      At stopSeen pushed popped written .finished

/-- What the recorder keeps, while its writes are stored. -/
structure Inv (image : Image w β) (header : Bytes) (cycles : List ControlRecord) (s : System w β)
    (q : Queue (Words w β)) (cached : ℕ) (written : List (Words w β)) : Prop where
  ring : SpscRing.Inv s.ring q cached
  todo : s.todo = cycles.drop (s.answers.length + s.ring.producer.record.isSome.toNat)
  answered : s.answers.length ≤ cycles.length
  offered : ∀ r, s.ring.producer.record = some r →
    ∃ c, cycles[s.answers.length]? = some c ∧ r = image.store (stamped c (BitVec.ofNat 64 q.failures))
  pushed : q.pushed = (pushedRecords cycles s.answers).map image.store
  failures : q.failures = s.answers.count false
  stopped : s.stop = true → s.todo = [] ∧ s.ring.producer = .idle
  seen : s.drain.stopSeen = true → s.stop = true
  reading : ∀ x, s.ring.consumer.seen = some x →
    x.1 = kBatch ∧ (s.drain.stopSeen = true → x.2 = s.ring.ring.head)
  resting : s.ring.consumer = .idle ∨ s.drain.phase = .popping
  place : s.drain.phase.At s.drain.stopSeen q.pushed q.popped written
  holds : s.drain.Holds header (written.map image.load)

/-! ## The control thread -/

variable {image : Image w β} {header : Bytes} {cycles : List ControlRecord} {s : System w β} {q : Queue (Words w β)}
  {cached : ℕ} {written : List (Words w β)}

/-- One more answer adds the record it was about, or leaves it out. -/
theorem pushedRecords_concat {answers : List Bool} {c : ControlRecord} (h : cycles[answers.length]? = some c)
    (answer : Bool) :
    pushedRecords cycles (answers ++ [answer]) = pushedRecords cycles answers ++
      if answer then [stamped c (BitVec.ofNat 64 (answers.count false))] else [] := by
  rw [pushedRecords, Thinning.kept_concat h, List.map_append, pushedRecords]
  cases answer <;> simp

/-- A record is a cycle's record with another count of drops. -/
theorem mem_pushedRecords {answers : List Bool} {r : ControlRecord} (h : r ∈ pushedRecords cycles answers) :
    ∃ c ∈ cycles, ∃ drops, r = stamped c drops := by
  obtain ⟨⟨c, drops⟩, hkept, rfl⟩ := List.mem_map.mp h
  obtain ⟨k, hk⟩ := List.mem_iff_getElem?.mp hkept
  rw [← Nat.zero_add drops] at hk
  exact ⟨c, List.mem_iff_getElem?.mpr ⟨_, (Thinning.kept_getElem? hk).1⟩, _, rfl⟩

/-- The counts of what was pushed fit. -/
theorem Inv.fitting (h : Inv image header cycles s q cached written) (hfits : ∀ r ∈ cycles, FittingCounts r)
    {words : Words w β} (hwords : words ∈ q.pushed) : FittingCounts (image.load words) := by
  rw [h.pushed] at hwords
  obtain ⟨r, hr, rfl⟩ := List.mem_map.mp hwords
  obtain ⟨c, hc, drops, rfl⟩ := mem_pushedRecords hr
  rw [image.load_store]
  exact hfits c hc

/-- Before the flag is seen the drain stands where it stood, whatever is pushed. -/
theorem Phase.At.grow {phase : Phase w β} {pushed popped : List (Words w β)}
    (h : phase.At false pushed popped written) (pushed' : List (Words w β)) : phase.At false pushed' popped written := by
  cases h with
  | popping hwritten => exact .popping hwritten
  | writing hwritten => exact .writing hwritten
  | checking hwritten => exact .checking hwritten fun hseen => nomatch hseen
  | closing _ hseen => nomatch hseen
  | finished _ hseen => nomatch hseen

/-- While there is something to push, the flag is not seen. -/
theorem Inv.unseen (h : Inv image header cycles s q cached written) (hactive : s.todo ≠ [] ∨ s.ring.producer ≠ .idle) :
    s.drain.stopSeen = false := by
  by_contra hseen
  obtain ⟨htodo, hidle⟩ := h.stopped (h.seen (Bool.eq_true_of_not_eq_false hseen))
  exact hactive.elim (fun hne => hne htodo) fun hne => hne hidle

/-- A producer at rest has no record. -/
theorem record_eq_none {p : SpscRing.Producer w β} : p.record = none ↔ p = .idle := by
  cases p <;> simp [SpscRing.Producer.record]

variable [Inhabited β]

/-- After the last record the control thread stops the drain. -/
theorem controlStep_stop (hidle : s.ring.producer = .idle) (htodo : s.todo = []) :
    controlStep image s = { s with stop := true } := by
  unfold controlStep
  rw [hidle, htodo]

/-- At rest the control thread begins to push the next record. -/
theorem controlStep_begin {r : ControlRecord} {rest : List ControlRecord} (hidle : s.ring.producer = .idle)
    (htodo : s.todo = r :: rest) :
    controlStep image s =
      { s with ring := (SpscRing.tryPush s.ring (image.store (stamped r s.ring.ring.drops))).1, todo := rest } := by
  unfold controlStep
  rw [hidle, htodo]

/-- A push under way goes on. -/
theorem controlStep_busy {r : Words w β} (hbusy : s.ring.producer.record = some r) :
    controlStep image s =
      { s with
        ring := (SpscRing.tryPush s.ring default).1
        answers := noteAnswer s.answers (SpscRing.tryPush s.ring default).2 } := by
  unfold controlStep
  cases hpc : s.ring.producer with
  | idle =>
    rw [hpc] at hbusy
    nomatch hbusy
  | reload r' head => rfl
  | write r' head copied => rfl

/-- An access of the control thread keeps the invariant. -/
theorem Inv.control (h : Inv image header cycles s q cached written) :
    ∃ q' cached', Inv image header cycles (controlStep image s) q' cached' written := by
  cases hrecord : s.ring.producer.record with
  | none =>
    have hidle := record_eq_none.mp hrecord
    have hdone : s.todo = cycles.drop s.answers.length := by
      rw [h.todo, hrecord]
      rfl
    cases htodo : s.todo with
    | nil =>
      rw [controlStep_stop hidle htodo]
      exact ⟨q, cached, { h with stopped := fun _ => ⟨htodo, hidle⟩, seen := fun _ => rfl }⟩
    | cons r rest =>
      rw [controlStep_begin hidle htodo]
      obtain ⟨hnone, hbusy, hconsumer, hring⟩ := SpscRing.tryPush_idle hidle (image.store (stamped r s.ring.ring.drops))
      obtain ⟨-, cached', hinv⟩ := h.ring.tryPush (image.store (stamped r s.ring.ring.drops))
      rw [hnone] at hinv
      have hunseen := h.unseen (.inl (htodo ▸ List.cons_ne_nil r rest))
      have hnext : cycles[s.answers.length]? = some r := by
        rw [← List.head?_drop, ← hdone, htodo]
        rfl
      have hrest : rest = cycles.drop (s.answers.length + 1) := by
        rw [← List.tail_drop, ← hdone, htodo]
        rfl
      refine ⟨q, cached', hinv, ?_, h.answered, fun r' hr' => ?_, h.pushed, h.failures, fun hstop => ?_, h.seen,
        fun x hx => ?_, ?_, h.place, h.holds⟩
      · dsimp only
        rw [hbusy, hrest]
        rfl
      · dsimp only at hr'
        rw [hbusy] at hr'
        exact ⟨r, hnext, (Option.some.inj hr').symm.trans (by rw [h.ring.drops])⟩
      · have hempty := (h.stopped hstop).1
        rw [htodo] at hempty
        nomatch hempty
      · dsimp only at hx ⊢
        rw [hconsumer] at hx
        exact ⟨(h.reading x hx).1, fun hseen => absurd hseen (by rw [hunseen]; decide)⟩
      · dsimp only
        rw [hconsumer]
        exact h.resting
  | some r =>
    rw [controlStep_busy hrecord]
    have hbusy : s.ring.producer ≠ .idle := fun hidle => by
      rw [hidle] at hrecord
      nomatch hrecord
    have hunseen := h.unseen (.inr hbusy)
    obtain ⟨c, hc, hr⟩ := h.offered r hrecord
    have hroom : s.answers.length < cycles.length := (List.getElem?_eq_some_iff.mp hc).1
    obtain ⟨hconsumer, houtcome⟩ := SpscRing.tryPush_busy hrecord default
    obtain ⟨-, cached', hinv⟩ := h.ring.tryPush default
    have hreading : ∀ x, (SpscRing.tryPush s.ring default).1.consumer.seen = some x →
        x.1 = kBatch ∧ (s.drain.stopSeen = true → x.2 = (SpscRing.tryPush s.ring default).1.ring.head) := by
      intro x hx
      rw [hconsumer] at hx
      exact ⟨(h.reading x hx).1, fun hseen => absurd hseen (by rw [hunseen]; decide)⟩
    have hresting : (SpscRing.tryPush s.ring default).1.consumer = .idle ∨ s.drain.phase = .popping := by
      rw [hconsumer]
      exact h.resting
    have hplace := h.place
    rw [hunseen] at hplace
    rcases houtcome with ⟨hnone, hsame, -, -⟩ | ⟨hidle, hreturned⟩
    · rw [hnone] at hinv ⊢
      refine ⟨q, cached', hinv, ?_, h.answered, fun r' hr' => ?_, h.pushed, h.failures, fun hstop => ?_, h.seen,
        hreading, hresting, h.place, h.holds⟩
      · dsimp only [noteAnswer]
        rw [hsame, h.todo, hrecord]
      · dsimp only [noteAnswer] at hr' ⊢
        rw [hsame] at hr'
        obtain rfl : r = r' := Option.some.inj hr'
        exact ⟨c, hc, hr⟩
      · exact absurd (h.stopped hstop).2 hbusy
    · have htodo : ∀ answer, s.todo = cycles.drop ((s.answers ++ [answer]).length +
          (SpscRing.tryPush s.ring default).1.producer.record.isSome.toNat) := by
        intro answer
        rw [hidle, h.todo, hrecord, List.length_append]
        rfl
      have hanswered : ∀ answer, (s.answers ++ [answer]).length ≤ cycles.length := by
        intro answer
        rw [List.length_append]
        exact hroom
      have hoffered : ∀ (answers : List Bool) (n : ℕ) (r' : Words w β),
          (SpscRing.tryPush s.ring default).1.producer.record = some r' →
          ∃ c, cycles[answers.length]? = some c ∧ r' = image.store (stamped c (BitVec.ofNat 64 n)) := by
        intro answers n r' hr'
        rw [hidle] at hr'
        nomatch hr'
      have hplace' : ∀ pushed, s.drain.phase.At s.drain.stopSeen pushed q.popped written := by
        intro pushed
        rw [hunseen]
        exact hplace.grow pushed
      rcases hreturned with hpushed | hdropped
      · rw [hpushed] at hinv ⊢
        refine ⟨_, cached', hinv, htodo true, hanswered true, hoffered _ _, ?_, ?_, fun hstop => ?_, h.seen,
          hreading, hresting, hplace' _, h.holds⟩
        · dsimp only [noteAnswer, Queue.after]
          rw [pushedRecords_concat hc, if_pos rfl, List.map_append, h.pushed, hr, h.failures]
          rfl
        · dsimp only [noteAnswer, Queue.after]
          rw [h.failures, List.count_append]
          rfl
        · exact absurd (h.stopped hstop).2 hbusy
      · rw [hdropped] at hinv ⊢
        refine ⟨_, cached', hinv, htodo false, hanswered false, hoffered _ _, ?_, ?_, fun hstop => ?_, h.seen,
          hreading, hresting, hplace' _, h.holds⟩
        · dsimp only [noteAnswer, Queue.after]
          rw [pushedRecords_concat hc, h.pushed]
          simp
        · dsimp only [noteAnswer, Queue.after]
          rw [h.failures, List.count_append]
          rfl
        · exact absurd (h.stopped hstop).2 hbusy

/-! ## The drain thread -/

/-- An access of a pop. -/
theorem drainStep_popping (h : s.drain.phase = .popping) (o : Outcome) :
    drainStep image s o =
      { s with
        ring := (SpscRing.popBatch s.ring kBatch).1
        drain.phase := afterPop (SpscRing.popBatch s.ring kBatch).2 } := by
  unfold drainStep
  rw [h]

/-- An access of a pop keeps the invariant. -/
theorem Inv.pop (h : Inv image header cycles s q cached written) (hpopping : s.drain.phase = .popping) (o : Outcome) :
    ∃ cached', Inv image header cycles (drainStep image s o) (q.after (SpscRing.popBatch s.ring kBatch).2) cached' written := by
  rw [drainStep_popping hpopping]
  obtain ⟨hproducer, hhead, -⟩ := SpscRing.popBatch_keeps s.ring kBatch
  obtain ⟨-, cached', hinv⟩ := h.ring.popBatch kBatch
  have hwritten : q.popped = written := by
    have hplace := h.place
    rw [hpopping] at hplace
    cases hplace
    assumption
  have htodo : s.todo = cycles.drop (s.answers.length +
      (SpscRing.popBatch s.ring kBatch).1.producer.record.isSome.toNat) := by
    rw [hproducer]
    exact h.todo
  have hoffered : ∀ r, (SpscRing.popBatch s.ring kBatch).1.producer.record = some r →
      ∃ c, cycles[s.answers.length]? = some c ∧ r = image.store (stamped c (BitVec.ofNat 64 q.failures)) := by
    rw [hproducer]
    exact h.offered
  have hstopped : s.stop = true → s.todo = [] ∧ (SpscRing.popBatch s.ring kBatch).1.producer = .idle := by
    rw [hproducer]
    exact h.stopped
  have hholds : { s.drain with phase := afterPop (SpscRing.popBatch s.ring kBatch).2 }.Holds header
      (written.map image.load) := ⟨h.holds.file, h.holds.seq, h.holds.count, h.holds.bytes⟩
  rcases (SpscRing.popStep s.ring kBatch).cases with
    ⟨hnone, hseen⟩ | ⟨max, head, tail, out, next, copied, hcopy, hend, hout, hidle⟩
  · rw [hnone] at hinv hholds ⊢
    refine ⟨cached', hinv, htodo, h.answered, hoffered, h.pushed, h.failures, hstopped, h.seen, fun x hx => ?_,
      .inr rfl, .popping hwritten, hholds⟩
    dsimp only at hx ⊢
    rw [hhead]
    rcases hseen with ⟨-, hloaded⟩ | ⟨x', hx', hsame⟩
    · rw [hloaded] at hx
      obtain rfl := Option.some.inj hx
      exact ⟨rfl, fun _ => rfl⟩
    · rw [hsame] at hx
      obtain rfl := Option.some.inj hx
      exact h.reading x' hx'
  · have hreading : ∀ x, (SpscRing.popBatch s.ring kBatch).1.consumer.seen = some x →
        x.1 = kBatch ∧ (s.drain.stopSeen = true → x.2 = (SpscRing.popBatch s.ring kBatch).1.ring.head) := by
      intro x hx
      rw [hidle] at hx
      nomatch hx
    obtain ⟨hmax, hlast⟩ := h.reading (max, head) (by rw [hcopy]; rfl)
    obtain rfl : max = kBatch := hmax
    rw [hout] at hinv hholds ⊢
    cases out with
    | nil =>
      refine ⟨cached', hinv, htodo, h.answered, hoffered, h.pushed, h.failures, hstopped, h.seen, hreading,
        .inl hidle, .checking ?_ fun hseen => ?_, hholds⟩
      · rw [Queue.popped_after_popped, List.append_nil, hwritten]
      · rw [Queue.popped_after_popped, List.append_nil]
        exact h.ring.empty hcopy (by decide) hend (hlast hseen)
    | cons r rest =>
      refine ⟨cached', hinv, htodo, h.answered, hoffered, h.pushed, h.failures, hstopped, h.seen, hreading,
        .inl hidle, .writing ?_, hholds⟩
      rw [Queue.popped_after_popped, hwritten]

/-- The next record of a batch is written. -/
theorem drainStep_writing {r : Words w β} {rest : List (Words w β)} (h : s.drain.phase = .writing (r :: rest)) (o : Outcome) :
    drainStep image s o =
      { s with drain := { s.drain.writeRecord (image.load r) o with phase := .writing rest } } := by
  unfold drainStep
  rw [h]

/-- A batch that is written is followed by a pop. -/
theorem drainStep_written (h : s.drain.phase = .writing []) (o : Outcome) :
    drainStep image s o = { s with drain.phase := .popping } := by
  unfold drainStep
  rw [h]

/-- After an empty pop the drain ends, sees the flag or goes on. -/
theorem drainStep_checking (h : s.drain.phase = .checking) (o : Outcome) :
    drainStep image s o =
      if s.drain.stopSeen then { s with drain.phase := .closing }
      else if s.stop then { s with drain.stopSeen := true, drain.phase := .popping }
      else { s with drain.phase := .popping } := by
  unfold drainStep
  rw [h]

/-- The file is flushed and closed. -/
theorem drainStep_closing (h : s.drain.phase = .closing) (o : Outcome) :
    drainStep image s o = { s with drain := s.drain.close o } := by
  unfold drainStep
  rw [h]

/-- A drain that has ended does nothing. -/
theorem drainStep_finished (h : s.drain.phase = .finished) (o : Outcome) : drainStep image s o = s := by
  unfold drainStep
  rw [h]

/-- Writing, checking the flag and closing keep the invariant, if what is written is kept. -/
theorem Inv.work (h : Inv image header cycles s q cached written) (hfits : ∀ r ∈ cycles, FittingCounts r)
    (hbusy : s.drain.phase ≠ .popping) {o : Outcome}
    (hkept : o.Stores ∨ (drainStep image s o).drain.writeFailed = false) :
    ∃ written', Inv image header cycles (drainStep image s o) q cached written' := by
  have hidle : s.ring.consumer = .idle := h.resting.resolve_right hbusy
  have hreading : ∀ (stopSeen : Bool) x, s.ring.consumer.seen = some x →
      x.1 = kBatch ∧ (stopSeen = true → x.2 = s.ring.ring.head) := by
    intro stopSeen x hx
    rw [hidle] at hx
    nomatch hx
  have hplace := h.place
  cases hphase : s.drain.phase with
  | popping => exact absurd hphase hbusy
  | writing batch =>
    rw [hphase] at hplace
    cases hplace with
    | writing hwritten =>
      cases batch with
      | nil =>
        rw [drainStep_written hphase]
        rw [List.append_nil] at hwritten
        exact ⟨written, { h with
          resting := .inr rfl
          place := .popping hwritten
          holds := ⟨h.holds.file, h.holds.seq, h.holds.count, h.holds.bytes⟩ }⟩
      | cons r rest =>
        rw [drainStep_writing hphase] at hkept ⊢
        dsimp only at hkept
        have hpopped : r ∈ q.popped := by simp [hwritten]
        have hr := h.fitting hfits (h.ring.order.subset hpopped)
        have hseen := s.drain.stopSeen_writeRecord (image.load r) o
        obtain ⟨hholds, -⟩ := h.holds.concat hr hkept
        generalize s.drain.writeRecord (image.load r) o = d at hseen hholds
        refine ⟨written ++ [r], { h with
          seen := fun hstop => h.seen (hseen ▸ hstop)
          reading := hreading _
          resting := .inl hidle
          place := .writing ?_
          holds := ?_ }⟩
        · rw [hwritten, List.append_assoc]
          rfl
        · rw [List.map_append]
          exact ⟨hholds.file, hholds.seq, hholds.count, hholds.bytes⟩
  | checking =>
    rw [hphase] at hplace
    rw [drainStep_checking hphase]
    have hholds : ∀ (stopSeen : Bool) (phase : Phase w β), { s.drain with stopSeen, phase }.Holds header (written.map image.load) :=
      fun _ _ => ⟨h.holds.file, h.holds.seq, h.holds.count, h.holds.bytes⟩
    cases hplace with
    | checking hwritten hempty =>
      split
      · rename_i hseen
        exact ⟨written, { h with
          resting := .inl hidle
          place := .closing hwritten hseen (hempty hseen)
          holds := hholds _ _ }⟩
      · split
        · rename_i hstop
          exact ⟨written, { h with
            seen := fun _ => hstop
            reading := hreading _
            resting := .inr rfl
            place := .popping hwritten
            holds := hholds _ _ }⟩
        · exact ⟨written, { h with
            resting := .inr rfl
            place := .popping hwritten
            holds := hholds _ _ }⟩
  | closing =>
    rw [hphase] at hplace
    rw [drainStep_closing hphase] at hkept ⊢
    obtain ⟨hseen, hfinished⟩ := s.drain.close_keeps o
    have hholds := h.holds.closed hkept
    cases hplace with
    | closing hwritten hstop hempty =>
      refine ⟨written, { h with
        seen := fun hstop => h.seen (hseen ▸ hstop)
        reading := hreading _
        resting := .inl hidle
        place := ?_
        holds := hholds }⟩
      dsimp only
      rw [hfinished, hseen]
      exact .finished hwritten hstop hempty
  | finished =>
    rw [drainStep_finished hphase]
    exact ⟨written, h⟩

/-! ## Whole runs -/

/-- A move whose writes, if any, are stored. -/
def Move.Stores : Move → Prop
  | .control => True
  | .drain o => o.Stores

/-- An access keeps the invariant, if what is written is kept. -/
theorem Inv.step (h : Inv image header cycles s q cached written) (hfits : ∀ r ∈ cycles, FittingCounts r) {move : Move}
    (hkept : move.Stores ∨ (step image s move).drain.writeFailed = false) :
    ∃ q' cached' written', Inv image header cycles (step image s move) q' cached' written' := by
  cases move with
  | control =>
    obtain ⟨q', cached', hnext⟩ := h.control
    exact ⟨q', cached', written, hnext⟩
  | drain o =>
    by_cases hpopping : s.drain.phase = .popping
    · obtain ⟨cached', hnext⟩ := h.pop hpopping o
      exact ⟨_, cached', written, hnext⟩
    · obtain ⟨written', hnext⟩ := h.work hfits hpopping hkept
      exact ⟨q, cached, written', hnext⟩

/-- A failure that is found stays found. -/
theorem writeFailed_step (h : s.drain.writeFailed = true) (move : Move) :
    (step image s move).drain.writeFailed = true := by
  cases move with
  | control =>
    simp only [step, controlStep]
    split <;> exact h
  | drain o =>
    rw [step]
    cases hphase : s.drain.phase with
    | popping =>
      rw [drainStep_popping hphase]
      exact h
    | writing batch =>
      cases batch with
      | nil =>
        rw [drainStep_written hphase]
        exact h
      | cons r rest =>
        rw [drainStep_writing hphase]
        dsimp only
        exact Drain.writeFailed_writeRecord h (image.load r) o
    | checking =>
      rw [drainStep_checking hphase]
      repeat' split
      all_goals exact h
    | closing =>
      rw [drainStep_closing hphase]
      exact Drain.writeFailed_close h o
    | finished =>
      rw [drainStep_finished hphase]
      exact h

/-- A run goes on where it stood. -/
theorem run_append (image : Image w β) (s : System w β) (first second : List Move) :
    run image s (first ++ second) = run image (run image s first) second := List.foldl_append

/-- The system as it starts has offered, popped and written nothing. -/
theorem inv_initial (image : Image w β) (header : Bytes) (connected : Bool) (cycles : List ControlRecord)
    (slots : Fin SpscRing.kSlots → Words w β) :
    ∃ q cached, Inv image header cycles (initial slots header connected cycles) q cached [] := by
  obtain ⟨cached, hring⟩ := SpscRing.inv_run slots []
  refine ⟨{}, cached, hring, rfl, Nat.zero_le _, fun r hr => ?_, ?_, rfl, fun hstop => ?_, fun hseen => ?_, fun x hx => ?_,
    .inl rfl, .popping rfl, ⟨?_, rfl, rfl, rfl⟩⟩
  · nomatch hr
  · simp [initial, pushedRecords]
  · nomatch hstop
  · nomatch hseen
  · nomatch hx
  · simp [initial, encodings]

/-- Every interleaving keeps the invariant, if every write is stored or no failure is found. -/
theorem inv_run (image : Image w β) (header : Bytes) (connected : Bool) {cycles : List ControlRecord}
    (hfits : ∀ r ∈ cycles, FittingCounts r) (slots : Fin SpscRing.kSlots → Words w β) (moves : List Move)
    (hkept : (∀ move ∈ moves, move.Stores) ∨
      (run image (initial slots header connected cycles) moves).drain.writeFailed = false) :
    ∃ q cached written,
      Inv image header cycles (run image (initial slots header connected cycles) moves) q cached written := by
  induction moves using List.reverseRecOn with
  | nil =>
    obtain ⟨q, cached, h⟩ := inv_initial image header connected cycles slots
    exact ⟨q, cached, [], h⟩
  | append_singleton moves move ih =>
    rw [run_append] at hkept ⊢
    have hbefore : (∀ move ∈ moves, move.Stores) ∨
        (run image (initial slots header connected cycles) moves).drain.writeFailed = false := by
      rcases hkept with hstores | hfound
      · exact .inl fun m hm => hstores m (List.mem_append_left _ hm)
      · refine .inr (Bool.eq_false_iff.mpr fun hfailed => ?_)
        exact Bool.false_ne_true (hfound.symm.trans (writeFailed_step hfailed move))
    obtain ⟨q, cached, written, h⟩ := ih hbefore
    exact h.step hfits (hkept.imp_left fun hstores => hstores move (by simp))

end Tvc.Recorder
