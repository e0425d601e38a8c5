import Mathlib.Data.Bool.Count
import Tvc.Recorder.Ending
import Tvc.Recorder.Reader

/-!
# Complete recordings

When the drain has ended, what was pushed was popped and written: the last pop began after the flag was
seen, and found nothing. So a recording holds every record that was pushed, and what it lacks its records
tell by their drops.
-/

namespace Tvc.Recorder

open Telem (ControlRecord FittingCounts crc32c encodeRecordingHeader kControlV1SchemaHash)
open SpscRing (Words)

/-- The records of successive cycles, as a control thread offers them. -/
structure Cycles where
  records : List ControlRecord
  base : U64
  ticks : ∀ (i : ℕ) r, records[i]? = some r → r.tick = base + BitVec.ofNat 64 i
  fits : ∀ r ∈ records, FittingCounts r

/-- A pushed record is that of a cycle, after as many drops as it carries. -/
structure Cycles.PushedAt (c : Cycles) (answers : List Bool) (k drops : ℕ) (r : ControlRecord) : Prop where
  offered : ∃ r₀, c.records[k + drops]? = some r₀ ∧ r = stamped r₀ (BitVec.ofNat 64 drops)
  accepted : answers[k + drops]? = some true
  before : (answers.take (k + drops)).count false = drops
  tick : r.tick = c.base + BitVec.ofNat 64 k + r.drops

/-- Every pushed record is that of a cycle. -/
theorem Cycles.pushedAt (c : Cycles) {answers : List Bool} {k : ℕ} {r : ControlRecord}
    (h : (pushedRecords c.records answers)[k]? = some r) : ∃ drops, c.PushedAt answers k drops r := by
  rw [pushedRecords, List.getElem?_map, Option.map_eq_some_iff] at h
  obtain ⟨⟨r₀, drops⟩, hkept, rfl⟩ := h
  rw [← Nat.zero_add drops] at hkept
  obtain ⟨hoffered, haccepted, hbefore⟩ := Thinning.kept_getElem? hkept
  refine ⟨drops, ⟨r₀, hoffered, rfl⟩, haccepted, hbefore, ?_⟩
  have htick := c.ticks _ _ hoffered
  rw [BitVec.ofNat_add, ← BitVec.add_assoc] at htick
  exact htick

/-- The gap of two ticks tells the drops between them, in the arithmetic of the fields and, where the ticks
do not wrap, in that of the integers. -/
structure Explained (base : U64) (cycles : ℕ) (r r' : ControlRecord) : Prop where
  gap : r'.tick - r.tick - 1 = r'.drops - r.drops
  integers : base.toNat + cycles ≤ 2 ^ 64 →
    (r'.tick.toNat : ℤ) - r.tick.toNat - 1 = (r'.drops.toNat : ℤ) - r.drops.toNat

/-- Consecutive records explain the ticks between them. -/
theorem Cycles.explained (c : Cycles) {answers : List Bool} {k : ℕ} {r r' : ControlRecord}
    (h : (pushedRecords c.records answers)[k]? = some r) (h' : (pushedRecords c.records answers)[k + 1]? = some r') :
    Explained c.base c.records.length r r' := by
  obtain ⟨drops, hpushed⟩ := c.pushedAt h
  obtain ⟨drops', hpushed'⟩ := c.pushedAt h'
  obtain ⟨r₀, hoffered, hr⟩ := hpushed.offered
  obtain ⟨r₀', hoffered', hr'⟩ := hpushed'.offered
  have hdrops : r.drops = BitVec.ofNat 64 drops := by rw [hr]; rfl
  have hdrops' : r'.drops = BitVec.ofNat 64 drops' := by rw [hr']; rfl
  have hplace := (List.getElem?_eq_some_iff.mp hoffered).1
  have hplace' := (List.getElem?_eq_some_iff.mp hoffered').1
  constructor
  · rw [hpushed.tick, hpushed'.tick, BitVec.ofNat_add]
    generalize BitVec.ofNat 64 k = place
    bv_omega
  · intro hroom
    have htick := congrArg BitVec.toNat hpushed.tick
    have htick' := congrArg BitVec.toNat hpushed'.tick
    rw [hdrops] at htick ⊢
    rw [hdrops'] at htick' ⊢
    simp only [BitVec.toNat_add, BitVec.toNat_ofNat] at htick htick' ⊢
    omega

/-- A drain that has ended has written what was pushed. -/
theorem Inv.complete {w : ℕ} {β : Type} {image : Image w β} {header : Bytes} {cycles : List ControlRecord} {s : System w β}
    {q : BoundedQueue.Queue (Words w β)} {cached : ℕ} {written : List (Words w β)}
    (h : Inv image header cycles s q cached written) (hfinished : s.drain.phase = .finished) :
    s.answers.length = cycles.length ∧ written = q.pushed ∧
      s.drain.Holds header (pushedRecords cycles s.answers) := by
  have hplace := h.place
  rw [hfinished] at hplace
  cases hplace with
  | finished hwritten hseen hempty =>
    obtain ⟨htodo, hidle⟩ := h.stopped (h.seen hseen)
    have hdone : cycles.drop s.answers.length = [] := by
      rw [← htodo, h.todo, hidle]
      rfl
    have hpushed : written.map image.load = pushedRecords cycles s.answers := by
      rw [← hwritten, hempty, h.pushed, List.map_map]
      exact List.map_id'' image.load_store _
    have hholds := h.holds
    rw [hpushed] at hholds
    exact ⟨h.answered.antisymm (List.drop_eq_nil_iff.mp hdone), hwritten.symm.trans hempty, hholds⟩

/-- When nothing was dropped, every cycle's record was pushed as it was offered. -/
theorem pushedRecords_of_undropped {cycles : List ControlRecord} {answers : List Bool}
    (hlength : answers.length = cycles.length) (hnone : answers.count false = 0) (hdrops : ∀ r ∈ cycles, r.drops = 0) :
    pushedRecords cycles answers = cycles := by
  rw [pushedRecords, Thinning.kept_of_accepted hlength hnone, List.map_map]
  conv_rhs => rw [← List.map_id cycles]
  refine List.map_congr_left fun r hr => ?_
  exact congrArg (stamped r) (hdrops r hr).symm

/-- A drain that has ended without a failure, after no drop, leaves a clean recording of all cycles. -/
theorem recording_of_undropped {w : ℕ} {β : Type} [Inhabited β] {image : Image w β} {slots : Fin SpscRing.kSlots → Words w β}
    {monoNs epochNs : U64} {connected : Bool} {cycles : List ControlRecord} (hfits : ∀ r ∈ cycles, FittingCounts r)
    (hdrops : ∀ r ∈ cycles, r.drops = 0) {moves : List Move} {s : System w β}
    (hs : s = run image (initial slots (encodeRecordingHeader monoNs epochNs kControlV1SchemaHash) connected cycles) moves)
    (hfinished : s.drain.phase = .finished) (hwritten : s.drain.writeFailed = false) (hnone : s.answers.count false = 0) :
    Wire.readTypedRecording crc32c s.drain.file 6 =
        .ok (controlHeader monoNs epochNs, cycles.map Wire.controlDict, { framesOk := cycles.length }) ∧
      s.answers.length = cycles.length ∧ s.drain.records = cycles.length := by
  subst hs
  obtain ⟨q, cached, written, h⟩ := inv_run image _ connected hfits slots moves (.inr hwritten)
  obtain ⟨hanswered, -, hholds⟩ := h.complete hfinished
  rw [pushedRecords_of_undropped hanswered hnone hdrops] at hholds
  refine ⟨?_, hanswered, hholds.count⟩
  rw [hholds.file]
  exact readTypedRecording_encodings monoNs epochNs hfits

/-- Nothing recorded is lost. When the drain of an interleaving has ended and its writes were stored, the
recording holds the records that were pushed, in the order of the cycles and numbered from 0, and the
reader returns them from a clean recording. A cycle is pushed or dropped, and the drops that the records
carry explain every missing tick. -/
theorem recording_complete {w : ℕ} {β : Type} [Inhabited β] (image : Image w β) (slots : Fin SpscRing.kSlots → Words w β)
    (monoNs epochNs : U64) (connected : Bool) (c : Cycles) (moves : List Move)
    (hfinished : (run image
      (initial slots (encodeRecordingHeader monoNs epochNs kControlV1SchemaHash) connected c.records) moves).drain.phase =
        .finished)
    (hstores : ∀ move ∈ moves, move.Stores) :
    let header := encodeRecordingHeader monoNs epochNs kControlV1SchemaHash
    let s := run image (initial slots header connected c.records) moves
    let pushed := pushedRecords c.records s.answers
    (s.answers.length = c.records.length ∧ pushed.length = s.answers.count true ∧
        s.ring.ring.drops = BitVec.ofNat 64 (s.answers.count false) ∧
        pushed.length + s.answers.count false = c.records.length) ∧
      (header.length = 32 ∧ s.drain.file = header ++ encodings pushed ∧ s.drain.records = pushed.length ∧
        s.drain.bytes = 142 * pushed.length) ∧
      Wire.readTypedRecording crc32c s.drain.file 6 =
        .ok (controlHeader monoNs epochNs, pushed.map Wire.controlDict, { framesOk := pushed.length }) ∧
      (∀ k r, pushed[k]? = some r → ∃ drops, c.PushedAt s.answers k drops r) ∧
      ∀ k r r', pushed[k]? = some r → pushed[k + 1]? = some r' → Explained c.base c.records.length r r' := by
  intro header s pushed
  obtain ⟨q, cached, written, h⟩ := inv_run image header connected c.fits slots moves (.inl hstores)
  obtain ⟨hanswered, hwritten, hfile⟩ := h.complete hfinished
  have hfits : ∀ r ∈ pushed, FittingCounts r := by
    intro r hr
    obtain ⟨r₀, hr₀, drops, rfl⟩ := mem_pushedRecords hr
    exact c.fits r₀ hr₀
  have hlength : pushed.length = s.answers.count true :=
    (List.length_map _).trans (Thinning.kept_length hanswered.le)
  have hcounts : s.answers.count true + s.answers.count false = s.answers.length := List.count_true_add_count_false _
  refine ⟨⟨hanswered, hlength, ?_, ?_⟩, ⟨?_, hfile.file, hfile.count, hfile.bytes⟩, ?_, fun k r hr => c.pushedAt hr,
    fun k r r' hr hr' => c.explained hr hr'⟩
  · rw [h.ring.drops, h.failures]
  · rw [hlength, hcounts, hanswered]
  · exact encodeRecordingHeader_length monoNs epochNs kControlV1SchemaHash
  · rw [hfile.file]
    exact readTypedRecording_encodings monoNs epochNs hfits

/-- A record that is copied in one piece. -/
def wholeImage : Image 1 ControlRecord where
  store r _ := r
  load words := words 0
  load_store _ := rfl

instance : Inhabited ControlRecord := ⟨{}⟩

/-- Two cycles. -/
def twoCycles : Cycles where
  records := [{ tick := 5 }, { tick := 6 }]
  base := 5
  ticks i r h := by
    match i with
    | 0 | 1 => exact (Option.some.inj h) ▸ rfl
    | i + 2 => nomatch h
  fits := by
    unfold FittingCounts
    decide

/-- A run of two cycles in which the first record is pushed before the drain looks, and the drain ends. -/
theorem recording_complete_two :
    ∃ more, (Wire.readTypedRecording crc32c
      (run wholeImage (initial (fun _ _ => {}) (encodeRecordingHeader 0 0 kControlV1SchemaHash) false twoCycles.records)
        (List.replicate 3 .control ++ more)).drain.file 6).isOk = true := by
  have hpushing : ∀ move ∈ List.replicate 3 Move.control, move.Stores := by
    intro move hmove
    rw [List.eq_of_mem_replicate hmove]
    trivial
  obtain ⟨more, hstores, hfinished⟩ := can_end wholeImage (encodeRecordingHeader 0 0 kControlV1SchemaHash) false
    twoCycles.fits (fun _ _ => {}) hpushing
  have hread := (recording_complete wholeImage (fun _ _ => {}) 0 0 false twoCycles _ hfinished hstores).2.2.1
  refine ⟨more, ?_⟩
  rw [hread]
  rfl

end Tvc.Recorder
