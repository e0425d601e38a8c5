import Tvc.Lib.Resync
import Tvc.Telemetry

/-!
# The stream decoder of `src/telemetry.cpp`

`decode_stream` looks for frames in a buffer. A sync word whose header is cut off, or whose frame runs
past the end of the buffer, ends the search; one that fails a check is stepped over. The checksum is
a parameter: nothing about the search depends on what it computes.

Positions and counters are natural numbers, since a buffer is shorter than `2^64` bytes. The sum of the
lost frames is the exception: it is kept modulo `2^64`, as its counter is.
-/

namespace Tvc.Telem

open ByteStore
open Resync (Verdict)

/-- `kMaxPayload`. -/
def kMaxPayload : ℕ := 498

/-- `DecodeCounters`. -/
structure DecodeCounters where
  framesOk : ℕ := 0
  crcErrors : ℕ := 0
  versionMismatch : ℕ := 0
  resyncs : ℕ := 0
  seqDiscontinuities : ℕ := 0
  lost : ℕ := 0
  skippedBytes : ℕ := 0
  deriving DecidableEq, Repr

/-- The check that fails behind a sync word. -/
inductive Refusal
  | version | header | crc
  deriving DecidableEq, Repr

/-- What the decoder notes: a refusal, or a frame with its type, its number and its payload size. -/
abbrev StreamEvent := Resync.Event (U8 × U32 × ℕ) Refusal

/-- The checks of one turn of the loop, in order. -/
def lookAt (crc : Bytes → U32) (data : Bytes) (pos : ℕ) : Verdict (U8 × U32 × ℕ) Refusal :=
  if data.length < pos + 2 then .stop
  else if !(getU8 data pos == 0x90 && getU8 data (pos + 1) == 0xEB) then .skip
  else if data.length < pos + kFrameOverhead - 4 then .stop
  else
    let ver := getU8 data (pos + 2)
    let type := getU8 data (pos + 3)
    let plen := (getU16Le data (pos + 4)).toNat
    if ver != kVersion then .refuse .version
    else if !(1 ≤ type.toNat && type.toNat ≤ 6) || kMaxPayload < plen then .refuse .header
    else
      let stop := pos + kFrameOverhead + plen
      if data.length < stop then .stop
      else if getU32Le data (stop - 4) != crc (load data (pos + 2) (8 + plen)) then .refuse .crc
      else .accept (type, getU32Le data (pos + 6), plen) (kFrameOverhead + plen)

/-- The variables of the loop beside the position. -/
structure Tally where
  ctr : DecodeCounters := {}
  locked : Bool := true
  expected : Option U32 := none
  consumed : ℕ := 0
  out : List DecodedFrame := []

/-- The frames missing before a frame, if its number is ahead of the expected one. -/
def DecodeCounters.noteGap (ctr : DecodeCounters) (expected : Option U32) (seq : U32) : DecodeCounters :=
  match expected with
  | none => ctr
  | some expected =>
    let gap := (seq - expected).toNat
    if 1 ≤ gap && gap < 0x80000000 then { ctr with lost := (ctr.lost + gap) % 2 ^ 64 }
    else if 0x80000000 ≤ gap then { ctr with seqDiscontinuities := ctr.seqDiscontinuities + 1 }
    else ctr

/-- One turn of the loop, after its checks: the lambda `fail`, or the acceptance of a frame. -/
def Tally.note (t : Tally) : StreamEvent → Tally
  | .refused why =>
    { t with
      ctr :=
        { t.ctr with
          versionMismatch := t.ctr.versionMismatch + (why == .version).toNat
          crcErrors := t.ctr.crcErrors + (why == .crc).toNat
          resyncs := t.ctr.resyncs + t.locked.toNat }
      locked := false }
  | .accepted pos (type, seq, plen) size =>
    { ctr := { t.ctr.noteGap t.expected seq with framesOk := t.ctr.framesOk + 1 }
      locked := true
      expected := some (seq + 1)
      consumed := t.consumed + size
      out := t.out ++ [⟨type, seq, pos + 10, plen⟩] }

/-- `decode_stream`. -/
def decodeStream (crc : Bytes → U32) (data : Bytes) : List DecodedFrame × DecodeCounters :=
  let t := Resync.walk (lookAt crc data) Tally.note (data.length + 1) 0 {}
  (t.out, { t.ctr with skippedBytes := data.length - t.consumed })

/-! ## The search -/

section Search

variable (crc : Bytes → U32) (data : Bytes)

/-- The decoder stops at the end of the buffer and accepts what lies inside. -/
theorem bounded_lookAt : Resync.Bounded (lookAt crc data) data.length where
  stop pos hpos := by rw [lookAt, if_pos (by omega)]
  accept pos item size h := by
    simp only [lookAt] at h
    repeat' split at h
    all_goals first | contradiction | skip
    rename_i hend _
    obtain ⟨-, rfl⟩ := Verdict.accept.inj h
    simp only [kFrameOverhead] at hend ⊢
    omega

/-- The decoder ends, whatever the buffer holds. -/
theorem scan_lookAt : ∃ events, Resync.Scan (lookAt crc data) 0 events := (bounded_lookAt crc data).scan 0

end Search

/-! ## The counts of a list of events -/

/-- The frames of the events. -/
def framesOf (events : List StreamEvent) : List DecodedFrame :=
  (Resync.items events).map fun x => ⟨x.2.1.1, x.2.1.2.1, x.1 + 10, x.2.1.2.2⟩

/-- How often the decoder loses its lock. -/
def resyncsFrom : Bool → List StreamEvent → ℕ
  | _, [] => 0
  | locked, .refused _ :: rest => locked.toNat + resyncsFrom false rest
  | _, .accepted _ _ _ :: rest => resyncsFrom true rest

/-- The frames missing in a list of numbers. -/
def lostFrom : Option U32 → List U32 → ℕ
  | _, [] => 0
  | none, seq :: rest => lostFrom (some (seq + 1)) rest
  | some expected, seq :: rest =>
    (if (seq - expected).toNat < 0x80000000 then (seq - expected).toNat else 0) + lostFrom (some (seq + 1)) rest

/-- How often a number is behind the expected one. -/
def jumpsFrom : Option U32 → List U32 → ℕ
  | _, [] => 0
  | none, seq :: rest => jumpsFrom (some (seq + 1)) rest
  | some expected, seq :: rest =>
    (decide (0x80000000 ≤ (seq - expected).toNat)).toNat + jumpsFrom (some (seq + 1)) rest

/-- The refusals of a kind. -/
def refusals (why : Refusal) : List StreamEvent → ℕ
  | [] => 0
  | .refused why' :: rest => (why' == why).toNat + refusals why rest
  | .accepted _ _ _ :: rest => refusals why rest

/-- The numbers of a list of frames. -/
def seqsOf (frames : List DecodedFrame) : List U32 := frames.map DecodedFrame.seq

@[simp] theorem framesOf_refused (why : Refusal) (events : List StreamEvent) :
    framesOf (.refused why :: events) = framesOf events := rfl

@[simp] theorem framesOf_accepted (pos size plen : ℕ) (type : U8) (seq : U32) (events : List StreamEvent) :
    framesOf (.accepted pos (type, seq, plen) size :: events) = ⟨type, seq, pos + 10, plen⟩ :: framesOf events := rfl

@[simp] theorem seqsOf_cons (frame : DecodedFrame) (frames : List DecodedFrame) :
    seqsOf (frame :: frames) = frame.seq :: seqsOf frames := rfl

/-- The gap before a frame, counted as lost frames or as a jump. -/
theorem DecodeCounters.noteGap_eq {ctr : DecodeCounters} (hlost : ctr.lost < 2 ^ 64) (expected : Option U32)
    (seq : U32) : ctr.noteGap expected seq =
      { ctr with
        lost := (ctr.lost + lostFrom expected [seq]) % 2 ^ 64
        seqDiscontinuities := ctr.seqDiscontinuities + jumpsFrom expected [seq] } := by
  have hkept : ctr.lost % 18446744073709551616 = ctr.lost := Nat.mod_eq_of_lt hlost
  cases expected with
  | none => simp [noteGap, lostFrom, jumpsFrom, hkept]
  | some expected =>
    simp only [noteGap, lostFrom, jumpsFrom]
    generalize (seq - expected).toNat = gap
    by_cases hbehind : 0x80000000 ≤ gap
    · simp [hbehind, Nat.not_lt.mpr hbehind, hkept]
    · by_cases hzero : gap = 0
      · simp [hzero, hkept]
      · simp [hbehind, Nat.lt_of_not_le hbehind, Nat.one_le_iff_ne_zero.mpr hzero]

/-- The first number of a list sets the expected one. -/
theorem lostFrom_cons (expected : Option U32) (seq : U32) (rest : List U32) :
    lostFrom expected (seq :: rest) = lostFrom expected [seq] + lostFrom (some (seq + 1)) rest := by
  cases expected <;> simp [lostFrom]

/-- The first number of a list sets the expected one. -/
theorem jumpsFrom_cons (expected : Option U32) (seq : U32) (rest : List U32) :
    jumpsFrom expected (seq :: rest) = jumpsFrom expected [seq] + jumpsFrom (some (seq + 1)) rest := by
  cases expected <;> simp [jumpsFrom]

/-- What a list of events adds to a tally. -/
structure Tally.Adds (t : Tally) (events : List StreamEvent) (last : Tally) : Prop where
  out : last.out = t.out ++ framesOf events
  consumed : last.consumed = t.consumed + Resync.taken (Resync.items events)
  framesOk : last.ctr.framesOk = t.ctr.framesOk + (framesOf events).length
  crcErrors : last.ctr.crcErrors = t.ctr.crcErrors + refusals .crc events
  versionMismatch : last.ctr.versionMismatch = t.ctr.versionMismatch + refusals .version events
  resyncs : last.ctr.resyncs = t.ctr.resyncs + resyncsFrom t.locked events
  seqDiscontinuities : last.ctr.seqDiscontinuities =
    t.ctr.seqDiscontinuities + jumpsFrom t.expected (seqsOf (framesOf events))
  lost : last.ctr.lost = (t.ctr.lost + lostFrom t.expected (seqsOf (framesOf events))) % 2 ^ 64

/-- The tally after a list of events. -/
theorem Tally.adds {t : Tally} (ht : t.ctr.lost < 2 ^ 64) (events : List StreamEvent) :
    t.Adds events (events.foldl Tally.note t) := by
  induction events generalizing t with
  | nil =>
    exact ⟨by simp [framesOf], by simp, by simp [framesOf], by simp [refusals], by simp [refusals],
      by simp [resyncsFrom], by simp [framesOf, seqsOf, jumpsFrom],
      by simpa [framesOf, seqsOf, lostFrom] using (Nat.mod_eq_of_lt ht).symm⟩
  | cons event events ih =>
    cases event with
    | refused why =>
      have hrest := ih (t := t.note (.refused why)) ht
      refine ⟨hrest.out, hrest.consumed, hrest.framesOk, ?_, ?_, ?_, hrest.seqDiscontinuities, hrest.lost⟩
      · rw [List.foldl_cons, hrest.crcErrors, refusals, ← Nat.add_assoc, note]
      · rw [List.foldl_cons, hrest.versionMismatch, refusals, ← Nat.add_assoc, note]
      · rw [List.foldl_cons, hrest.resyncs, resyncsFrom, ← Nat.add_assoc, note]
    | accepted pos item size =>
      obtain ⟨type, seq, plen⟩ := item
      let next := t.note (.accepted pos (type, seq, plen) size)
      have hgap : (t.ctr.noteGap t.expected seq) = _ := DecodeCounters.noteGap_eq ht t.expected seq
      have hnext : next.ctr.lost = (t.ctr.lost + lostFrom t.expected [seq]) % 2 ^ 64 := by
        simp only [next, note, hgap]
      have hrest := ih (t := next) (hnext ▸ Nat.mod_lt _ (by decide))
      have hjumps : next.ctr.seqDiscontinuities = t.ctr.seqDiscontinuities + jumpsFrom t.expected [seq] := by
        simp only [next, note, hgap]
      have hseqs : seqsOf (framesOf (.accepted pos (type, seq, plen) size :: events)) =
          seq :: seqsOf (framesOf events) := rfl
      refine ⟨?_, ?_, ?_, ?_, ?_, ?_, ?_, ?_⟩
      · rw [List.foldl_cons, hrest.out]
        simp [next, note]
      · rw [List.foldl_cons, hrest.consumed]
        simp [next, note, Nat.add_assoc]
      · rw [List.foldl_cons, hrest.framesOk]
        simp [next, note, Nat.add_assoc, Nat.add_comm 1]
      · rw [List.foldl_cons, hrest.crcErrors, refusals]
        simp only [next, note, hgap]
      · rw [List.foldl_cons, hrest.versionMismatch, refusals]
        simp only [next, note, hgap]
      · rw [List.foldl_cons, hrest.resyncs, resyncsFrom]
        simp only [next, note, hgap]
      · rw [List.foldl_cons, hrest.seqDiscontinuities, hjumps, hseqs,
          jumpsFrom_cons _ seq (seqsOf (framesOf events)), ← Nat.add_assoc]
        rfl
      · rw [List.foldl_cons, hrest.lost, hnext, hseqs, lostFrom_cons _ seq (seqsOf (framesOf events)),
          ← Nat.add_assoc, Nat.mod_add_mod]
        rfl

/-- The decoder returns the frames of the events, and counts them. -/
theorem decodeStream_eq {crc : Bytes → U32} {data : Bytes} {events : List StreamEvent}
    (h : Resync.Scan (lookAt crc data) 0 events) :
    decodeStream crc data =
      (framesOf events,
        { framesOk := (framesOf events).length
          crcErrors := refusals .crc events
          versionMismatch := refusals .version events
          resyncs := resyncsFrom true events
          seqDiscontinuities := jumpsFrom none (seqsOf (framesOf events))
          lost := lostFrom none (seqsOf (framesOf events)) % 2 ^ 64
          skippedBytes := data.length - Resync.taken (Resync.items events) }) := by
  have hadds := Tally.adds (t := {}) (by decide) events
  rw [decodeStream, h.walk (bounded_lookAt crc data) Tally.note (by omega)]
  obtain ⟨hout, hconsumed, hok, hcrc, hversion, hresyncs, hjumps, hlost⟩ := hadds
  simp only [List.nil_append, Nat.zero_add] at hout hconsumed hok hcrc hversion hresyncs hjumps hlost
  simp only [hout, hok, hcrc, hversion, hresyncs, hjumps, hlost, hconsumed]

/-- The decoder keeps its lock exactly if it refuses nothing. -/
theorem resyncsFrom_eq_zero {events : List StreamEvent} :
    resyncsFrom true events = 0 ↔ ∀ why, .refused why ∉ events := by
  induction events with
  | nil => simp [resyncsFrom]
  | cons event events ih =>
    cases event with
    | refused why =>
      have hmem : .refused why ∈ Resync.Event.refused why :: events := List.mem_cons_self
      simp only [resyncsFrom, Bool.toNat_true]
      exact ⟨fun h => by omega, fun h => absurd hmem (h why)⟩
    | accepted pos item size => simpa [resyncsFrom] using ih

/-- Without a refusal there is none of a kind. -/
theorem refusals_eq_zero {events : List StreamEvent} (h : ∀ why, .refused why ∉ events) (why : Refusal) :
    refusals why events = 0 := by
  induction events with
  | nil => rfl
  | cons event events ih =>
    cases event with
    | refused why' => exact absurd List.mem_cons_self (h why')
    | accepted pos item size => exact ih fun why' hmem => h why' (List.mem_cons_of_mem _ hmem)

/-- The numbers follow each other. -/
def Contiguous (seqs : List U32) : Prop := seqs.IsChain fun a b => b = a + 1

/-- The numbers follow each other exactly if none is lost and none jumps. -/
theorem contiguous_iff {seqs : List U32} : Contiguous seqs ↔ lostFrom none seqs = 0 ∧ jumpsFrom none seqs = 0 := by
  have hgap (expected seq : U32) : (lostFrom (some expected) [seq] = 0 ∧ jumpsFrom (some expected) [seq] = 0) ↔
      seq = expected := by
    simp only [lostFrom, jumpsFrom, Nat.add_zero]
    constructor
    · rintro ⟨hlost, hjump⟩
      have hzero : (seq - expected).toNat = 0 := by
        by_contra hne
        split at hlost
        · exact hne hlost
        · simp_all
      have hsub : seq - expected = 0 := BitVec.eq_of_toNat_eq hzero
      rw [← BitVec.sub_add_cancel seq expected, hsub]
      exact BitVec.zero_add expected
    · rintro rfl
      simp
  have hchain (first : U32) (rest : List U32) : (first :: rest).IsChain (fun a b => b = a + 1) ↔
      lostFrom (some (first + 1)) rest = 0 ∧ jumpsFrom (some (first + 1)) rest = 0 := by
    induction rest generalizing first with
    | nil => simp [lostFrom, jumpsFrom]
    | cons second rest ih =>
      rw [List.isChain_cons_cons, ih, lostFrom_cons _ second rest, jumpsFrom_cons _ second rest, ← hgap]
      omega
  cases seqs with
  | nil => simp [Contiguous, lostFrom, jumpsFrom]
  | cons first rest => exact hchain first rest

end Tvc.Telem
