import Tvc.GroundLink.Accounting
import Tvc.GroundLink.Process

/-!
# The check of a vehicle and a receiver

`check` of `ground/link.py` compares what two processes have left behind: the vehicle's recording and summary, and the
receiver's recording and report. It is told their exit codes. If both are 0 and the network brought the receiver
nothing but frames of the drain, and datagrams of others once it knew its source, the check finds nothing wrong.

How an address is written is left open, and so is the digest.
-/

namespace Tvc.GroundLink

open ByteStore GreedyMatch
open Recorder (GroundCounters)
open Telem (ControlRecord FittingCounts crc32c)

/-- `ground` of the summary. -/
structure GroundSummary where
  requested : Bool
  endpoint : Option String
  counters : GroundCounters
  setupErrno : ℕ
  resolverError : ℤ

/-- The summary of the vehicle, as far as `check` reads it. -/
structure VehicleSummary where
  mode : String
  totalCycles : ℕ
  records : ℕ
  dropped : ℕ
  groundApplied : Bool
  ground : GroundSummary

/-- What `check` returns. -/
structure Verdict where
  valid : Bool := false
  deliveryComplete : Bool := false
  status : String := "invalid"
  failed : Option Wire.Failure := none

variable {σ δ : Type} [DecidableEq δ]

/-- What `check` requires before it looks at the request for a ground link: the endpoint of the receiver. -/
def checkProcesses (endpoint : σ → Except String String) (summary : VehicleSummary) (report : Report σ δ)
    (vehicleExit receiverExit : ℕ) (groundSha256 : δ) : Except String String := do
  let c := report.counters
  require (summary.mode == "freerun") "vehicle mode is not freerun"
  require (report.format == "tvc-ground-receiver-1") "wrong receiver report format"
  require (vehicleExit == 0) "vehicle exited unsuccessfully"
  require (receiverExit == 0) "receiver exited unsuccessfully"
  require (!report.interrupted) "receiver interrupted"
  require (!report.shutdownTruncated) "receiver shutdown incomplete"
  require (c.received == c.disposed) "receiver dispositions do not conserve datagrams"
  require (c.malformed == 0 && c.conflict == 0 && c.writeFailedDatagrams == 0) "receiver integrity/output failure"
  require (report.socketErrors == 0 && report.lastErrno == 0 || decide (0 < report.socketErrors) && report.lastErrno == EINTR)
    "receiver socket failure"
  let bound ← endpoint report.bound
  let _ ← report.source.mapM endpoint
  require (!report.recording.isEmpty) "missing recording path"
  require (report.recordingSha256 == some groundSha256) "receiver recording digest mismatch"
  require (summary.dropped == 0) "authoritative ring dropped records"
  return bound

/-- What `check` requires of the drain's side of the ground link. -/
def checkDistribution (summary : VehicleSummary) (bound : String) : Except String Unit := do
  let g := summary.ground
  require (summary.groundApplied && g.setupErrno == 0 && g.resolverError == 0) "ground startup was not successful"
  require (g.endpoint == some bound) "ground destination differs from receiver binding"
  require (decide (g.counters.shortSends ≤ g.counters.sendErrors)) "short send count exceeds send errors"
  require (g.counters.sendErrors == 0 && g.counters.lastErrno == 0 ||
    decide (0 < g.counters.sendErrors) && decide (0 < g.counters.lastErrno)) "ground errno/count mismatch"

/-- What `check` requires of the two recordings: their populations. -/
def checkRecordings (summary : VehicleSummary) (report : Report σ δ) (vehicle ground : Bytes) :
    Except Wire.Failure Populations := do
  let vehicle ← recordingFrames vehicle
  let ground ← recordingFrames ground
  let pop ← (matchStreams 0 vehicle ground).mapError .valueError
  (checkPopulations pop summary.records summary.totalCycles report.frameCount report.source.isSome report.counters
    summary.ground.counters).mapError .valueError
  return pop

/-- `check`. -/
def check (endpoint : σ → Except String String) (sha256 : Bytes → δ) (vehicle : Bytes) (summary : VehicleSummary)
    (ground : Bytes) (report : Report σ δ) (vehicleExit receiverExit : ℕ) : Verdict :=
  match checkProcesses endpoint summary report vehicleExit receiverExit (sha256 ground) with
  | .error message => { failed := some (.valueError message) }
  | .ok bound =>
    if !summary.ground.requested then
      { status := "disabled", failed := some (.valueError "ground distribution disabled") }
    else
      match checkDistribution summary bound with
      | .error message => { failed := some (.valueError message) }
      | .ok () =>
        match checkRecordings summary report vehicle ground with
        | .error failure => { failed := some failure }
        | .ok pop =>
          { valid := true
            deliveryComplete := pop.groundRecords == pop.vehicleRecords && decide (0 < pop.vehicleRecords)
            status := if pop.vehicleRecords == 0 then "empty" else "valid" }

/-! ## A receiver that returned 0 -/

/-- An accepted datagram has an accepted type and the length of its type. -/
theorem decodeDatagram_sized {data : Bytes} {types : List ℕ} {decoded : ℕ × ℕ × Bytes}
    (h : Wire.decodeDatagram data types = .ok decoded) :
    decoded.1 ∈ types ∧ ∃ length, Wire.payloadSizes decoded.1 = some length ∧ data.length = 10 + length + 4 := by
  unfold Wire.decodeDatagram at h
  dsimp only at h
  repeat' split at h
  all_goals first | contradiction | skip
  rename_i hlong hsync hversion htype hsize hcrc
  obtain rfl := Except.ok.inj h
  simp only [Bool.or_eq_true, bne_iff_ne, ne_eq, not_or, not_not, Bool.not_eq_true', Bool.not_eq_false] at htype hsize
  exact ⟨List.contains_iff_mem.mp htype.2, _, hsize.1, hsize.2⟩

/-- A control frame has the size of one. -/
theorem controlFrame_length {data : Bytes} {frame : StreamFrame Bytes} (h : controlFrame data = .ok frame) :
    data.length = frameBytes := by
  unfold controlFrame at h
  cases hdecoded : Wire.decodeDatagram data [6] with
  | error e =>
    rw [hdecoded] at h
    nomatch h
  | ok decoded =>
    obtain ⟨htype, length, hlength, htotal⟩ := decodeDatagram_sized hdecoded
    rw [List.mem_singleton.mp htype] at hlength
    obtain rfl := Option.some.inj hlength
    exact htotal

variable [DecidableEq σ]

/-- `checkProcesses` of a receiver that has recorded without damage. -/
theorem checkProcesses_ok {endpoint : σ → Except String String} {summary : VehicleSummary} {r : Reception σ} {c : Collector σ}
    (hasked : r.Asked c) {header : Bytes} {kept : List Bytes} (hrecords : Records header c kept) {bound : σ} {b path : String}
    (hbound : endpoint bound = .ok b) (hsource : ∀ source ∈ c.receiver.source, ∃ e, endpoint source = .ok e)
    (hpath : path ≠ "") (hmode : summary.mode = "freerun") (hdropped : summary.dropped = 0) (sha256 : Bytes → δ) :
    checkProcesses endpoint summary (r.report sha256 bound path) 0 0 (sha256 r.stored) = .ok b := by
  have hsocket : (c.socketErrors == 0 && c.lastErrno == 0 || decide (0 < c.socketErrors) && c.lastErrno == EINTR) = true := by
    rcases hrecords.socket with ⟨hnone, herrno⟩ | ⟨hsome, herrno⟩
    · rw [hnone, herrno]
      rfl
    · rw [herrno, decide_eq_true hsome, beq_self_eq_true, Bool.and_self, Bool.or_true]
  have hnamed : ∃ e, (c.receiver.source.mapM endpoint : Except String (Option String)) = .ok e := by
    cases hs : c.receiver.source with
    | none => exact ⟨none, rfl⟩
    | some source =>
      obtain ⟨e, he⟩ := hsource source hs
      refine ⟨some e, ?_⟩
      rw [Option.mapM_some, he]
      rfl
  obtain ⟨e, hnamed⟩ := hnamed
  unfold checkProcesses
  rw [hasked.report_eq]
  dsimp only
  rw [hbound, hnamed]
  refine require_bind_ok.mpr ⟨beq_iff_eq.mpr hmode, require_bind_ok.mpr ⟨rfl, require_bind_ok.mpr ⟨rfl,
    require_bind_ok.mpr ⟨rfl, require_bind_ok.mpr ⟨rfl, require_bind_ok.mpr ⟨rfl,
    require_bind_ok.mpr ⟨beq_iff_eq.mpr hrecords.disposed, require_bind_ok.mpr ⟨?_,
    require_bind_ok.mpr ⟨hsocket, require_bind_ok.mpr ⟨?_, require_bind_ok.mpr ⟨beq_self_eq_true _,
    require_bind_ok.mpr ⟨beq_iff_eq.mpr hdropped, rfl⟩⟩⟩⟩⟩⟩⟩⟩⟩⟩⟩⟩
  · rw [hasked.malformed, hasked.conflict, hrecords.writeFailed]
    rfl
  · simpa using hpath

/-- A receiver that returns 0 was not stopped and found its socket empty, before the deadline, after its producer had
gone. Its recording is a header and whole control frames in the order of their ticks, which are read back, and its
report passes every requirement that the check makes of a receiver. -/
theorem receive_certified (r : Reception σ) (hcode : r.exitCode = 0) :
    ∃ (c : Collector σ) (kept : List Bytes),
      (r.collected = (c, .returned false) ∧ r.stopped = false ∧
        ∃ p ∈ r.passes, ∃ t ∈ p.batch, ∃ deadline, c.deadline = some deadline ∧ t.now < deadline ∧ t.recv = .blocking) ∧
      (r.stored = receiverHeader r.monoNs r.epochNs ++ kept.flatten ∧ Ordered tickOf kept ∧
        recordingFrames r.stored = .ok (kept.map (.of seqOf tickOf))) ∧
      ∀ (endpoint : σ → Except String String) (sha256 : Bytes → δ) (summary : VehicleSummary) (bound : σ) (b path : String),
        endpoint bound = .ok b → (∀ source ∈ c.receiver.source, ∃ e, endpoint source = .ok e) → path ≠ "" →
        summary.mode = "freerun" → summary.dropped = 0 →
          checkProcesses endpoint summary (r.report sha256 bound path) 0 r.exitCode (sha256 r.stored) = .ok b := by
  obtain ⟨c, hasked⟩ := r.asked hcode
  obtain ⟨kept, hrecords⟩ := (kept_records r.begun.1).collect ⟨[], records_start r.begun.1⟩
    (collectMeets_of fun _ _ _ _ _ _ _ _ _ => trivial) hasked.quiet
  change Records r.begun.1 r.collected.1 kept at hrecords
  rw [hasked.collected, hasked.header_whole] at hrecords
  have hstored : r.stored = receiverHeader r.monoNs r.epochNs ++ kept.flatten :=
    hasked.stored_eq.trans hrecords.recording
  refine ⟨c, kept, ⟨hasked.collected, hasked.stopped, ?_⟩, ⟨hstored, hrecords.ordered, ?_⟩, ?_⟩
  · rcases collect_returned hasked.collected with ⟨-, hstops⟩ | ⟨p, hp, t, ht, deadline, hdeadline, hends⟩
    · exact absurd ((r.stays hstops).symm.trans hasked.stopped) (by decide)
    · exact ⟨p, hp, t, ht, deadline, hdeadline, hends⟩
  · rw [hstored, receiverHeader_eq]
    exact recordingFrames_ok r.monoNs r.epochNs fun f hf => ⟨hrecords.read f hf, controlFrame_length (hrecords.read f hf)⟩
  · intro endpoint sha256 summary bound b path hbound hsource hpath hmode hdropped
    rw [hcode]
    exact checkProcesses_ok hasked hrecords hbound hsource hpath hmode hdropped sha256

/-- A receiver to which nothing is sent before its producer has gone. -/
def quietSetting : Setting ℕ where
  opened := true
  directory := true
  reportFile := true
  recordingFile := true
  monoNs := 1
  epochNs := 2
  header := .ok 32
  flushed := true
  announced := true
  passes := [⟨false, .ready false true, .eof, 0, fun k => ⟨false, k, .blocking⟩⟩]
  closed := true
  kept := 0
  stopped := false
  digested := true
  reported := true

/-- It collects until its socket is empty. -/
theorem quietSetting_collected : quietSetting.collected.2 = .returned false := by decide +kernel

/-- No stop flag is set. -/
theorem quietSetting_stays : (∃ p ∈ quietSetting.passes, p.Stops) → quietSetting.stopped = true := by
  rintro ⟨p, hp, hstop | ⟨t, ht, hstop⟩⟩
  · obtain rfl := List.mem_singleton.mp hp
    exact absurd hstop (by decide)
  · obtain rfl := List.mem_singleton.mp hp
    unfold Pass.batch at ht
    obtain ⟨k, -, rfl⟩ := List.mem_map.mp ht
    exact absurd hstop Bool.false_ne_true

/-- The run of this receiver. -/
def quietReception : Reception ℕ :=
  { quietSetting with
    ended := fun _ _ _ _ hleave => Flow.noConfusion (quietSetting_collected.symm.trans hleave)
    stays := quietSetting_stays }

/-- It returns 0. -/
theorem receive_certified_quiet :
    ∃ (c : Collector ℕ) (kept : List Bytes),
      (quietReception.collected = (c, .returned false) ∧ quietReception.stopped = false ∧
        ∃ p ∈ quietReception.passes, ∃ t ∈ p.batch, ∃ deadline, c.deadline = some deadline ∧ t.now < deadline ∧
          t.recv = .blocking) ∧
      (quietReception.stored = receiverHeader quietReception.monoNs quietReception.epochNs ++ kept.flatten ∧
        Ordered tickOf kept ∧ recordingFrames quietReception.stored = .ok (kept.map (.of seqOf tickOf))) ∧
      ∀ (endpoint : ℕ → Except String String) (sha256 : Bytes → ℕ) (summary : VehicleSummary) (bound : ℕ) (b path : String),
        endpoint bound = .ok b → (∀ source ∈ c.receiver.source, ∃ e, endpoint source = .ok e) → path ≠ "" →
        summary.mode = "freerun" → summary.dropped = 0 →
          checkProcesses endpoint summary (quietReception.report sha256 bound path) 0 quietReception.exitCode
            (sha256 quietReception.stored) = .ok b :=
  receive_certified quietReception (by decide +kernel)

/-! ## The drain's side -/

/-- The errors of a drain's sends are told by the counters. -/
structure Told (g : GroundCounters) : Prop where
  short : g.shortSends ≤ g.sendErrors
  errno : g.sendErrors = 0 ∧ g.lastErrno = 0 ∨ 0 < g.sendErrors ∧ 0 < g.lastErrno

/-- A send that fails has an error number. -/
theorem Told.note {g : GroundCounters} (h : Told g) (len : ℕ) {sent : Except ℕ ℕ} (herrno : ∀ e, sent = .error e → 0 < e) :
    Told (g.note len sent) := by
  have hshort := h.short
  unfold GroundCounters.note
  cases sent with
  | error e => exact ⟨Nat.le_succ_of_le hshort, .inr ⟨Nat.succ_pos _, herrno e rfl⟩⟩
  | ok n =>
    dsimp only
    split
    · exact ⟨hshort, h.errno⟩
    · have herror : 0 < Recorder.EIO := by decide
      exact ⟨Nat.succ_le_succ hshort, .inr ⟨Nat.succ_pos _, herror⟩⟩

/-- The summary of a vehicle that has pushed every record and whose ground link was started. -/
def summaryOf {w : ℕ} {β : Type} (d : Recorder.Drain w β) (total : ℕ) (bound : String) : VehicleSummary where
  mode := "freerun"
  totalCycles := total
  records := d.records
  dropped := 0
  groundApplied := true
  ground := ⟨true, some bound, d.ground, 0, 0⟩

end Tvc.GroundLink
