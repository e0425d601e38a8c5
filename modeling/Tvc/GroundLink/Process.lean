import Tvc.GroundLink.Collect
import Tvc.Stream.Agreement

/-!
# The receiver process

`receive` of `ground/link.py` opens its socket and its files, writes the header of the recording, collects, closes the
recording and reports. What every call comes to is given. A run is one that can happen: `collect` has come to an end,
and a stop flag that was found set stays set.

The exit code is 0 only if nothing was left behind: the recording holds whole control frames in the order of their
ticks, and the socket was found empty after the producer had gone.
-/

namespace Tvc.GroundLink

open ByteStore GreedyMatch

/-- What the outside makes of the calls of `receive`. -/
structure Setting (σ : Type) where
  opened : Bool
  directory : Bool
  reportFile : Bool
  recordingFile : Bool
  monoNs : U64
  epochNs : U64
  header : Except ℕ ℕ
  flushed : Bool
  announced : Bool
  passes : List (Pass σ)
  closed : Bool
  kept : ℕ
  stopped : Bool
  digested : Bool
  reported : Bool

/-- What `receive` has come to when it closes its socket: the exit code so far, the collector if there is one, and
whether `collect` was truncated. -/
structure Served (σ : Type) where
  code : ℕ
  collector : Option (Collector σ) := none
  truncated : Bool := false

namespace Setting

variable {σ : Type}

/-- The recording was opened. -/
def recorded (s : Setting σ) : Bool := s.directory && s.reportFile && s.recordingFile

/-- The header of the recording, on what the file makes of the call. -/
def begun (s : Setting σ) : Bytes × Except ℕ Unit := writeAll [] (receiverHeader s.monoNs s.epochNs) s.header

variable [DecidableEq σ]

/-- The run of `collect`. -/
def collected (s : Setting σ) : Collector σ × Flow := collect { receiver := { recording := s.begun.1 } } s.passes

/-- The body of `receive`. -/
def served (s : Setting σ) : Served σ :=
  if !s.recorded then { code := 4 }
  else
    match s.begun.2 with
    | .error _ => { code := 4 }
    | .ok () =>
      if !s.flushed then { code := 4 }
      else if !s.announced then { code := 4, collector := some { receiver := { recording := s.begun.1 } } }
      else
        match s.collected with
        | (c, .raised _) =>
          { code := if c.receiver.counters.writeFailedDatagrams != 0 then 4 else 6, collector := some c }
        | (c, .returned truncated) => { code := 0, collector := some c, truncated }
        | (c, _) => { code := 0, collector := some c }

/-- The receiver has met a malformed datagram or a conflict. -/
def damaged (s : Setting σ) : Bool :=
  s.served.collector.any fun c => c.receiver.counters.malformed != 0 || c.receiver.counters.conflict != 0

/-- The exit code before the report. -/
def closing (s : Setting σ) : ℕ :=
  let code := if s.recorded && !s.closed then 4 else s.served.code
  if code == 4 then 4
  else if s.stopped then 3
  else if s.served.truncated || s.damaged then 6
  else code

/-- The file of the recording: what is not flushed and closed is stored in part. -/
def stored (s : Setting σ) : Bytes :=
  let file := s.served.collector.elim s.begun.1 fun c => c.receiver.recording
  if s.closed then file else file.take s.kept

/-- The report was written. -/
def accounted (s : Setting σ) : Bool := (!s.recorded || s.digested) && s.reported

/-- The exit code of `receive`. -/
def exitCode (s : Setting σ) : ℕ :=
  if !s.opened then 2
  else if (s.directory && s.reportFile) && !s.accounted then 4
  else s.closing

end Setting

/-- The report of `receive`; `δ` are the digests. -/
structure Report (σ δ : Type) where
  format : String
  bound : σ
  source : Option σ
  recording : String
  recordingSha256 : Option δ
  frameCount : ℕ
  counters : Counters
  socketErrors : ℕ
  lastErrno : ℕ
  interrupted : Bool
  shutdownTruncated : Bool

variable {σ δ : Type} [DecidableEq σ]

/-- The report that `receive` writes. -/
def Setting.report (s : Setting σ) (sha256 : Bytes → δ) (bound : σ) (path : String) : Report σ δ where
  format := "tvc-ground-receiver-1"
  bound
  source := s.served.collector.bind fun c => c.receiver.source
  recording := path
  recordingSha256 := if s.recorded then some (sha256 s.stored) else none
  frameCount := s.served.collector.elim 0 fun c => c.receiver.counters.recorded
  counters := s.served.collector.elim {} fun c => c.receiver.counters
  socketErrors := s.served.collector.elim 0 Collector.socketErrors
  lastErrno := s.served.collector.elim 0 Collector.lastErrno
  interrupted := s.stopped
  shutdownTruncated := s.served.truncated

/-- A run of `receive`: once it has announced itself `collect` ends, and the stop flag stays set. -/
structure Reception (σ : Type) [DecidableEq σ] extends Setting σ where
  ended : toSetting.recorded = true → toSetting.begun.2 = .ok () → flushed = true → announced = true →
    toSetting.collected.2 ≠ .leave
  stays : (∃ p ∈ passes, p.Stops) → stopped = true

/-! ## What exit code 0 says -/

/-- A batch that goes on has been taken to its end. -/
theorem Collector.batch_not_next (c : Collector σ) (turns : List (Turn σ)) : (c.batch turns).2 ≠ .next := by
  induction turns generalizing c with
  | nil => exact fun h => Flow.noConfusion h
  | cons t rest ih =>
    unfold Collector.batch
    generalize c.turn t = x
    obtain ⟨c₁, flow⟩ := x
    cases flow with
    | next => exact ih c₁
    | leave => exact fun h => Flow.noConfusion h
    | returned truncated => exact fun h => Flow.noConfusion h
    | raised errno => exact fun h => Flow.noConfusion h

/-- A pass goes on with the next one or ends `collect`. -/
theorem Collector.pass_not_next (c : Collector σ) (p : Pass σ) : (c.pass p).2 ≠ .next := by
  unfold Collector.pass
  split
  · exact fun h => Flow.noConfusion h
  generalize c.await p = x
  obtain ⟨c₁, flow⟩ := x
  cases flow with
  | next => exact c₁.batch_not_next p.batch
  | leave => exact fun h => Flow.noConfusion h
  | returned truncated => exact fun h => Flow.noConfusion h
  | raised errno => exact fun h => Flow.noConfusion h

/-- `collect` is in its loop, or it has returned or raised an error. -/
theorem collect_not_next (c : Collector σ) (passes : List (Pass σ)) : (collect c passes).2 ≠ .next := by
  induction passes generalizing c with
  | nil => exact fun h => Flow.noConfusion h
  | cons p rest ih =>
    have hpass := c.pass_not_next p
    unfold collect
    generalize c.pass p = x at hpass
    obtain ⟨c₁, flow⟩ := x
    cases flow with
    | next => exact absurd rfl hpass
    | leave => exact ih c₁
    | returned truncated => exact fun h => Flow.noConfusion h
    | raised errno => exact fun h => Flow.noConfusion h

/-- What `receive` has come to when it returns 0. -/
structure Setting.Asked (s : Setting σ) (c : Collector σ) : Prop where
  recorded : s.recorded = true
  begun : s.begun.2 = .ok ()
  collected : s.collected = (c, .returned false)
  served : s.served = { code := 0, collector := some c }
  closed : s.closed = true
  stopped : s.stopped = false
  malformed : c.receiver.counters.malformed = 0
  conflict : c.receiver.counters.conflict = 0
  accounted : s.accounted = true

variable {s : Setting σ} {c : Collector σ}

/-- The header was written whole. -/
theorem Setting.Asked.header_whole (h : s.Asked c) : s.begun.1 = receiverHeader s.monoNs s.epochNs := by
  have hbegun := h.begun
  unfold Setting.begun writeAll at hbegun ⊢
  cases hwrite : s.header with
  | error errno =>
    rw [hwrite] at hbegun
    nomatch hbegun
  | ok n =>
    rw [hwrite] at hbegun
    dsimp only at hbegun ⊢
    split at hbegun
    · nomatch hbegun
    · rename_i hwhole
      rw [List.nil_append, show n = _ by simpa using hwhole, List.take_length]

/-- `collect` has raised no error. -/
theorem Setting.Asked.quiet (h : s.Asked c) : s.collected.2.Quiet := by
  intro errno hraised
  rw [h.collected] at hraised
  exact Flow.noConfusion hraised

/-- The file holds what was recorded. -/
theorem Setting.Asked.stored_eq (h : s.Asked c) : s.stored = c.receiver.recording := by
  unfold Setting.stored
  rw [h.served, h.closed]
  rfl

/-- What is reported. -/
theorem Setting.Asked.report_eq (h : s.Asked c) (sha256 : Bytes → δ) (bound : σ) (path : String) :
    s.report sha256 bound path =
      { format := "tvc-ground-receiver-1"
        bound
        source := c.receiver.source
        recording := path
        recordingSha256 := some (sha256 s.stored)
        frameCount := c.receiver.counters.recorded
        counters := c.receiver.counters
        socketErrors := c.socketErrors
        lastErrno := c.lastErrno
        interrupted := false
        shutdownTruncated := false } := by
  unfold Setting.report
  rw [h.served, h.recorded, h.stopped]
  rfl

/-- The body of `receive` has no error only if `collect` has returned. -/
theorem Reception.served_clean (r : Reception σ) (hcode : r.served.code = 0) :
    r.recorded = true ∧ r.begun.2 = .ok () ∧ ∃ c truncated, r.collected = (c, .returned truncated) ∧
      r.served = { code := 0, collector := some c, truncated } := by
  have hended := r.ended
  have hnext := collect_not_next { receiver := { recording := r.begun.1 } } r.passes
  unfold Setting.served at hcode ⊢
  cases hrecorded : r.recorded with
  | false =>
    rw [hrecorded] at hcode
    exact absurd hcode (Nat.succ_ne_zero 3)
  | true =>
    rw [hrecorded] at hcode
    cases hbegun : r.begun.2 with
    | error errno =>
      rw [hbegun] at hcode
      exact absurd hcode (Nat.succ_ne_zero 3)
    | ok =>
      rw [hbegun] at hcode
      cases hflushed : r.flushed with
      | false =>
        rw [hflushed] at hcode
        exact absurd hcode (Nat.succ_ne_zero 3)
      | true =>
        rw [hflushed] at hcode
        cases hannounced : r.announced with
        | false =>
          rw [hannounced] at hcode
          exact absurd hcode (Nat.succ_ne_zero 3)
        | true =>
          rw [hannounced] at hcode
          have hleave := hended hrecorded hbegun hflushed hannounced
          refine ⟨rfl, rfl, ?_⟩
          change r.collected.2 ≠ .next at hnext
          generalize r.collected = x at hcode hleave hnext
          obtain ⟨c, flow⟩ := x
          cases flow with
          | next => exact absurd rfl hnext
          | leave => exact absurd rfl hleave
          | returned truncated => exact ⟨c, truncated, rfl, rfl⟩
          | raised errno =>
            -- Either code of an error is not 0.
            have hraised : (if c.receiver.counters.writeFailedDatagrams != 0 then 4 else 6) = 0 := hcode
            split at hraised <;> exact absurd hraised (Nat.succ_ne_zero _)

/-- Exit code 0 says that every call has come to what it should. -/
theorem Reception.asked (r : Reception σ) (hcode : r.exitCode = 0) : ∃ c, r.Asked c := by
  unfold Setting.exitCode at hcode
  split at hcode
  · exact absurd hcode (by decide)
  split at hcode
  · exact absurd hcode (by decide)
  rename_i haccounted
  unfold Setting.closing at hcode
  dsimp only at hcode
  have hclosed : ¬(r.recorded && !r.closed) = true := by
    intro hbroken
    rw [if_pos hbroken] at hcode
    exact absurd hcode (Nat.succ_ne_zero 3)
  rw [if_neg hclosed] at hcode
  split at hcode
  · exact absurd hcode (by decide)
  split at hcode
  · exact absurd hcode (by decide)
  rename_i hstopped
  split at hcode
  · exact absurd hcode (by decide)
  rename_i hsound
  obtain ⟨hrecorded, hbegun, c, truncated, hcollected, hserved⟩ := r.served_clean hcode
  rw [hrecorded] at hclosed
  have hfiles : (r.directory && r.reportFile) = true := (Bool.and_eq_true_iff.mp hrecorded).1
  rw [hfiles] at haccounted
  unfold Setting.damaged at hsound
  rw [hserved] at hsound
  have hsound : truncated = false ∧ c.receiver.counters.malformed = 0 ∧ c.receiver.counters.conflict = 0 := by
    simpa using hsound
  obtain ⟨rfl, hmalformed, hconflict⟩ := hsound
  exact ⟨c, hrecorded, hbegun, hcollected, hserved, by simpa using hclosed, by simpa using hstopped, hmalformed,
    hconflict, by simpa using haccounted⟩

end Tvc.GroundLink
