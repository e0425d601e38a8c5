import Tvc.GroundLink.Delivery

/-!
# The loop of `collect` in `ground/link.py`

`collect` waits for the socket and for the producer's pipe, and takes datagrams in batches. The end of the pipe sets a
deadline, and from then on it does not wait any more: it takes what is there until the socket is empty or the deadline
has passed. What every call of a pass comes to is given with the pass.
-/

namespace Tvc.GroundLink

open GreedyMatch

/-- `EINTR`. -/
def EINTR : ℕ := 4

/-- The datagrams of a batch. -/
def kTurns : ℕ := 512

/-- The time after the end of the pipe. -/
def kCleanupNs : ℤ := 100000000

/-- What `recvfrom` comes to; with a datagram, what the recording makes of a write. -/
inductive Recv (σ : Type)
  | datagram (data : Bytes) (source : σ) (write : Except ℕ ℕ)
  | blocking
  | failed (errno : ℕ)

/-- The calls of one turn of a batch. -/
structure Turn (σ : Type) where
  stopped : Bool
  now : ℤ
  recv : Recv σ

/-- What `select` comes to. -/
inductive Selected
  | interrupted
  | failed (errno : ℕ)
  | ready (peer stdin : Bool)

/-- What the read of the pipe comes to. -/
inductive Input
  | interrupted
  | failed (errno : ℕ)
  | data
  | eof

/-- The calls of one pass of the loop. -/
structure Pass (σ : Type) where
  stopped : Bool
  selected : Selected
  input : Input
  now : ℤ
  turns : ℕ → Turn σ

/-- The turns of the batch of a pass, as far as they are taken. -/
@[irreducible] def Pass.batch {σ : Type} (p : Pass σ) : List (Turn σ) := (List.range kTurns).map p.turns

/-- The variables of `collect`, with the counters of the socket. -/
structure Collector (σ : Type) where
  receiver : Receiver σ
  socketErrors : ℕ := 0
  lastErrno : ℕ := 0
  deadline : Option ℤ := none

/-- How a piece of `collect` ends: with the next one, with the next pass, or with `collect` itself. -/
inductive Flow
  | next
  | leave
  | returned (truncated : Bool)
  | raised (errno : ℕ)
  deriving DecidableEq, Repr

variable {σ : Type} [DecidableEq σ]

/-- One turn of a batch. -/
def Collector.turn (c : Collector σ) (t : Turn σ) : Collector σ × Flow :=
  if t.stopped then (c, .returned false)
  else if c.deadline.any (· ≤ t.now) then (c, .returned true)
  else
    match t.recv with
    | .blocking => (c, if c.deadline.isSome then .returned false else .leave)
    | .failed errno =>
      let c :=
        { c with socketErrors := c.socketErrors + 1, lastErrno := if errno == 0 then Recorder.EIO else errno }
      (c, if errno == EINTR then .next else .raised errno)
    | .datagram data source write =>
      let (receiver, result) := c.receiver.accept data source write
      match result with
      | .ok () => ({ c with receiver }, .next)
      | .error errno => ({ c with receiver }, .raised errno)

/-- The turns of a batch. -/
def Collector.batch : Collector σ → List (Turn σ) → Collector σ × Flow
  | c, [] => (c, .leave)
  | c, t :: rest =>
    match c.turn t with
    | (c, .next) => batch c rest
    | ended => ended

/-- What comes before the batch of a pass. -/
def Collector.await (c : Collector σ) (p : Pass σ) : Collector σ × Flow :=
  if c.deadline.isSome then (c, .next)
  else
    match p.selected with
    | .interrupted => (c, .leave)
    | .failed errno => (c, .raised errno)
    | .ready peer stdin =>
      let poll : Flow := if peer then .next else .leave
      if stdin then
        match p.input with
        | .interrupted => (c, .leave)
        | .failed errno => (c, .raised errno)
        | .data => (c, poll)
        | .eof => ({ c with deadline := some (p.now + kCleanupNs) }, .next)
      else (c, poll)

/-- One pass. -/
def Collector.pass (c : Collector σ) (p : Pass σ) : Collector σ × Flow :=
  if p.stopped then (c, .returned false)
  else
    match c.await p with
    | (c, .next) => c.batch p.batch
    | ended => ended

/-- `collect`, as far as the passes go. -/
def collect : Collector σ → List (Pass σ) → Collector σ × Flow
  | c, [] => (c, .leave)
  | c, p :: rest =>
    match c.pass p with
    | (c, .leave) => collect c rest
    | ended => ended

/-! ## What the recording holds -/

/-- What a receiver has recorded, whoever sent it. -/
structure Records (header : Bytes) (c : Collector σ) (kept : List Bytes) : Prop where
  recording : c.receiver.recording = header ++ kept.flatten
  read : ∀ f ∈ kept, controlFrame f = .ok (.of seqOf tickOf f)
  ordered : Ordered tickOf kept
  lastTick : c.receiver.lastTick = kept.getLast?.map tickOf
  source : c.receiver.source = none ↔ kept = []
  recorded : c.receiver.counters.recorded = kept.length
  writeFailed : c.receiver.counters.writeFailedDatagrams = 0
  disposed : c.receiver.counters.received = c.receiver.counters.disposed
  socket : c.socketErrors = 0 ∧ c.lastErrno = 0 ∨ 0 < c.socketErrors ∧ c.lastErrno = EINTR

/-- A control frame is told by its bytes. -/
theorem controlFrame_of_raw {data : Bytes} {frame : StreamFrame Bytes} (h : controlFrame data = .ok frame) :
    controlFrame data = .ok (.of seqOf tickOf data) ∧ frame.raw = data := by
  have hraw : frame.raw = data := by
    unfold controlFrame at h
    cases hdecoded : Wire.decodeDatagram data [6] with
    | error e =>
      rw [hdecoded] at h
      nomatch h
    | ok decoded =>
      rw [hdecoded] at h
      cases hfields : Wire.decodePayload 6 decoded.2.2 with
      | error e =>
        simp only [bind, Except.bind, hfields] at h
        nomatch h
      | ok fields =>
        simp only [bind, Except.bind, hfields] at h
        split at h
        · nomatch h
        · exact (congrArg StreamFrame.raw (Except.ok.inj h)).symm
  refine ⟨?_, hraw⟩
  rw [h]
  congr 1
  obtain ⟨seq, tick, raw⟩ := frame
  obtain rfl : raw = data := hraw
  unfold StreamFrame.of seqOf tickOf
  rw [h]
  rfl

variable {header : Bytes} {c c' : Collector σ} {kept : List Bytes}

omit [DecidableEq σ] in
/-- Nothing is recorded in the beginning. -/
theorem records_start (header : Bytes) : Records header (σ := σ) { receiver := { recording := header } } [] where
  recording := (List.append_nil _).symm
  read := fun _ hf => absurd hf List.not_mem_nil
  ordered := .nil
  lastTick := rfl
  source := ⟨fun _ => rfl, fun _ => rfl⟩
  recorded := rfl
  writeFailed := rfl
  disposed := rfl
  socket := .inl ⟨rfl, rfl⟩

/-- What `accept` makes of a datagram. -/
inductive Receiver.Accepts (r : Receiver σ) (data : Bytes) (source : σ) : Receiver σ → Except ℕ Unit → Prop
  | counted (c : Counters) (hrecorded : c.recorded = r.counters.recorded)
      (hfailed : c.writeFailedDatagrams = r.counters.writeFailedDatagrams) :
    Accepts r data source { r with counters := c } (.ok ())
  | pinned (c : Counters) (hrecorded : c.recorded = r.counters.recorded)
      (hfailed : c.writeFailedDatagrams = r.counters.writeFailedDatagrams) (hlast : r.lastTick.isSome = true) :
    Accepts r data source { r with source := some source, counters := c } (.ok ())
  | new (hread : controlFrame data = .ok (.of seqOf tickOf data)) (hlater : ∀ last ∈ r.lastTick, last < tickOf data) :
    Accepts r data source
      { r with
        recording := r.recording ++ data
        source := some source
        counters.received := r.counters.received + 1
        counters.recorded := r.counters.recorded + 1
        last := some data
        lastTick := some (tickOf data) } (.ok ())
  | failed (r' : Receiver σ) (errno : ℕ) (hcount : 0 < r'.counters.writeFailedDatagrams) :
    Accepts r data source r' (.error errno)

/-- The cases of `accept`. -/
theorem Receiver.accept_accepts (r : Receiver σ) (data : Bytes) (source : σ) (write : Except ℕ ℕ) :
    r.Accepts data source (r.accept data source write).1 (r.accept data source write).2 := by
  unfold accept
  dsimp only
  split
  · exact .counted _ rfl rfl
  cases hframe : controlFrame data with
  | error e => exact .counted _ rfl rfl
  | ok frame =>
    obtain ⟨hread, hraw⟩ := controlFrame_of_raw hframe
    have htick : frame.tick = tickOf data := by
      rw [hread] at hframe
      rw [← Except.ok.inj hframe]
      rfl
    dsimp only
    rw [hraw, htick]
    split
    · rename_i hlate
      exact .pinned _ rfl rfl (Option.isSome_of_any hlate)
    rename_i hlate
    split
    · rename_i hsame
      have hlast : r.lastTick.isSome = true := by rw [beq_iff_eq.mp hsame, Option.isSome_some]
      split
      · exact .pinned _ rfl rfl hlast
      · exact .pinned _ rfl rfl hlast
    rename_i hsame
    have hlater (last : ℤ) (hlast : last ∈ r.lastTick) : last < tickOf data := by
      rw [Option.mem_def.mp hlast] at hlate hsame
      have hle : last ≤ tickOf data := not_lt.mp fun hlt => hlate (decide_eq_true hlt)
      exact hle.lt_of_ne fun heq => hsame (beq_iff_eq.mpr (congrArg some heq))
    cases write with
    | error errno => exact .failed _ errno (Nat.succ_pos _)
    | ok n =>
      unfold writeAll
      dsimp only
      cases hshort : n != data.length with
      | true => exact .failed _ Recorder.EIO (Nat.succ_pos _)
      | false =>
        rw [bne_eq_false_iff_eq.mp hshort, List.take_length]
        exact .new hread hlater

/-- A datagram that is taken without an error is recorded or counted. -/
theorem Records.accept (h : Records header c kept) {data : Bytes} {source : σ} {write : Except ℕ ℕ}
    (hok : (c.receiver.accept data source write).2 = .ok ()) :
    ∃ kept', Records header { c with receiver := (c.receiver.accept data source write).1 } kept' := by
  have hdisposed := Receiver.accept_disposed h.disposed data source write
  have haccepts := c.receiver.accept_accepts data source write
  rw [hok] at haccepts
  generalize (c.receiver.accept data source write).1 = r at hdisposed haccepts
  cases haccepts with
  | counted counters hrecorded hfailed =>
    exact ⟨kept, { h with
      recorded := hrecorded.trans h.recorded
      writeFailed := hfailed.trans h.writeFailed
      disposed := hdisposed }⟩
  | pinned counters hrecorded hfailed hlast =>
    refine ⟨kept, { h with
      source := ⟨fun hnone => absurd hnone (Option.some_ne_none _), ?_⟩
      recorded := hrecorded.trans h.recorded
      writeFailed := hfailed.trans h.writeFailed
      disposed := hdisposed }⟩
    rintro rfl
    rw [h.lastTick] at hlast
    exact absurd hlast Bool.false_ne_true
  | new hread hlater =>
    have hbelow : ∀ f ∈ kept, tickOf f < tickOf data := by
      rw [h.lastTick] at hlater
      exact h.ordered.below_iff.mp hlater
    refine ⟨kept ++ [data], ?_, fun f hf => ?_, ordered_concat.mpr ⟨h.ordered, hbelow⟩, ?_, ?_, ?_, h.writeFailed,
      hdisposed, h.socket⟩
    · rw [List.flatten_concat, ← List.append_assoc, ← h.recording]
    · rcases List.mem_append.mp hf with hf | hf
      · exact h.read f hf
      · rwa [List.mem_singleton.mp hf]
    · rw [List.getLast?_concat]
      rfl
    · exact ⟨fun hnone => absurd hnone (Option.some_ne_none _), fun hnil => absurd hnil (by simp)⟩
    · rw [List.length_append, ← h.recorded]
      rfl

/-! ## Whole runs -/

section Runs

variable (P : Receiver σ → Bytes → σ → Except ℕ ℕ → Prop)

/-- The datagram of the turn, if one is taken, is as told. -/
def Collector.TurnMeets (c : Collector σ) (t : Turn σ) : Prop :=
  t.stopped = false → c.deadline.any (· ≤ t.now) = false →
    ∀ data source write, t.recv = .datagram data source write → P c.receiver data source write

/-- Every datagram of the batch is as told when it is taken. -/
def Collector.BatchMeets : Collector σ → List (Turn σ) → Prop
  | _, [] => True
  | c, t :: rest => c.TurnMeets P t ∧ ((c.turn t).2 = .next → BatchMeets (c.turn t).1 rest)

/-- Every datagram of the pass is as told when it is taken. -/
def Collector.PassMeets (c : Collector σ) (p : Pass σ) : Prop :=
  p.stopped = false → (c.await p).2 = .next → (c.await p).1.BatchMeets P p.batch

/-- Every datagram that `collect` takes is as told when it is taken. -/
def CollectMeets : Collector σ → List (Pass σ) → Prop
  | _, [] => True
  | c, p :: rest => c.PassMeets P p ∧ ((c.pass p).2 = .leave → CollectMeets (c.pass p).1 rest)

/-- What a datagram, an interrupted call and the deadline keep. -/
structure Kept (I : Collector σ → Prop) : Prop where
  accept : ∀ c data source write, I c → P c.receiver data source write →
    (c.receiver.accept data source write).2 = .ok () →
      I { c with receiver := (c.receiver.accept data source write).1 }
  interrupted : ∀ c, I c → I { c with socketErrors := c.socketErrors + 1, lastErrno := EINTR }
  deadline : ∀ c d, I c → I { c with deadline := some d }

/-- `collect` has not raised an error. -/
def Flow.Quiet (flow : Flow) : Prop := ∀ errno, flow ≠ .raised errno

variable {P} {I : Collector σ → Prop}

/-- A turn without an error keeps it. -/
theorem Kept.turn (hI : Kept P I) (h : I c) (t : Turn σ) (hmeets : c.TurnMeets P t) (hquiet : (c.turn t).2.Quiet) :
    I (c.turn t).1 := by
  unfold Collector.turn at hquiet ⊢
  split
  · exact h
  rename_i hstop
  rw [if_neg hstop] at hquiet
  split
  · exact h
  rename_i htime
  rw [if_neg htime] at hquiet
  cases hrecv : t.recv with
  | blocking => exact h
  | failed errno =>
    rw [hrecv] at hquiet
    dsimp only at hquiet ⊢
    cases hintr : errno == EINTR with
    | true =>
      obtain rfl := beq_iff_eq.mp hintr
      exact hI.interrupted c h
    | false =>
      rw [hintr] at hquiet
      exact absurd rfl (hquiet errno)
  | datagram data source write =>
    rw [hrecv] at hquiet
    dsimp only at hquiet ⊢
    have hP := hmeets (Bool.eq_false_of_not_eq_true hstop) (Bool.eq_false_of_not_eq_true htime) data source write hrecv
    have haccept := hI.accept c data source write h hP
    generalize c.receiver.accept data source write = x at hquiet haccept
    obtain ⟨r, result⟩ := x
    cases result with
    | ok => exact haccept rfl
    | error errno => exact absurd rfl (hquiet errno)

/-- A batch without an error keeps it. -/
theorem Kept.batch (hI : Kept P I) {turns : List (Turn σ)} (h : I c) (hmeets : c.BatchMeets P turns)
    (hquiet : (c.batch turns).2.Quiet) : I (c.batch turns).1 := by
  induction turns generalizing c with
  | nil => exact h
  | cons t rest ih =>
    have hturn := hI.turn h t hmeets.1
    have hrest := hmeets.2
    unfold Collector.batch at hquiet ⊢
    generalize c.turn t = x at hturn hrest hquiet
    obtain ⟨c₁, flow⟩ := x
    cases flow with
    | next => exact ih (hturn fun _ hraised => Flow.noConfusion hraised) (hrest rfl) hquiet
    | leave => exact hturn hquiet
    | returned truncated => exact hturn hquiet
    | raised errno => exact hturn hquiet

/-- What comes before a batch keeps it. -/
theorem Kept.await (hI : Kept P I) (h : I c) (p : Pass σ) : I (c.await p).1 := by
  unfold Collector.await
  split
  · exact h
  cases p.selected with
  | interrupted => exact h
  | failed errno => exact h
  | ready peer stdin =>
    cases stdin with
    | false => exact h
    | true =>
      cases p.input with
      | interrupted => exact h
      | failed errno => exact h
      | data => exact h
      | eof => exact hI.deadline c _ h

/-- A pass without an error keeps it. -/
theorem Kept.pass (hI : Kept P I) (h : I c) (p : Pass σ) (hmeets : c.PassMeets P p) (hquiet : (c.pass p).2.Quiet) :
    I (c.pass p).1 := by
  have hawait := hI.await h p
  unfold Collector.PassMeets at hmeets
  unfold Collector.pass at hquiet ⊢
  split
  · exact h
  rename_i hstop
  rw [if_neg hstop] at hquiet
  have hrest := hmeets (Bool.eq_false_of_not_eq_true hstop)
  generalize c.await p = x at hawait hrest hquiet
  obtain ⟨c₁, flow⟩ := x
  cases flow with
  | next => exact hI.batch hawait (hrest rfl) hquiet
  | leave => exact hawait
  | returned truncated => exact hawait
  | raised errno => exact hawait

/-- `collect` without an error keeps it. -/
theorem Kept.collect (hI : Kept P I) {passes : List (Pass σ)} (h : I c) (hmeets : CollectMeets P c passes)
    (hquiet : (collect c passes).2.Quiet) : I (collect c passes).1 := by
  induction passes generalizing c with
  | nil => exact h
  | cons p rest ih =>
    have hpass := hI.pass h p hmeets.1
    have hrest := hmeets.2
    unfold GroundLink.collect at hquiet ⊢
    generalize c.pass p = x at hpass hrest hquiet
    obtain ⟨c₁, flow⟩ := x
    cases flow with
    | next => exact hpass hquiet
    | leave => exact ih (hpass fun _ hraised => Flow.noConfusion hraised) (hrest rfl) hquiet
    | returned truncated => exact hpass hquiet
    | raised errno => exact hpass hquiet

/-- What is true of every datagram that may come is true of those that are taken. -/
theorem collectMeets_of {passes : List (Pass σ)}
    (h : ∀ p ∈ passes, ∀ t ∈ p.batch, ∀ data source write, t.recv = .datagram data source write →
      ∀ r, P r data source write) : CollectMeets P c passes := by
  have hbatch (c : Collector σ) {turns : List (Turn σ)}
      (h : ∀ t ∈ turns, ∀ data source write, t.recv = .datagram data source write → ∀ r, P r data source write) :
      c.BatchMeets P turns := by
    induction turns generalizing c with
    | nil => trivial
    | cons t rest ih =>
      exact ⟨fun _ _ data source write hrecv => h t List.mem_cons_self data source write hrecv _,
        fun _ => ih _ fun u hu => h u (List.mem_cons_of_mem _ hu)⟩
  induction passes generalizing c with
  | nil => trivial
  | cons p rest ih =>
    exact ⟨fun _ _ => hbatch _ (h p List.mem_cons_self), fun _ => ih fun q hq => h q (List.mem_cons_of_mem _ hq)⟩

/-- The record of what was kept is kept. -/
theorem kept_records (header : Bytes) : Kept P fun c : Collector σ => ∃ kept, Records header c kept where
  accept := fun _ _ _ _ ⟨_, h⟩ _ hok => h.accept hok
  interrupted := fun _ ⟨kept, h⟩ => ⟨kept, { h with socket := .inr ⟨Nat.succ_pos _, rfl⟩ }⟩
  deadline := fun _ _ ⟨kept, h⟩ => ⟨kept, { h with }⟩

end Runs

/-! ## How `collect` returns -/

/-- The pass finds the stop flag set. -/
def Pass.Stops (p : Pass σ) : Prop := p.stopped = true ∨ ∃ t ∈ p.batch, t.stopped = true

/-- The turn ends `collect` by itself: the deadline has passed, or the socket is empty before it. -/
def Turn.Ends (t : Turn σ) (deadline : ℤ) (truncated : Bool) : Prop :=
  if truncated then deadline ≤ t.now else t.now < deadline ∧ t.recv = .blocking

/-- How a turn ends `collect`. -/
theorem Collector.turn_returned {t : Turn σ} {truncated : Bool} (h : c.turn t = (c', .returned truncated)) :
    truncated = false ∧ t.stopped = true ∨ ∃ deadline, c'.deadline = some deadline ∧ t.Ends deadline truncated := by
  unfold Collector.turn at h
  split at h
  · rename_i hstop
    obtain ⟨-, hflow⟩ := Prod.mk.inj h
    exact .inl ⟨(Flow.returned.inj hflow).symm, hstop⟩
  refine .inr ?_
  split at h
  · rename_i htime
    obtain ⟨rfl, hflow⟩ := Prod.mk.inj h
    obtain rfl := Flow.returned.inj hflow
    cases hdeadline : c.deadline with
    | none =>
      rw [hdeadline] at htime
      exact absurd htime Bool.false_ne_true
    | some deadline =>
      rw [hdeadline] at htime
      have hpassed : deadline ≤ t.now := of_decide_eq_true htime
      exact ⟨deadline, rfl, hpassed⟩
  rename_i htime
  cases hrecv : t.recv with
  | blocking =>
    rw [hrecv] at h
    obtain ⟨rfl, hflow⟩ := Prod.mk.inj h
    cases hdeadline : c.deadline with
    | none =>
      rw [hdeadline] at hflow
      exact Flow.noConfusion hflow
    | some deadline =>
      rw [hdeadline] at hflow htime
      obtain rfl := Flow.returned.inj hflow
      exact ⟨deadline, rfl, not_le.mp fun hle => htime (decide_eq_true hle), hrecv⟩
  | failed errno =>
    rw [hrecv] at h
    have hflow := (Prod.mk.inj h).2
    cases hintr : errno == EINTR <;> rw [hintr] at hflow <;> exact Flow.noConfusion hflow
  | datagram data source write =>
    rw [hrecv] at h
    dsimp only at h
    generalize c.receiver.accept data source write = x at h
    obtain ⟨r, result⟩ := x
    cases result <;> exact Flow.noConfusion (Prod.mk.inj h).2

/-- How a batch ends `collect`. -/
theorem Collector.batch_returned {turns : List (Turn σ)} {truncated : Bool}
    (h : c.batch turns = (c', .returned truncated)) :
    truncated = false ∧ (∃ t ∈ turns, t.stopped = true) ∨
      ∃ t ∈ turns, ∃ deadline, c'.deadline = some deadline ∧ t.Ends deadline truncated := by
  induction turns generalizing c with
  | nil => exact Flow.noConfusion (Prod.mk.inj h).2
  | cons t rest ih =>
    unfold Collector.batch at h
    cases hturn : c.turn t with
    | mk c₁ flow =>
      rw [hturn] at h
      cases flow with
      | next =>
        rcases ih h with ⟨hfalse, u, hu, hstop⟩ | ⟨u, hu, hends⟩
        · exact .inl ⟨hfalse, u, List.mem_cons_of_mem _ hu, hstop⟩
        · exact .inr ⟨u, List.mem_cons_of_mem _ hu, hends⟩
      | returned truncated' =>
        obtain ⟨rfl, hflow⟩ := Prod.mk.inj h
        obtain rfl := Flow.returned.inj hflow
        rcases c.turn_returned hturn with ⟨hfalse, hstop⟩ | hends
        · exact .inl ⟨hfalse, t, List.mem_cons_self, hstop⟩
        · exact .inr ⟨t, List.mem_cons_self, hends⟩
      | leave => exact Flow.noConfusion (Prod.mk.inj h).2
      | raised errno => exact Flow.noConfusion (Prod.mk.inj h).2

omit [DecidableEq σ] in
/-- What comes before a batch does not end `collect`. -/
theorem Collector.await_not_returned (c : Collector σ) (p : Pass σ) (truncated : Bool) :
    (c.await p).2 ≠ .returned truncated := by
  unfold Collector.await
  split
  · exact fun h => Flow.noConfusion h
  cases p.selected with
  | interrupted => exact fun h => Flow.noConfusion h
  | failed errno => exact fun h => Flow.noConfusion h
  | ready peer stdin => cases stdin <;> cases p.input <;> cases peer <;> exact fun h => Flow.noConfusion h

/-- `collect` returns because it was stopped, or after the end of the pipe: without truncation once the socket was
found empty before the deadline, and with truncation once the deadline had passed. -/
theorem collect_returned {passes : List (Pass σ)} {truncated : Bool} (h : collect c passes = (c', .returned truncated)) :
    truncated = false ∧ (∃ p ∈ passes, p.Stops) ∨
      ∃ p ∈ passes, ∃ t ∈ p.batch, ∃ deadline, c'.deadline = some deadline ∧ t.Ends deadline truncated := by
  induction passes generalizing c with
  | nil => exact Flow.noConfusion (Prod.mk.inj h).2
  | cons p rest ih =>
    unfold GroundLink.collect at h
    cases hpass : c.pass p with
    | mk c₁ flow =>
      rw [hpass] at h
      cases flow with
      | leave =>
        rcases ih h with ⟨hfalse, q, hq, hstops⟩ | ⟨q, hq, hends⟩
        · exact .inl ⟨hfalse, q, List.mem_cons_of_mem _ hq, hstops⟩
        · exact .inr ⟨q, List.mem_cons_of_mem _ hq, hends⟩
      | next => exact Flow.noConfusion (Prod.mk.inj h).2
      | raised errno => exact Flow.noConfusion (Prod.mk.inj h).2
      | returned truncated' =>
        obtain ⟨rfl, hflow⟩ := Prod.mk.inj h
        obtain rfl := Flow.returned.inj hflow
        unfold Collector.pass at hpass
        split at hpass
        · rename_i hstop
          exact .inl ⟨(Flow.returned.inj (Prod.mk.inj hpass).2).symm, p, List.mem_cons_self, .inl hstop⟩
        have hawait := c.await_not_returned p truncated'
        generalize c.await p = x at hpass hawait
        obtain ⟨c₂, flow⟩ := x
        cases flow with
        | next =>
          rcases Collector.batch_returned hpass with ⟨hfalse, hstops⟩ | ⟨t, ht, hends⟩
          · exact .inl ⟨hfalse, p, List.mem_cons_self, .inr hstops⟩
          · exact .inr ⟨p, List.mem_cons_self, t, ht, hends⟩
        | leave => exact Flow.noConfusion (Prod.mk.inj hpass).2
        | raised errno => exact Flow.noConfusion (Prod.mk.inj hpass).2
        | returned truncated =>
          obtain rfl := Flow.returned.inj (Prod.mk.inj hpass).2
          exact absurd rfl hawait

end Tvc.GroundLink
