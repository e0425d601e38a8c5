import Tvc.Admission.Steps

/-!
# Conservation of received frames

Every received normal frame is in one of nine counters, in a slot, or the candidate of the open
cycle. Frames move between the three as cycles open, receive and close; the ledger below
balances in every reachable state, and the identities the object checks of itself are the
ledger of a closed cycle.
-/

namespace Tvc.Freerun.Admission

open SlotWindow (entries entries_succ)

variable {s : Admission}

/-! ## Shape -/

/-- The slots hold what their numbers say, and are used only once a cycle has started. -/
structure Shape (s : Admission) : Prop where
  valid : s.valid = true → s.skewMax ≤ kMaxSkew
  opened : s.isOpen = true → s.valid = true
  slots : s.SlotTicks
  unstarted : s.cycles = 0 → s.isOpen = false → ∀ i, s.future i = none

/-- A frame has no identity when no known frame has its tick. -/
theorem identity_eq_none {f : Frame} :
    s.identity f = none ↔ ∀ g ∈ s.known f.terminal, g.tick ≠ f.tick := by
  simp [identity]

/-- A parked frame is known. -/
theorem mem_known_of_parked {f : Frame} (h : f ∈ s.parked) (terminal : Bool) : f ∈ s.known terminal := by
  simp [known, h]

/-- What is parked in a slot below the limit. -/
theorem mem_parked {f : Frame} : f ∈ s.parked ↔ ∃ i < kMaxSkew + 1, s.future i = some f := by
  rw [parked_eq, SlotWindow.mem_entries]

/-- A decoded frame is not malformed. -/
theorem classify_ne_malformed (s : Admission) (f : Frame) : s.classify f ≠ .malformed := by
  unfold classify
  repeat' split
  all_goals simp

/-- The facts behind the class of a future frame. -/
theorem classify_future {f : Frame} (h : s.classify f = .future) :
    s.identity f = none ∧ s.expected < f.tick ∧ f.tick - s.expected ≤ s.skewMax := by
  unfold classify at h
  split at h
  · contradiction
  · cases hprior : s.identity f with
    | some prior =>
      rw [hprior] at h
      dsimp only at h
      split at h <;> contradiction
    | none =>
      rw [hprior] at h
      dsimp only at h
      repeat' split at h
      all_goals first | contradiction | skip
      exact ⟨rfl, by omega, by assumption⟩

/-- The slot of a future frame is free, and lies in the window. -/
theorem slot_of_future (hshape : s.Shape) (hopen : s.isOpen = true) {f : Frame}
    (h : s.classify f = .future) :
    s.future (f.tick - s.expected - 1) = none ∧ f.tick - s.expected - 1 < s.skewMax ∧
      s.skewMax ≤ kMaxSkew ∧ f.tick = s.expected + (f.tick - s.expected - 1) + 1 := by
  obtain ⟨hnew, hlater, hskew⟩ := classify_future h
  have hlimit := hshape.valid (hshape.opened hopen)
  refine ⟨?_, by omega, hlimit, by omega⟩
  cases hslot : s.future (f.tick - s.expected - 1) with
  | none => rfl
  | some g =>
    have htick := (hshape.slots _ g hslot).1
    have hparked : g ∈ s.parked := mem_parked.mpr ⟨_, by omega, hslot⟩
    exact absurd (by omega) (identity_eq_none.mp hnew g (mem_known_of_parked hparked _))

/-- A new object has the shape. -/
theorem Shape.initial (tickBase skewMax warmup : ℕ) : (initial tickBase skewMax warmup).Shape where
  valid h := by simpa [Admission.initial] using h
  opened h := by simp [Admission.initial] at h
  slots i f h := by simp [Admission.initial] at h
  unstarted _ _ i := rfl

/-- Opening keeps the shape. -/
theorem Shape.opened_step (h : s.Shape) {expected : ℕ} (ha : s.Admissible expected) :
    (s.opened expected).Shape where
  valid := h.valid
  opened _ := ha.valid
  slots j f hf := by
    have hslot : s.future (j + (expected - s.expected)) = some f := hf
    by_cases hcycles : s.cycles = 0
    · rw [h.unstarted hcycles ha.closed] at hslot
      contradiction
    · have hlater := ha.later hcycles
      have := h.slots _ f hslot
      exact ⟨by simp only [Admission.opened, openCycle]; omega, by
        simp only [Admission.opened, openCycle]; omega, this.2.2⟩
  unstarted _ hopen := by simp [Admission.opened, openCycle] at hopen

/-- Absorbing a frame under its own class keeps the shape. -/
theorem Shape.absorb_step (h : s.Shape) (hopen : s.isOpen = true) (f : Frame) :
    (s.absorb f (s.classify f)).Shape where
  valid := h.valid
  opened _ := h.opened hopen
  slots i g hg := by
    simp only [absorb] at hg
    by_cases hfuture : s.classify f = .future
    · obtain ⟨_, hin, hlimit, htick⟩ := slot_of_future h hopen hfuture
      rw [if_pos hfuture] at hg
      by_cases hi : i = f.tick - s.expected - 1
      · subst hi
        rw [Function.update_self] at hg
        obtain rfl := Option.some.inj hg
        exact ⟨htick, hin, hlimit⟩
      · rw [Function.update_of_ne hi] at hg
        exact h.slots i g hg
    · rw [if_neg hfuture] at hg
      exact h.slots i g hg
  unstarted _ hclosed := by
    rw [show (s.absorb f (s.classify f)).isOpen = s.isOpen from rfl, hopen] at hclosed
    contradiction

/-- Counting a datagram changes no other part of the shape. -/
theorem Shape.countRx_step (h : s.Shape) : s.countRx.Shape := ⟨h.valid, h.opened, h.slots, h.unstarted⟩

/-- Every step keeps the shape. -/
theorem Shape.step {s' : Admission} (h : s.Shape) (hstep : s.Step s') : s'.Shape := by
  cases hstep with
  | idle => exact h
  | fault => exact ⟨h.valid, h.opened, h.slots, h.unstarted⟩
  | opened ha => exact h.opened_step ha
  | malformed e ha => exact ⟨h.valid, h.opened, h.slots, h.unstarted⟩
  | absorbed f ha => exact h.countRx_step.absorb_step ha.isOpen f
  | closed hopen =>
    exact ⟨h.valid, fun hclosed => by simp [closed] at hclosed, h.slots,
      fun hzero => absurd hzero (Nat.succ_ne_zero s.cycles)⟩

/-- A property kept by every step holds of every reachable state. -/
theorem Reachable.rule {P : Admission → Prop} (hinitial : ∀ b k w, P (Admission.initial b k w))
    (hstep : ∀ s s', s.Shape → P s → s.Step s' → P s') (h : s.Reachable) : P s := by
  obtain ⟨tickBase, skewMax, warmup, calls, rfl⟩ := h
  refine (Machine.run_invariant (P := fun s => s.Shape ∧ P s) (fun s c hs => ?_)
    ⟨Shape.initial tickBase skewMax warmup, hinitial ..⟩ calls).2
  have hnext := call_step hs.1.slots hs.1.unstarted c
  exact ⟨hs.1.step hnext, hstep s _ hs.1 hs.2 hnext⟩

/-- Every reachable state has the shape. -/
theorem Reachable.shape (h : s.Reachable) : s.Shape :=
  h.rule Shape.initial fun _ _ hs _ hstep => hs.step hstep

/-! ## The ledger -/

/-- The normal frames of a list. -/
abbrev normals (frames : List Frame) : ℕ := frames.countP fun f => !f.terminal

/-- Opening splits the parked frames into the skipped, the due and the rest. -/
theorem parked_opened (h : s.Shape) {expected : ℕ} (ha : s.Admissible expected) :
    s.parked = s.skipped expected ++ (s.dueAt expected).toList ++ (s.opened expected).parked := by
  simp only [parked_eq, skipped, dueAt]
  by_cases hcycles : s.cycles = 0
  · have hnone : s.future = fun _ => none := funext (h.unstarted hcycles ha.closed)
    simp [opened, hnone]
  · have hgap : expected - s.expected = expected - s.expected - 1 + 1 := by
      have := ha.later hcycles
      omega
    have hbeyond : ∀ i, kMaxSkew + 1 ≤ i → s.future i = none := fun i hi => h.slots.beyond (by omega)
    rw [SlotWindow.entries_shift hbeyond (expected - s.expected - 1 + 1), entries_succ, opened, ← hgap]

/-- The frames of a ledger that are neither counted nor parked: an open cycle's candidate. -/
def inFlight (s : Admission) : ℕ := s.candidateFrame.isSome.toNat

/-- Adding counts adds their dispositions. -/
@[simp] theorem dispositions_add (a b : AdmissionCounts) :
    (a.add b).dispositions = a.dispositions + b.dispositions := by
  simp only [AdmissionCounts.add, AdmissionCounts.dispositions]
  omega

/-- Closing disposes of the candidate. -/
theorem dispositions_closedCounts (s : Admission) :
    s.closedCounts.dispositions = s.cycle.counts.dispositions + s.inFlight := by
  simp only [closedCounts, freshSample, AdmissionCounts.dispositions, inFlight]
  cases s.candidateFrame with
  | none => simp
  | some c => cases hvalid : c.valid <;> simp [Option.filter, hvalid] <;> omega

/-- The ledger of an open cycle, over counts `c` that it adds to. -/
def Balances (c : AdmissionCounts) (start : ℕ) (s : Admission) : Prop :=
  c.received + s.cycle.counts.received + start =
    c.dispositions + s.cycle.counts.dispositions + s.inFlight + s.futureParked

/-- Absorbing a frame keeps the books: it is received once and disposed of once. -/
theorem absorb_books (hshape : s.Shape) (hopen : s.isOpen = true) (f : Frame) :
    let t := s.absorb f (s.classify f)
    t.cycle.counts.received + (s.cycle.counts.dispositions + s.inFlight + s.futureParked) =
      s.cycle.counts.received + (t.cycle.counts.dispositions + t.inFlight + t.futureParked) := by
  have hparked : (s.absorb f (s.classify f)).futureParked =
      s.futureParked + (decide (s.classify f = .future) && !f.terminal).toNat := by
    simp only [futureParked, parked_eq, absorb]
    by_cases hfuture : s.classify f = .future
    · obtain ⟨hfree, hin, hlimit, -⟩ := slot_of_future hshape hopen hfuture
      rw [if_pos hfuture, SlotWindow.countP_entries_update (by omega) hfree]
      simp [hfuture]
    · simp [hfuture]
  dsimp only
  rw [hparked]
  cases hterminal : f.terminal with
  | true => simp [absorb, inFlight, competes, hterminal]
  | false =>
    cases hkind : s.classify f with
    | malformed => exact absurd hkind (classify_ne_malformed s f)
    | current =>
      simp [absorb, inFlight, competes, hterminal, normalCounts, AdmissionCounts.dispositions]
      omega
    | _ => simp [absorb, inFlight, competes, hterminal, normalCounts, AdmissionCounts.dispositions]; omega

/-- A cycle opens balanced over counts that balance with the parked frames. -/
theorem balances_opened (hshape : s.Shape) {expected : ℕ} (ha : s.Admissible expected)
    {c : AdmissionCounts} {start : ℕ} (h : c.received + start = c.dispositions + s.futureParked) :
    Balances c start (s.opened expected) := by
  have hparked : s.futureParked = normals (s.skipped expected) + normals (s.dueAt expected).toList +
      (s.opened expected).futureParked := by
    rw [futureParked, parked_opened hshape ha, List.countP_append, List.countP_append]
    rfl
  have hdue : (s.opened expected).inFlight = normals (s.dueAt expected).toList := by
    simp only [inFlight, opened, normals]
    cases s.dueAt expected with
    | none => rfl
    | some f => cases hterminal : f.terminal <;> simp [Option.filter, hterminal]
  have hcounts : (s.opened expected).cycle.counts.received = 0 ∧
      (s.opened expected).cycle.counts.dispositions = normals (s.skipped expected) := by
    simp [opened, AdmissionCounts.dispositions]
  unfold Balances
  omega

/-- A balanced cycle closes balanced. -/
theorem Balances.closed {c : AdmissionCounts} {start : ℕ} (h : Balances c start s) :
    (c.add s.closedCounts).received + start =
      (c.add s.closedCounts).dispositions + s.closed.futureParked := by
  have hparked : s.closed.futureParked = s.futureParked := rfl
  have hreceived : (c.add s.closedCounts).received = c.received + s.cycle.counts.received := rfl
  rw [dispositions_add, dispositions_closedCounts, hparked, hreceived]
  unfold Balances at h
  omega

/-- Absorbing a frame keeps a cycle balanced. -/
theorem Balances.absorb {c : AdmissionCounts} {start : ℕ} (h : Balances c start s) (hshape : s.Shape)
    (hopen : s.isOpen = true) (f : Frame) : Balances c start (s.absorb f (s.classify f)) := by
  have hbooks := absorb_books hshape hopen f
  unfold Balances at h ⊢
  dsimp only at hbooks
  omega

/-- A malformed datagram enters no book. -/
theorem Balances.malformed {c : AdmissionCounts} {start : ℕ} (h : Balances c start s)
    (e : Telem.DatagramError) :
    Balances c start (s.countRx.malformed e) := by
  have hreceived : (countMalformed s.cycle.counts e).received = s.cycle.counts.received := by
    cases e <;> rfl
  have hdisposed : (countMalformed s.cycle.counts e).dispositions = s.cycle.counts.dispositions := by
    cases e <;> rfl
  change c.received + (countMalformed s.cycle.counts e).received + start =
    c.dispositions + (countMalformed s.cycle.counts e).dispositions + s.inFlight + s.futureParked
  rw [hreceived, hdisposed]
  exact h

/-- The books of the object, in and between cycles, over the run and over its recorded part. -/
structure Ledger (s : Admission) : Prop where
  openEpisode : s.isOpen = true → Balances s.episode 0 s
  closedEpisode : s.isOpen = false → s.episode.received = s.episode.dispositions + s.futureParked
  blank : s.cycles ≤ s.warmup → s.recorded = {}
  openRecorded : s.isOpen = true → s.warmup ≤ s.cycles →
    ∃ w, s.warmupOccupancy = some w ∧ Balances s.recorded w s
  closedRecorded : s.isOpen = false → s.warmup < s.cycles →
    ∃ w, s.warmupOccupancy = some w ∧ s.recorded.received + w = s.recorded.dispositions + s.futureParked

/-- The books of a new object are empty. -/
theorem Ledger.initial (tickBase skewMax warmup : ℕ) : (initial tickBase skewMax warmup).Ledger where
  openEpisode h := by simp [Admission.initial] at h
  closedEpisode _ := by
    simp [Admission.initial, futureParked, parked_eq, AdmissionCounts.dispositions]
  blank _ := rfl
  openRecorded h := by simp [Admission.initial] at h
  closedRecorded _ h := by simp [Admission.initial] at h

/-- Opening a cycle keeps the books. -/
theorem Ledger.opened_step (h : s.Ledger) (hshape : s.Shape) {expected : ℕ}
    (ha : s.Admissible expected) : (s.opened expected).Ledger where
  openEpisode _ := balances_opened hshape ha (h.closedEpisode ha.closed)
  closedEpisode hclosed := by simp [opened, openCycle] at hclosed
  blank := h.blank
  openRecorded _ hwarm := by
    rcases Nat.eq_or_lt_of_le hwarm with heq | hlt
    · have hwarmup : s.cycles = s.warmup := heq.symm
      refine ⟨s.futureParked, by simp [opened, openCycle, hwarmup], ?_⟩
      have hblank : (s.opened expected).recorded = {} := h.blank hwarmup.le
      rw [hblank]
      exact balances_opened hshape ha (by simp [AdmissionCounts.dispositions])
    · obtain ⟨w, hw, hbooks⟩ := h.closedRecorded ha.closed hlt
      have hlater : s.cycles ≠ s.warmup := Nat.ne_of_gt hlt
      exact ⟨w, by simp [opened, openCycle, hlater, hw], balances_opened hshape ha hbooks⟩
  closedRecorded hclosed := by simp [opened, openCycle] at hclosed

/-- Absorbing a frame keeps the books. -/
theorem Ledger.absorb_step (h : s.Ledger) (hshape : s.Shape) (hopen : s.isOpen = true) (f : Frame) :
    (s.absorb f (s.classify f)).Ledger where
  openEpisode _ := (h.openEpisode hopen).absorb hshape hopen f
  closedEpisode hclosed := absurd (hopen.symm.trans hclosed) (by simp)
  blank := h.blank
  openRecorded _ hwarm := by
    obtain ⟨w, hw, hbooks⟩ := h.openRecorded hopen hwarm
    exact ⟨w, hw, hbooks.absorb hshape hopen f⟩
  closedRecorded hclosed := absurd (hopen.symm.trans hclosed) (by simp)

/-- Closing a cycle keeps the books. -/
theorem Ledger.closed_step (h : s.Ledger) (hopen : s.isOpen = true) : s.closed.Ledger where
  openEpisode hclosed := by simp [closed] at hclosed
  closedEpisode _ := (h.openEpisode hopen).closed
  blank hwarm := by
    have hbefore : s.cycles + 1 ≤ s.warmup := hwarm
    simp only [closed, if_neg (show ¬s.warmup ≤ s.cycles by omega)]
    exact h.blank (by omega)
  openRecorded hclosed := by simp [closed] at hclosed
  closedRecorded _ hwarm := by
    have hreached : s.warmup ≤ s.cycles := Nat.lt_succ_iff.mp hwarm
    obtain ⟨w, hw, hbooks⟩ := h.openRecorded hopen hreached
    refine ⟨w, hw, ?_⟩
    have hrecorded : s.closed.recorded = s.recorded.add s.closedCounts := by simp [closed, hreached]
    rw [hrecorded]
    exact hbooks.closed

/-- Every reachable state keeps the books. -/
theorem Reachable.ledger (h : s.Reachable) : s.Ledger := by
  refine h.rule Ledger.initial fun s s' hshape hs hstep => ?_
  cases hstep with
  | idle => exact hs
  | fault => exact ⟨hs.openEpisode, hs.closedEpisode, hs.blank, hs.openRecorded, hs.closedRecorded⟩
  | opened ha => exact hs.opened_step hshape ha
  | malformed e ha =>
    refine ⟨fun hopen => (hs.openEpisode hopen).malformed e, hs.closedEpisode, hs.blank,
      fun hopen hwarm => ?_, hs.closedRecorded⟩
    obtain ⟨w, hw, hbooks⟩ := hs.openRecorded hopen hwarm
    exact ⟨w, hw, hbooks.malformed e⟩
  | absorbed f ha =>
    have hcounted : s.countRx.Ledger :=
      ⟨hs.openEpisode, hs.closedEpisode, hs.blank, hs.openRecorded, hs.closedRecorded⟩
    exact hcounted.absorb_step hshape.countRx_step ha.isOpen f
  | closed hopen => exact hs.closed_step hopen

/-! ## Capacities -/

/-- The most datagrams a cycle has taken: the carry makes the first one longer. -/
def rxLimit (s : Admission) : ℕ := if s.isOpen then s.batchCap else if s.cycles ≤ 1 then 9 else 8

/-- The discards a cycle's counts account for. -/
def discarded (c : AdmissionCounts) : ℕ := c.old + c.superseded + c.nonfinite + c.skewExcess

/-- The lists of a cycle are bounded by the datagrams it took. -/
structure Capacity (s : Admission) : Prop where
  rx : s.cycle.rxCount ≤ s.rxLimit
  counted : s.cycle.discards.length = discarded s.cycle.counts
  discards : s.cycle.discards.length ≤ s.cycle.rxCount
  seen : s.terminalSeen.length ≤ s.cycle.rxCount

/-- No cycle takes more than nine datagrams. -/
theorem rxLimit_le (s : Admission) : s.rxLimit ≤ 9 := by
  unfold rxLimit batchCap
  repeat' split
  all_goals omega

/-- A frame is discarded exactly when its counts say so. -/
theorem discarded_absorb (f : Frame) :
    discarded (s.absorb f (s.classify f)).cycle.counts =
      discarded s.cycle.counts + (s.discardOf f (s.classify f)).isSome.toNat := by
  simp only [absorb, discarded, discardOf]
  cases f.terminal with
  | true => simp
  | false =>
    cases s.classify f with
    | malformed | duplicate | conflict | future => simp [normalCounts]
    | nonfinite | old | excessiveSkew =>
      simp [normalCounts]
      omega
    | current =>
      cases s.candidateFrame with
      | none => simp [normalCounts]
      | some c =>
        simp [normalCounts]
        omega

/-- At most one terminal is seen with each frame. -/
theorem terminalSeen_absorb_le (s : Admission) (f : Frame) (kind : SensorClass) :
    (s.absorb f kind).terminalSeen.length ≤ s.terminalSeen.length + 1 := by
  by_cases hseen : (f.terminal && decide (kind ≠ .conflict)) = true
  · simp only [absorb, if_pos hseen, List.length_append, List.length_singleton, le_refl]
  · simp only [absorb, if_neg hseen, Nat.le_succ]

/-- Taking and absorbing a frame stays within the capacities. -/
theorem Capacity.absorb_step (h : s.Capacity) (ha : s.Accepts) (f : Frame) :
    (s.countRx.absorb f (s.countRx.classify f)).Capacity := by
  have hroom := ha.room
  have hlimit : s.rxLimit = s.batchCap := by rw [rxLimit, if_pos ha.isOpen]
  have hlimit' : (s.countRx.absorb f (s.countRx.classify f)).rxLimit = s.batchCap := by
    rw [rxLimit, if_pos (show (s.countRx.absorb f (s.countRx.classify f)).isOpen = true from ha.isOpen)]
    rfl
  have hrx : (s.countRx.absorb f (s.countRx.classify f)).cycle.rxCount = s.cycle.rxCount + 1 := rfl
  have hshort : s.cycle.discards.length ≠ 9 := by
    have := s.rxLimit_le
    have := h.discards
    omega
  have hlength : (s.countRx.absorb f (s.countRx.classify f)).cycle.discards.length =
      s.cycle.discards.length + (s.countRx.discardOf f (s.countRx.classify f)).isSome.toNat := by
    simp only [absorb, pushDiscard, countRx, beq_iff_eq, hshort, if_false, List.length_append]
    cases discardOf _ f _ <;> rfl
  have hone (b : Bool) : b.toNat ≤ 1 := by cases b <;> simp
  refine ⟨by rw [hrx, hlimit']; omega, ?_, ?_, ?_⟩
  · rw [hlength, discarded_absorb, h.counted]
    rfl
  · rw [hlength, hrx]
    have := h.discards
    have := hone (s.countRx.discardOf f (s.countRx.classify f)).isSome
    omega
  · rw [hrx]
    have hgrown := s.countRx.terminalSeen_absorb_le f (s.countRx.classify f)
    exact hgrown.trans (Nat.succ_le_succ h.seen)

/-- Every reachable state is within its capacities. -/
theorem Reachable.capacity (h : s.Reachable) : s.Capacity := by
  refine h.rule (fun b k w => ⟨Nat.zero_le _, rfl, le_rfl, le_rfl⟩) fun s s' _ hs hstep => ?_
  cases hstep with
  | idle => exact hs
  | fault => exact ⟨hs.rx, hs.counted, hs.discards, hs.seen⟩
  | opened ha => exact ⟨Nat.zero_le _, rfl, le_rfl, le_rfl⟩
  | malformed e ha =>
    have hroom := ha.room
    refine ⟨?_, ?_, Nat.le_succ_of_le hs.discards, Nat.le_succ_of_le hs.seen⟩
    · simp only [rxLimit, malformed, count, countRx, ha.isOpen, if_true]
      exact hroom
    · have hsame : discarded (countMalformed s.cycle.counts e) = discarded s.cycle.counts := by
        cases e <;> rfl
      exact hs.counted.trans hsame.symm
  | absorbed f ha => exact hs.absorb_step ha f
  | closed hopen =>
    refine ⟨?_, hs.counted, hs.discards, hs.seen⟩
    have hrx := hs.rx
    rw [rxLimit, if_pos hopen, batchCap] at hrx
    have hlimit : s.closed.rxLimit = if s.cycles + 1 ≤ 1 then 9 else 8 := rfl
    rw [hlimit]
    by_cases hfirst : s.cycles = 0
    · simpa [hfirst, closed] using hrx
    · simpa [hfirst, closed] using hrx

/-- A parked frame stays in its slot while datagrams are received. -/
theorem receive_keeps_slot (hshape : s.Shape) (d : Datagram) {i : ℕ} {f : Frame}
    (h : s.future i = some f) : (s.receive d).1.future i = some f := by
  by_cases ha : s.Accepts
  · rw [receive_of_accepts ha]
    cases d.frame with
    | error e => exact h
    | ok g =>
      simp only [absorb]
      split
      · rename_i hfuture
        obtain ⟨hfree, -⟩ := slot_of_future hshape.countRx_step ha.isOpen hfuture
        have hslot : i ≠ g.tick - s.expected - 1 := by
          rintro rfl
          exact absurd (hfree.symm.trans h) (by simp)
        exact (Function.update_of_ne hslot ..).trans h
      · exact h
  · rw [receive_of_refused ha]
    exact h

end Tvc.Freerun.Admission

namespace Tvc.Freerun

open Admission

/-- Conservation: in every state the object can reach, the identities hold between cycles, every
slot holds the frame of its own tick, no slot is overwritten, and the lists of a cycle stay
within their arrays. -/
theorem admission_conserves (tickBase skewMax warmup : ℕ) (calls : List Call) :
    let s := after tickBase skewMax warmup calls
    (s.isOpen = false →
      s.episode.received = s.episode.dispositions + s.futureParked ∧
        (s.warmup < s.cycles → ∃ w, s.warmupOccupancy = some w ∧
          s.recorded.received + w = s.recorded.dispositions + s.futureParked) ∧
        s.identitiesHold = true ∧
        s.cycle.discards.length = s.cycle.counts.old + s.cycle.counts.superseded +
          s.cycle.counts.nonfinite + s.cycle.counts.skewExcess ∧
        s.cycle.rxCount ≤ if s.cycles ≤ 1 then 9 else 8) ∧
      (∀ i f, s.future i = some f → f.tick = s.expected + i + 1 ∧ i < s.skewMax) ∧
      (∀ d i f, s.future i = some f → (s.receive d).1.future i = some f) ∧
      s.terminalSeen.length ≤ s.cycle.rxCount ∧ s.cycle.discards.length ≤ s.cycle.rxCount ∧
      s.cycle.rxCount ≤ 9 := by
  intro s
  have hs : s.Reachable := ⟨_, _, _, calls, rfl⟩
  have hledger := hs.ledger
  have hcapacity := hs.capacity
  refine ⟨fun hclosed => ⟨hledger.closedEpisode hclosed, hledger.closedRecorded hclosed, ?_,
    hcapacity.counted, ?_⟩, fun i f hf => ⟨(hs.shape.slots i f hf).1, (hs.shape.slots i f hf).2.1⟩,
    fun d i f => receive_keeps_slot hs.shape d, hcapacity.seen, hcapacity.discards,
    hcapacity.rx.trans s.rxLimit_le⟩
  · have hepisode := hledger.closedEpisode hclosed
    rcases Nat.lt_or_ge s.warmup s.cycles with hwarm | hcold
    · obtain ⟨w, hw, hrecorded⟩ := hledger.closedRecorded hclosed hwarm
      simp [identitiesHold, AdmissionCounts.closes, hclosed, hepisode, hw, hrecorded]
    · simp [identitiesHold, AdmissionCounts.closes, hclosed, hepisode, hcold]
  · have hrx := hcapacity.rx
    rwa [rxLimit, hclosed, if_neg Bool.false_ne_true] at hrx

end Tvc.Freerun
