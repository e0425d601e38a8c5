import Tvc.Admission.Model
import Tvc.Lib.SlotWindow

/-!
# What one call of the admission does

`receive` reaches each of its branches through a chain of tests and updates. Here the chain is
split once: `classify` is the class a frame is given, and `absorb` the state it leaves, one
field at a time. The invariants and the laws of the admission are read off these two, and no
later proof walks through `receive` again.
-/

namespace Tvc.Freerun

/-- A frame of this class is taken as received: `remember` is called on it. -/
def SensorClass.remembered : SensorClass → Bool
  | .malformed => false
  | .duplicate => false
  | .conflict => false
  | _ => true

namespace Admission

variable {s : Admission}

/-! ## Receiving a frame -/

/-- The class of a frame, from the state in which it arrives. -/
def classify (s : Admission) (f : Frame) : SensorClass :=
  if nonfinite f then .nonfinite
  else match s.identity f with
  | some prior => if prior.payload = f.payload then .duplicate else .conflict
  | none =>
    if !f.terminal && s.held.any fun held => f.tick ≤ held.tick then .old
    else if f.tick ≤ s.expected then .current
    else if f.tick - s.expected ≤ s.skewMax then .future
    else .excessiveSkew

/-- The frame competes to be the sample of the cycle. -/
def competes (f : Frame) (kind : SensorClass) : Bool := !f.terminal && decide (kind = .current)

/-- The frame competes to be the terminal of the cycle. -/
def dueTerminal (expected : ℕ) (f : Frame) (kind : SensorClass) : Bool :=
  f.terminal && decide (f.tick ≤ expected) && decide (kind ≠ .conflict)

/-- The discard a frame causes, of itself or of the candidate it displaces. -/
def discardOf (s : Admission) (f : Frame) (kind : SensorClass) : Option Discard :=
  if f.terminal then none
  else match kind with
  | .nonfinite => some ⟨.nonfinite, f.fields.tSendNs⟩
  | .old => some ⟨.old, f.fields.tSendNs⟩
  | .excessiveSkew => some ⟨.excessiveSkew, f.fields.tSendNs⟩
  | .current => s.candidateFrame.map fun c => ⟨.current, (if c.tick < f.tick then c else f).fields.tSendNs⟩
  | _ => none

/-- The discards after a frame, cut off at the capacity of the array. -/
def pushDiscard (discards : List Discard) (discard : Option Discard) : List Discard :=
  if discards.length == 9 then discards else discards ++ discard.toList

/-- The counts of the cycle after a normal frame. -/
def normalCounts (kind : SensorClass) (occupied : Bool) (c : AdmissionCounts) : AdmissionCounts :=
  let c := { c with received := c.received + 1 }
  match kind with
  | .nonfinite => { c with nonfinite := c.nonfinite + 1 }
  | .duplicate => { c with duplicate := c.duplicate + 1 }
  | .conflict => { c with conflict := c.conflict + 1 }
  | .old => { c with old := c.old + 1 }
  | .current => { c with superseded := c.superseded + occupied.toNat }
  | .excessiveSkew => { c with skewExcess := c.skewExcess + 1 }
  | _ => c

/-- The terminal counts after a terminal frame. -/
def envelopeCounts (kind : SensorClass) (illegal : Bool) (c : TerminalCounts) : TerminalCounts :=
  let c := { c with receivedRaw := c.receivedRaw + 1, illegalReason := c.illegalReason + illegal.toNat }
  match kind with
  | .duplicate => { c with duplicate := c.duplicate + 1 }
  | .conflict => { c with conflict := c.conflict + 1 }
  | .excessiveSkew => { c with skewExcess := c.skewExcess + 1 }
  | _ => c

/-- The state after a frame of a given class. -/
def absorb (s : Admission) (f : Frame) (kind : SensorClass) : Admission :=
  { s with
    integrity := s.integrity || decide (kind = .conflict) || decide (kind = .excessiveSkew) ||
      (dueTerminal s.expected f kind && f.illegalReason) ||
      ((s.discardOf f kind).isSome && s.cycle.discards.length == 9)
    lastNormalTick := if f.terminal then s.lastNormalTick else laterTick s.lastNormalTick f.tick
    newestReceived :=
      if kind.remembered then RunningMax.pick Frame.tick s.newestReceived f else s.newestReceived
    candidateFrame :=
      if competes f kind then RunningMax.pick Frame.tick s.candidateFrame f else s.candidateFrame
    terminalCandidate :=
      if dueTerminal s.expected f kind && s.terminalLatch.isNone then
        RunningMax.pick Frame.tick s.terminalCandidate f
      else s.terminalCandidate
    terminalSeen := if f.terminal && decide (kind ≠ .conflict) then s.terminalSeen ++ [f] else s.terminalSeen
    future :=
      if kind = .future then Function.update s.future (f.tick - s.expected - 1) (some f) else s.future
    cycle :=
      { s.cycle with
        counts :=
          if f.terminal then s.cycle.counts
          else normalCounts kind s.candidateFrame.isSome s.cycle.counts
        discards := pushDiscard s.cycle.discards (s.discardOf f kind) }
    terminalCounts :=
      if f.terminal then envelopeCounts kind (dueTerminal s.expected f kind && f.illegalReason) s.terminalCounts
      else s.terminalCounts }

/-- A discard appends to the array, or is the fault of a full one. -/
theorem discard_eq (s : Admission) (kind : SensorClass) (f : Frame) :
    s.discard kind f =
      { s with
        integrity := s.integrity || s.cycle.discards.length == 9
        cycle.discards := pushDiscard s.cycle.discards (some ⟨kind, f.fields.tSendNs⟩) } := by
  unfold discard pushDiscard
  by_cases hfull : s.cycle.discards.length = 9 <;> simp [hfull]

/-- A candidate is compared with the one before it, and one of the two is superseded. -/
theorem candidate_eq {f : Frame} (hterminal : f.terminal = false) :
    s.candidate f =
      { s with
        integrity := s.integrity || ((s.discardOf f .current).isSome && s.cycle.discards.length == 9)
        candidateFrame := RunningMax.pick Frame.tick s.candidateFrame f
        cycle :=
          { s.cycle with
            counts :=
              { s.cycle.counts with
                superseded := s.cycle.counts.superseded + s.candidateFrame.isSome.toNat }
            discards := pushDiscard s.cycle.discards (s.discardOf f .current) } } := by
  unfold candidate
  cases hcandidate : s.candidateFrame with
  | none => simp [discardOf, hterminal, hcandidate, pushDiscard]
  | some c =>
    by_cases hlater : c.tick < f.tick <;>
      simp [discardOf, hterminal, hcandidate, discard_eq, count, RunningMax.pick, hlater]

/-- A due terminal is compared with the one before it unless one is latched. -/
theorem terminal_eq (s : Admission) (f : Frame) :
    s.terminal f =
      { s with
        integrity := s.integrity || f.illegalReason
        terminalCounts :=
          { s.terminalCounts with
            illegalReason := s.terminalCounts.illegalReason + f.illegalReason.toNat }
        terminalCandidate :=
          if s.terminalLatch.isNone then RunningMax.pick Frame.tick s.terminalCandidate f
          else s.terminalCandidate } := by
  unfold terminal
  by_cases hlatch : s.terminalLatch.isNone = true <;> cases f.illegalReason <;>
    simp [countTerminal, hlatch]

/-- Counting a frame does not change what is known. -/
theorem identity_arrive (s : Admission) (f g : Frame) : (s.arrive g).identity f = s.identity f := by
  unfold arrive
  split <;> rfl

/-- A terminal frame is never nonfinite. -/
theorem nonfinite_terminal {f : Frame} (h : f.terminal = true) : nonfinite f = false := by
  simp [nonfinite, h]

/-- A known tick: the frame is a duplicate or a conflict. -/
theorem settleIdentity_eq (s : Admission) (f prior : Frame) :
    (s.arrive f).settleIdentity f prior =
      let kind := if prior.payload = f.payload then SensorClass.duplicate else .conflict
      (s.absorb f kind, kind) := by
  by_cases hsame : prior.payload = f.payload <;> cases hterminal : f.terminal
  · simp [settleIdentity, arrive, hterminal, hsame, absorb, discardOf, competes, pushDiscard,
      dueTerminal, count, normalCounts, SensorClass.remembered]
  · by_cases hdue : f.tick ≤ s.expected <;>
      simp [settleIdentity, arrive, hterminal, hsame, absorb, discardOf, competes, pushDiscard,
        dueTerminal, see, terminal_eq, countTerminal, envelopeCounts, SensorClass.remembered, hdue]
  · simp [settleIdentity, arrive, hterminal, hsame, absorb, discardOf, competes, pushDiscard,
      dueTerminal, count, normalCounts, SensorClass.remembered]
  · simp [settleIdentity, arrive, hterminal, hsame, absorb, discardOf, competes, pushDiscard,
      dueTerminal, countTerminal, envelopeCounts, SensorClass.remembered]

/-- An unknown tick: the frame is placed by its tick alone. -/
theorem place_eq {f : Frame} (hfinite : nonfinite f = false) (hnew : s.identity f = none) :
    (s.arrive f).place f = (s.absorb f (s.classify f), s.classify f) := by
  unfold classify
  simp only [hfinite, hnew, Bool.false_eq_true, if_false]
  cases hterminal : f.terminal with
  | true =>
    by_cases hdue : f.tick ≤ s.expected
    · simp [place, arrive, see, remember, hterminal, hdue, terminal_eq, absorb, discardOf, competes,
        pushDiscard, dueTerminal, countTerminal, envelopeCounts, SensorClass.remembered]
    · by_cases hskew : f.tick - s.expected ≤ s.skewMax <;>
        simp [place, arrive, see, remember, hterminal, hdue, hskew, absorb, discardOf, competes,
          pushDiscard, dueTerminal, countTerminal, envelopeCounts, SensorClass.remembered]
  | false =>
    by_cases hold : (s.held.any fun held => f.tick ≤ held.tick) = true
    · simp [place, arrive, see, remember, hterminal, hold, discard_eq, absorb, discardOf, competes,
        dueTerminal, count, normalCounts, SensorClass.remembered]
    · by_cases hdue : f.tick ≤ s.expected
      · simp [place, arrive, see, remember, hterminal, hold, hdue, candidate_eq, absorb, discardOf,
          competes, dueTerminal, count, normalCounts, SensorClass.remembered]
      · by_cases hskew : f.tick - s.expected ≤ s.skewMax <;>
          simp [place, arrive, see, remember, hterminal, hold, hdue, hskew, discard_eq, absorb,
            discardOf, competes, pushDiscard, dueTerminal, count, normalCounts, SensorClass.remembered]

/-- `receive` classifies a frame in the state before it, and absorbs it under that class. -/
theorem receiveFrame_eq (s : Admission) (f : Frame) :
    s.receiveFrame f = (s.absorb f (s.classify f), s.classify f) := by
  unfold receiveFrame
  simp only [identity_arrive]
  by_cases hfinite : nonfinite f = true
  · have hterminal : f.terminal = false := by
      by_contra h
      rw [nonfinite_terminal (by simpa using h)] at hfinite
      contradiction
    simp [classify, hfinite, arrive, hterminal, discard_eq, remember, absorb, discardOf, competes,
      dueTerminal, count, normalCounts, SensorClass.remembered]
  · rw [if_neg hfinite]
    cases hprior : s.identity f with
    | some prior => simp [settleIdentity_eq, classify, hfinite, hprior]
    | none => exact place_eq (by simpa using hfinite) hprior

/-! ## Opening a cycle -/

open SlotWindow (entries entries_succ)

/-- The parked frames are the entries of the window of slots. -/
theorem parked_eq (s : Admission) : s.parked = entries s.future (kMaxSkew + 1) := by
  simp only [parked, slots, entries, List.filterMap_map, Function.comp_def, id]

/-- Every parked frame lies in the slot of its tick, below the skew limit. -/
def SlotTicks (s : Admission) : Prop :=
  ∀ i f, s.future i = some f → f.tick = s.expected + i + 1 ∧ i < s.skewMax ∧ s.skewMax ≤ kMaxSkew

/-- `begin_cycle` accepts the tick. -/
structure Admissible (s : Admission) (expected : ℕ) : Prop where
  valid : s.valid = true
  closed : s.isOpen = false
  first : s.cycles = 0 → expected = s.tickBase
  later : s.cycles ≠ 0 → s.expected < expected

/-- The frame that comes due at the start of a cycle. -/
def dueAt (s : Admission) (expected : ℕ) : Option Frame := s.future (expected - s.expected - 1)

/-- The parked frames whose tick a gap has passed over. -/
def skipped (s : Admission) (expected : ℕ) : List Frame := entries s.future (expected - s.expected - 1)

/-- The state in which a cycle starts to receive. -/
def opened (s : Admission) (expected : ℕ) : Admission :=
  { s.openCycle expected with
    integrity :=
      (s.openCycle expected).integrity || !(s.skipped expected).isEmpty ||
        (s.dueAt expected).any fun f => f.terminal && f.illegalReason
    future := fun j => s.future (j + (expected - s.expected))
    due := s.dueAt expected
    candidateFrame := (s.dueAt expected).filter fun f => !f.terminal
    terminalCandidate :=
      if s.terminalLatch.isNone then (s.dueAt expected).filter Frame.terminal else none
    cycle := { counts := { futureExpired := (s.skipped expected).countP fun f => !f.terminal } }
    terminalCounts :=
      { s.terminalCounts with
        futureExpired := s.terminalCounts.futureExpired + (s.skipped expected).countP Frame.terminal
        illegalReason :=
          s.terminalCounts.illegalReason +
            ((s.dueAt expected).any fun f => f.terminal && f.illegalReason).toNat } }

/-- The frame that comes due is offered as candidate or as terminal. -/
def takeDue (s : Admission) : Option Frame → Admission
  | none => s
  | some f =>
    let s := { s with due := some f }
    if f.terminal then s.terminal f else s.candidate f

/-- Frames that expire one after another. -/
theorem foldl_expire (gone : List Frame) (s : Admission) :
    gone.foldl expire s =
      { s with
        integrity := s.integrity || !gone.isEmpty
        terminalCounts :=
          { s.terminalCounts with
            futureExpired := s.terminalCounts.futureExpired + gone.countP Frame.terminal }
        cycle.counts :=
          { s.cycle.counts with
            futureExpired := s.cycle.counts.futureExpired + gone.countP fun f => !f.terminal } } := by
  induction gone generalizing s with
  | nil => simp
  | cons f rest ih =>
    rw [List.foldl_cons, ih]
    cases hterminal : f.terminal <;> simp [expire, hterminal, countTerminal, count] <;> omega

/-- Offering a due frame leaves the skew limit. -/
theorem takeDue_skewMax (s : Admission) (due : Option Frame) : (s.takeDue due).skewMax = s.skewMax := by
  cases due with
  | none => rfl
  | some f =>
    cases hterminal : f.terminal with
    | true => simp [takeDue, hterminal, terminal_eq]
    | false => simp [takeDue, hterminal, candidate_eq hterminal]

/-- The loop over the first `n` slots: those before the due slot expire, the rest move down. -/
theorem foldl_shiftSlot {o : Admission} {u : ℕ → Option Frame} {expected d : ℕ} (hd : 1 ≤ d)
    (hslot : ∀ i f, u i = some f → f.tick + d = expected + i + 1 ∧ i < o.skewMax) (n : ℕ) :
    ((List.range n).map u).foldl (shiftSlot expected) (o, fun _ => none) =
      (((entries u (min n (d - 1))).foldl expire o).takeDue (if d ≤ n then u (d - 1) else none),
        fun j => if j + d < n then u (j + d) else none) := by
  induction n with
  | zero => simp [entries, takeDue, show ¬d ≤ 0 by omega]
  | succ n ih =>
    rw [List.range_succ, List.map_append, List.foldl_append, ih, List.map_singleton, List.foldl_cons,
      List.foldl_nil]
    rcases lt_trichotomy (n + 1) d with hbefore | rfl | hafter
    · -- A slot below the due one: a frame in it has been passed over.
      rw [Nat.min_eq_left (by omega), Nat.min_eq_left (by omega), if_neg (by omega), if_neg (by omega),
        entries_succ, List.foldl_append]
      have hnone (m : ℕ) (hm : m ≤ n + 1) :
          (fun j => if j + d < m then u (j + d) else none) = fun _ => none :=
        funext fun j => if_neg (by omega)
      rw [hnone n (by omega), hnone (n + 1) le_rfl]
      cases hu : u n with
      | none => rfl
      | some f =>
        have htick := (hslot n f hu).1
        simp [shiftSlot, takeDue, show f.tick < expected by omega]
    · -- The due slot.
      rw [Nat.add_sub_cancel, Nat.min_self, Nat.min_eq_right (Nat.le_succ n), if_neg (by omega),
        if_pos le_rfl]
      have hnone (m : ℕ) (hm : m ≤ n + 1) :
          (fun j => if j + (n + 1) < m then u (j + (n + 1)) else none) = fun _ => none :=
        funext fun j => if_neg (by omega)
      rw [hnone n (by omega), hnone (n + 1) le_rfl]
      cases hu : u n with
      | none => rfl
      | some f =>
        have htick := (hslot n f hu).1
        simp [shiftSlot, takeDue, show f.tick = expected by omega]
    · -- A slot above the due one moves down by the gap.
      have hskipped : min (n + 1) (d - 1) = min n (d - 1) := by omega
      rw [hskipped, if_pos (by omega : d ≤ n), if_pos (by omega : d ≤ n + 1)]
      cases hu : u n with
      | none =>
        refine Prod.ext rfl (funext fun j => ?_)
        by_cases hj : j + d = n
        · simp [shiftSlot, hj, hu]
        · simp only [shiftSlot]
          exact if_congr (by omega) rfl rfl
      | some f =>
        have htick := (hslot n f hu).1
        have hskew := (hslot n f hu).2
        have hlimit : (((entries u (min n (d - 1))).foldl expire o).takeDue (u (d - 1))).skewMax =
            o.skewMax := by
          rw [takeDue_skewMax, foldl_expire]
        simp only [shiftSlot, hlimit, show ¬f.tick < expected by omega, if_false, beq_iff_eq,
          show ¬f.tick = expected by omega, show ¬o.skewMax < f.tick - expected by omega]
        refine Prod.ext rfl (funext fun j => ?_)
        have hindex : f.tick - expected - 1 = n - d := by omega
        rw [hindex]
        by_cases hj : j = n - d
        · subst hj
          simp [show n - d + d = n by omega, hu]
        · dsimp only
          rw [Function.update_of_ne hj]
          exact if_congr (by omega) rfl rfl

/-- Beyond the slots there is nothing. -/
theorem SlotTicks.beyond (h : s.SlotTicks) {i : ℕ} (hi : kMaxSkew < i) : s.future i = none := by
  cases hu : s.future i with
  | none => rfl
  | some f =>
    have := (h i f hu).2
    omega

/-- An accepted cycle starts in its opened state. -/
theorem beginCycle_of_admissible (hslots : s.SlotTicks)
    (hempty : s.cycles = 0 → s.isOpen = false → ∀ i, s.future i = none) {expected : ℕ}
    (h : s.Admissible expected) :
    s.beginCycle expected = (s.opened expected, true) := by
  have hrefused : ((s.cycles == 0 && expected != s.tickBase) ||
      (s.cycles != 0 && decide (expected ≤ s.expected))) = false := by
    by_cases hcycles : s.cycles = 0
    · simp [hcycles, h.first hcycles]
    · simp [hcycles, h.later hcycles]
  have hloop : s.slots.foldl (shiftSlot expected) (s.openCycle expected, fun _ => none) =
      (((s.skipped expected).foldl expire (s.openCycle expected)).takeDue (s.dueAt expected),
        fun j => s.future (j + (expected - s.expected))) := by
    by_cases hcycles : s.cycles = 0
    · have hnone : s.future = fun _ => none := funext (hempty hcycles h.closed)
      have hfree : s.slots = (List.range (kMaxSkew + 1)).map fun _ => none := by rw [slots, hnone]
      rw [hfree, foldl_shiftSlot (d := 1) le_rfl (by simp)]
      simp [skipped, dueAt, hnone, takeDue]
    · have hlater := h.later hcycles
      have hbeyond : ∀ i, kMaxSkew + 1 ≤ i → s.future i = none := fun i hi => hslots.beyond (by omega)
      have hslot : ∀ i f, s.future i = some f →
          f.tick + (expected - s.expected) = expected + i + 1 ∧ i < (s.openCycle expected).skewMax := by
        intro i f hf
        have := hslots i f hf
        exact ⟨by omega, this.2.1⟩
      rw [slots, foldl_shiftSlot (by omega) hslot]
      refine Prod.ext ?_ (funext fun j => ?_)
      · have hgone : entries s.future (min (kMaxSkew + 1) (expected - s.expected - 1)) =
            s.skipped expected := by
          rcases Nat.le_total (expected - s.expected - 1) (kMaxSkew + 1) with hle | hle
          · rw [Nat.min_eq_right hle, skipped]
          · rw [Nat.min_eq_left hle, skipped, SlotWindow.entries_of_support hbeyond hle]
        have hdue : (if expected - s.expected ≤ kMaxSkew + 1 then
            s.future (expected - s.expected - 1) else none) = s.dueAt expected := by
          split
          · rfl
          · exact (hbeyond _ (by omega)).symm
        rw [hgone, hdue]
      · dsimp only
        split
        · rfl
        · exact (hbeyond _ (by omega)).symm
  have hguard : (!s.valid || s.isOpen) = false := by simp [h.valid, h.closed]
  rw [beginCycle, hguard, hrefused, if_neg Bool.false_ne_true, if_neg Bool.false_ne_true, hloop,
    foldl_expire]
  cases hdue : s.dueAt expected with
  | none => simp [opened, takeDue, hdue, openCycle]
  | some f =>
    cases hterminal : f.terminal with
    | true => simp [opened, takeDue, hdue, hterminal, terminal_eq, openCycle, Option.filter]
    | false =>
      simp [opened, takeDue, hdue, hterminal, candidate_eq, openCycle, discardOf, pushDiscard,
        Option.filter]

/-! ## Closing a cycle -/

/-- The sample of the cycle: that of the candidate, if the candidate is valid. -/
def freshSample (s : Admission) : Option Sample := (s.candidateFrame.filter Frame.valid).map Frame.sample

/-- The counts of the cycle once its candidate is consumed or found invalid. -/
def closedCounts (s : Admission) : AdmissionCounts :=
  { s.cycle.counts with
    consumed := s.cycle.counts.consumed + s.freshSample.isSome.toNat
    invalid := s.cycle.counts.invalid + (s.candidateFrame.isSome && s.freshSample.isNone).toNat }

/-- The state that `finish_cycle` leaves. -/
def closed (s : Admission) : Admission :=
  { s with
    held := s.freshSample.or s.held
    terminalLatch := s.terminalLatch.or s.terminalCandidate
    cycle :=
      { s.cycle with
        fresh := s.freshSample.or s.cycle.fresh
        terminal := (s.terminalLatch.or s.terminalCandidate).map Frame.toTerminal
        staleness := min { s with held := s.freshSample.or s.held }.age 4294967295
        counts := s.closedCounts }
    episode := s.episode.add s.closedCounts
    recorded := if s.warmup ≤ s.cycles then s.recorded.add s.closedCounts else s.recorded
    cycles := s.cycles + 1
    isOpen := false }

/-- Finishing an open cycle closes it. -/
theorem finishCycle_of_open (h : s.isOpen = true) : s.finishCycle = s.closed := by
  unfold finishCycle consume closed closedCounts freshSample
  rw [h, Bool.not_true, if_neg Bool.false_ne_true]
  cases hcandidate : s.candidateFrame with
  | none => cases hlatch : s.terminalLatch <;> simp [hcandidate, hlatch, age]
  | some c =>
    cases hvalid : c.valid <;> cases hlatch : s.terminalLatch <;>
      simp [hcandidate, hvalid, hlatch, count, age, Option.filter]

/-- Finishing again changes nothing. -/
theorem finishCycle_of_closed (h : s.isOpen = false) : s.finishCycle = s := by
  simp [finishCycle, h]

/-! ## Every call -/

/-- The datagram is taken: the cycle is open and has room. -/
structure Accepts (s : Admission) : Prop where
  isOpen : s.isOpen = true
  room : s.cycle.rxCount < s.batchCap

/-- What a call can do to the state. -/
inductive Step (s : Admission) : Admission → Prop
  | idle : Step s s
  | fault : Step s { s with integrity := true }
  | opened {expected : ℕ} (h : s.Admissible expected) : Step s (s.opened expected)
  | malformed (e : Telem.DatagramError) (h : s.Accepts) : Step s (s.countRx.malformed e)
  | absorbed (f : Frame) (h : s.Accepts) : Step s (s.countRx.absorb f (s.countRx.classify f))
  | closed (h : s.isOpen = true) : Step s s.closed

/-- A refused `begin_cycle` raises the fault. -/
theorem beginCycle_of_refused {expected : ℕ} (h : ¬s.Admissible expected) :
    s.beginCycle expected = ({ s with integrity := true }, false) := by
  unfold beginCycle
  by_cases hguard : (!s.valid || s.isOpen) = true
  · rw [if_pos hguard]
  · rw [if_neg hguard, if_pos]
    simp only [Bool.or_eq_true, Bool.not_eq_true', not_or, Bool.not_eq_false, Bool.not_eq_true] at hguard
    by_contra hexpected
    refine h ⟨hguard.1, hguard.2, fun hzero => ?_, fun hlater => ?_⟩
    · simpa [hzero] using hexpected
    · simpa [hlater] using hexpected

/-- A datagram that is taken is malformed or absorbed. -/
theorem receive_of_accepts (h : s.Accepts) (d : Datagram) :
    s.receive d =
      match d.frame with
      | .error e => (s.countRx.malformed e, some .malformed)
      | .ok f => (s.countRx.absorb f (s.countRx.classify f), some (s.countRx.classify f)) := by
  have hguard : (!s.isOpen || decide (s.batchCap ≤ s.cycle.rxCount)) = false := by
    simp [h.isOpen, h.room]
  rw [receive, hguard, if_neg Bool.false_ne_true]
  cases d.frame with
  | error e => rfl
  | ok f => simp only [receiveFrame_eq]

/-- A datagram outside a cycle or beyond its cap raises the fault. -/
theorem receive_of_refused (h : ¬s.Accepts) (d : Datagram) :
    s.receive d = ({ s with integrity := true }, none) := by
  rw [receive, if_pos]
  by_contra hguard
  simp only [Bool.or_eq_true, Bool.not_eq_true', decide_eq_true_eq, not_or, Bool.not_eq_false,
    not_le] at hguard
  exact h ⟨hguard.1, hguard.2⟩

/-- A call does one of the things listed in `Step`. -/
theorem call_step (hslots : s.SlotTicks)
    (hempty : s.cycles = 0 → s.isOpen = false → ∀ i, s.future i = none) (c : Call) :
    s.Step (s.call c).1 := by
  cases c with
  | beginCycle expected =>
    by_cases h : s.Admissible expected
    · rw [call, beginCycle_of_admissible hslots hempty h]
      exact .opened h
    · rw [call, beginCycle_of_refused h]
      exact .fault
  | receive d =>
    by_cases h : s.Accepts
    · rw [call, receive_of_accepts h]
      cases d.frame with
      | error e => exact .malformed e h
      | ok f => exact .absorbed f h
    · rw [call, receive_of_refused h]
      exact .fault
  | finishCycle =>
    cases h : s.isOpen with
    | true =>
      rw [call, finishCycle_of_open h]
      exact .closed h
    | false =>
      rw [call, finishCycle_of_closed h]
      exact .idle

end Admission

end Tvc.Freerun
