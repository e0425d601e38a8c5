import Tvc.Freerun.Cycles

/-!
# What a scheduled cycle counts

The counts of a cycle enter the books of the run when it closes, and those of the recorded part from the
warmup on. Each datagram that it took is counted once: as malformed, as a normal frame, or as a terminal one.
-/

namespace Tvc.Freerun.Admission

variable {s : Admission} {tickBase n : ℕ}

/-- The malformed datagrams. -/
def refused (c : AdmissionCounts) : ℕ := c.badSync + c.badVersion + c.badType + c.badLength + c.badCrc

/-- Adding counts adds the malformed datagrams. -/
@[simp] theorem refused_add (a b : AdmissionCounts) : refused (a.add b) = refused a + refused b := by
  simp only [refused, AdmissionCounts.add]
  omega

/-- Adding counts adds the discards. -/
@[simp] theorem discarded_add (a b : AdmissionCounts) : discarded (a.add b) = discarded a + discarded b := by
  simp only [discarded, AdmissionCounts.add]
  omega

/-- What a cycle adds to the books. -/
structure Receipt (n : ℕ) (s t : Admission) : Prop where
  warmup : t.warmup = s.warmup
  episode : t.episode = s.episode.add t.cycle.counts
  recorded : t.recorded = if s.warmup ≤ n then s.recorded.add t.cycle.counts else s.recorded
  consumed : t.cycle.counts.consumed = t.cycle.fresh.isSome.toNat
  taken : t.cycle.rxCount + s.terminalCounts.receivedRaw =
    t.cycle.counts.received + refused t.cycle.counts + t.terminalCounts.receivedRaw
  raw : s.terminalCounts.receivedRaw ≤ t.terminalCounts.receivedRaw
  rx : t.cycle.rxCount ≤ if n = 0 then 9 else 8
  discards : t.cycle.discards.length = discarded t.cycle.counts
  newer : ∀ x ∈ t.cycle.fresh, ∀ y ∈ s.held, y.tick < x.tick

/-- The datagrams taken so far are counted, those of terminal frames over the whole run. -/
structure Taken (raw : ℕ) (t : Admission) : Prop where
  counted : t.cycle.rxCount + raw = t.cycle.counts.received + refused t.cycle.counts + t.terminalCounts.receivedRaw
  grown : raw ≤ t.terminalCounts.receivedRaw

/-- Each call inside a cycle counts what it takes. -/
theorem Taken.inside {raw : ℕ} {c : Call} {t : Admission} {entry : Log} (h : Taken raw s) (hinside : s.Inside c t entry) :
    Taken raw t := by
  obtain ⟨hcounted, hgrown⟩ := h
  cases hinside with
  | fault _ => exact ⟨hcounted, hgrown⟩
  | @malformed _ e _ _ =>
    have hcounts : (countMalformed s.cycle.counts e).received = s.cycle.counts.received ∧
        refused (countMalformed s.cycle.counts e) = refused s.cycle.counts + 1 := by
      cases e <;> exact ⟨rfl, by simp only [countMalformed, refused]; omega⟩
    refine ⟨?_, hgrown⟩
    change s.cycle.rxCount + 1 + raw = (countMalformed s.cycle.counts e).received +
      refused (countMalformed s.cycle.counts e) + s.terminalCounts.receivedRaw
    omega
  | @absorbed _ f _ _ =>
    generalize s.countRx.classify f = kind
    have hrx : (s.countRx.absorb f kind).cycle.rxCount = s.cycle.rxCount + 1 := rfl
    cases hterminal : f.terminal with
    | true =>
      have hcounts : (s.countRx.absorb f kind).cycle.counts = s.cycle.counts := by simp [absorb, hterminal, countRx]
      have hraw : (s.countRx.absorb f kind).terminalCounts.receivedRaw = s.terminalCounts.receivedRaw + 1 := by
        cases kind <;> simp [absorb, hterminal, countRx, envelopeCounts]
      exact ⟨by rw [hrx, hcounts, hraw]; omega, by rw [hraw]; omega⟩
    | false =>
      have hcounts : (s.countRx.absorb f kind).cycle.counts.received = s.cycle.counts.received + 1 ∧
          refused (s.countRx.absorb f kind).cycle.counts = refused s.cycle.counts := by
        cases kind <;> simp [absorb, hterminal, countRx, normalCounts, refused]
      have hraw : (s.countRx.absorb f kind).terminalCounts = s.terminalCounts := by simp [absorb, hterminal, countRx]
      exact ⟨by rw [hrx, hcounts.1, hcounts.2, hraw]; omega, by rw [hraw]; exact hgrown⟩

/-- No call changes the warmup. -/
theorem warmup_step {w : ℕ} (s s' : Admission) (h : s.warmup = w) (hstep : s.Step s') : s'.warmup = w := by
  cases hstep <;> exact h

/-- What a scheduled cycle adds to the books. -/
theorem Between.receipt (h : Between tickBase n s) (datagrams : List Datagram) :
    Receipt n s (Machine.run call s (cycleCalls (tickBase + n) datagrams)).1 := by
  obtain ⟨ht, hsame, hureach, hopen⟩ := h.closes datagrams
  have htreach : (Machine.run call s (cycleCalls (tickBase + n) datagrams)).1.Reachable := h.reachable.run _
  have hwarmup := h.reachable.run_rule (warmup_step (w := s.warmup)) rfl (cycleCalls (tickBase + n) datagrams)
  have htaken : Taken s.terminalCounts.receivedRaw
      (Machine.run call (s.opened (tickBase + n)) (datagrams.map .receive)).1 := by
    have hreach : (s.opened (tickBase + n)).Reachable := h.reachable.opened h.admissible
    refine (cycle_rule (P := fun t _ _ => Taken s.terminalCounts.receivedRaw t) hreach rfl ?_
      (fun _ _ _ _ _ _ _ _ hs hinside => hs.inside hinside) (inside_receive datagrams)).1
    exact ⟨by simp [opened, openCycle, refused], le_rfl⟩
  have hcycles := (h.cycle datagrams).1.cycles
  generalize (Machine.run call s (cycleCalls (tickBase + n) datagrams)).1 = t at ht htreach hwarmup hcycles ⊢
  generalize (Machine.run call (s.opened (tickBase + n)) (datagrams.map .receive)).1 = u at ht hsame hureach hopen htaken
  have hholding := hureach.holding
  have hfresh : t.cycle.fresh = u.freshSample := by
    rw [ht]
    exact (closed_cycle hholding hopen).1
  have hcounts : t.cycle.counts = u.closedCounts := by rw [ht]; rfl
  have huwarmup : u.warmup = s.warmup := by rw [← hwarmup, ht]; rfl
  have hucycles : u.cycles = n := hsame.cycles.trans h.cycles
  have hcapacity := htreach.capacity
  refine ⟨hwarmup, ?_, ?_, ?_, ?_, ?_, ?_, hcapacity.counted, fun x hx y hy => ?_⟩
  · rw [hcounts, ht]
    exact congrArg (AdmissionCounts.add · u.closedCounts) hsame.episode
  · have hrecorded : t.recorded = if u.warmup ≤ u.cycles then u.recorded.add u.closedCounts else u.recorded := by
      rw [ht]
      rfl
    rw [hrecorded, hcounts, huwarmup, hucycles, hsame.recorded]
    rfl
  · have hnone : u.cycle.counts.consumed = 0 := hsame.consumed
    rw [hcounts, hfresh, closedCounts, hnone, Nat.zero_add]
  · rw [hcounts, ht]
    exact htaken.counted
  · rw [ht]
    exact htaken.grown
  · have hrx := hcapacity.rx
    have hclosed : t.isOpen = false := by rw [ht]; rfl
    rw [rxLimit, hclosed, if_neg Bool.false_ne_true, hcycles] at hrx
    refine hrx.trans (le_of_eq ?_)
    by_cases hn : n = 0
    · simp [hn]
    · simp [hn]
  · rw [hfresh] at hx
    exact (hholding.fresh hopen hx).2.2 y (by rw [hsame.held]; exact hy)

/-- Before the recorded part nothing notes what is parked. -/
structure Unnoted (s : Admission) : Prop where
  between : s.isOpen = false → s.cycles ≤ s.warmup → s.warmupOccupancy = none
  inside : s.isOpen = true → s.cycles < s.warmup → s.warmupOccupancy = none

/-- In every reachable state. -/
theorem Reachable.unnoted (h : s.Reachable) : s.Unnoted := by
  refine h.rule (fun b k w => ⟨fun _ _ => rfl, fun _ _ => rfl⟩) fun s s' _ hs hstep => ?_
  cases hstep with
  | idle => exact hs
  | fault => exact ⟨hs.between, hs.inside⟩
  | opened ha =>
    refine ⟨fun hclosed => absurd hclosed (by simp [Admission.opened, openCycle]), fun _ hwarm => ?_⟩
    have hbefore : s.cycles < s.warmup := hwarm
    have hnow : s.cycles ≠ s.warmup := Nat.ne_of_lt hbefore
    simp [Admission.opened, openCycle, hnow, hs.between ha.closed hbefore.le]
  | malformed e ha => exact ⟨hs.between, hs.inside⟩
  | absorbed f ha => exact ⟨hs.between, hs.inside⟩
  | closed hopen =>
    exact ⟨fun _ hwarm => hs.inside hopen hwarm, fun hstill => absurd hstill (by simp [closed])⟩

end Tvc.Freerun.Admission
