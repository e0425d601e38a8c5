import Mathlib.Data.List.Nodup
import Tvc.Admission.Order

/-!
# Delivery inside the window

When every tick has one valid frame, received no earlier than the window allows and no later
than its own cycle, the parked frames are exactly those received ahead of time. Each cycle then
has one competitor, the frame of its tick, whether that frame waited or has just come.
-/

namespace Tvc.Freerun

namespace Admission

variable {s : Admission} {tickBase skewMax last n : ℕ} {batch : ℕ → List Datagram}

/-- The frames of the first `n` batches. -/
def received (batch : ℕ → List Datagram) : ℕ → List Frame
  | 0 => []
  | n + 1 => received batch n ++ framesOf (batch n)

/-- The calls of the first `n` cycles, at contiguous ticks. -/
def windowCalls (tickBase : ℕ) (batch : ℕ → List Datagram) : ℕ → List Call
  | 0 => []
  | n + 1 =>
    windowCalls tickBase batch n ++ .beginCycle (tickBase + n) :: (batch n).map .receive ++ [.finishCycle]

/-- One valid, finite, normal frame for every tick up to the last cycle, received in a cycle from
which its tick lies at most the skew limit ahead, at most one such frame for each later tick, and
nothing else, within the caps. -/
structure InWindow (tickBase skewMax last : ℕ) (batch : ℕ → List Datagram) : Prop where
  frames : ∀ k ≤ last, ∀ d ∈ batch k, ∃ f, d.frame = .ok f ∧
    f.terminal = false ∧ f.valid = true ∧ f.finite = true
  window : ∀ k ≤ last, ∀ f ∈ framesOf (batch k),
    tickBase + k ≤ f.tick ∧ f.tick ≤ tickBase + k + skewMax
  distinct : ((received batch (last + 1)).map Frame.tick).Nodup
  complete : ∀ n ≤ last, ∃ f ∈ received batch (last + 1), f.tick = tickBase + n
  first : (batch 0).length ≤ 9
  later : ∀ k ≤ last, k ≠ 0 → (batch k).length ≤ 8

/-- No frame was discarded, superseded, found invalid, expired or compared with another. -/
structure Clean (c : AdmissionCounts) : Prop where
  old : c.old = 0
  superseded : c.superseded = 0
  nonfinite : c.nonfinite = 0
  skewExcess : c.skewExcess = 0
  duplicate : c.duplicate = 0
  conflict : c.conflict = 0
  invalid : c.invalid = 0
  futureExpired : c.futureExpired = 0

/-- Clean counts add up to clean counts. -/
theorem Clean.add {a b : AdmissionCounts} (ha : Clean a) (hb : Clean b) : Clean (a.add b) := by
  constructor <;> simp [AdmissionCounts.add, ha.old, hb.old, ha.superseded, hb.superseded, ha.nonfinite,
    hb.nonfinite, ha.skewExcess, hb.skewExcess, ha.duplicate, hb.duplicate, ha.conflict, hb.conflict,
    ha.invalid, hb.invalid, ha.futureExpired, hb.futureExpired]

/-- Earlier batches come before the later ones. -/
theorem received_mono {m : ℕ} (h : n ≤ m) : received batch n <+: received batch m := by
  induction m, h using Nat.le_induction with
  | base => exact List.prefix_rfl
  | succ m _ ih => exact ih.trans (List.prefix_append _ _)

/-- A received frame came in one of the batches. -/
theorem mem_received {f : Frame} : f ∈ received batch n ↔ ∃ k < n, f ∈ framesOf (batch k) := by
  induction n with
  | zero => simp [received]
  | succ n ih =>
    rw [received, List.mem_append, ih]
    constructor
    · rintro (⟨k, hk, hf⟩ | hf)
      · exact ⟨k, by omega, hf⟩
      · exact ⟨n, by omega, hf⟩
    · rintro ⟨k, hk, hf⟩
      rcases Nat.lt_succ_iff_lt_or_eq.mp hk with hk | rfl
      · exact .inl ⟨k, hk, hf⟩
      · exact .inr hf

/-- Frames of one tick received up to the last cycle are one frame. -/
theorem InWindow.unique (h : InWindow tickBase skewMax last batch) {f g : Frame}
    (hf : f ∈ received batch (last + 1)) (hg : g ∈ received batch (last + 1)) (htick : f.tick = g.tick) :
    f = g := List.inj_on_of_nodup_map h.distinct hf hg htick

/-- A received frame is normal, valid and finite. -/
theorem InWindow.usable (h : InWindow tickBase skewMax last batch) {f : Frame}
    (hf : f ∈ received batch (last + 1)) :
    f.terminal = false ∧ f.valid = true ∧ nonfinite f = false := by
  obtain ⟨k, hk, hf⟩ := mem_received.mp hf
  obtain ⟨d, hd, hframe⟩ := List.mem_filterMap.mp hf
  obtain ⟨g, hg, hterminal, hvalid, hfinite⟩ := h.frames k (by omega) d hd
  have hsame : g = f := by simpa [frameOf, hg, Except.toOption] using hframe
  subst hsame
  exact ⟨hterminal, hvalid, by simp [nonfinite, hfinite]⟩

/-- The state after `n` cycles: what was received ahead of time is parked. -/
structure Delivering (tickBase skewMax : ℕ) (batch : ℕ → List Datagram) (n : ℕ) (s : Admission) :
    Prop where
  reachable : s.Reachable
  base : s.tickBase = tickBase
  limit : s.skewMax = skewMax
  valid : s.valid = true
  cycles : s.cycles = n
  expected : n ≠ 0 → s.expected + 1 = tickBase + n
  closed : s.isOpen = false
  integrity : s.integrity = false
  latch : s.terminalLatch = none
  held : ∀ h ∈ s.held, h.tick < tickBase + n
  parked : ∀ f, f ∈ s.parked ↔ f ∈ received batch n ∧ tickBase + n ≤ f.tick
  newest : ∀ f ∈ s.newestReceived, f ∈ received batch n
  clean : Clean s.episode

/-- The state in cycle `n` with a part of its batch received: the frame of the tick is the
candidate as soon as it is there, and what is ahead of the tick is parked. -/
structure Receiving (tickBase : ℕ) (batch : ℕ → List Datagram) (n : ℕ) (front : List Datagram)
    (v : Admission) : Prop where
  candidate : ∀ f, f ∈ v.candidateFrame ↔
    f ∈ received batch n ++ framesOf front ∧ f.tick = tickBase + n
  parked : ∀ f, f ∈ v.parked ↔ f ∈ received batch n ++ framesOf front ∧ tickBase + n < f.tick
  integrity : v.integrity = false
  terminal : v.terminalCandidate = none
  discards : v.cycle.discards = []
  clean : Clean v.cycle.counts

/-- A new object has received nothing. -/
theorem Delivering.initial (hskew : skewMax ≤ kMaxSkew) (warmup : ℕ) :
    Delivering tickBase skewMax batch 0 (initial tickBase skewMax warmup) where
  reachable := ⟨_, _, _, [], rfl⟩
  base := rfl
  limit := rfl
  valid := by simp [Admission.initial, hskew]
  cycles := rfl
  expected h := absurd rfl h
  closed := rfl
  integrity := by simp [Admission.initial, hskew]
  latch := rfl
  held h hh := by simp [Admission.initial] at hh
  parked f := by simp [Admission.initial, parked_eq, received]
  newest f hf := by simp [Admission.initial] at hf
  clean := ⟨rfl, rfl, rfl, rfl, rfl, rfl, rfl, rfl⟩

/-- The next contiguous tick is accepted. -/
theorem Delivering.admissible (h : Delivering tickBase skewMax batch n s) :
    s.Admissible (tickBase + n) where
  valid := h.valid
  closed := h.closed
  first hzero := by
    have hn : n = 0 := h.cycles.symm.trans hzero
    rw [h.base, hn, Nat.add_zero]
  later hlater := by
    have := h.expected (by rw [← h.cycles]; exact hlater)
    omega

/-- A contiguous cycle skips nothing. -/
theorem Delivering.skipped (h : Delivering tickBase skewMax batch n s) :
    s.skipped (tickBase + n) = [] := by
  by_cases hn : n = 0
  · have hcycles : s.cycles = 0 := h.cycles.trans hn
    have hnone : s.future = fun _ => none :=
      funext (h.reachable.shape.unstarted hcycles h.closed)
    simp [Admission.skipped, hnone]
  · have := h.expected hn
    rw [Admission.skipped, show tickBase + n - s.expected - 1 = 0 by omega]
    rfl

/-- The cycle opens with the frame of its tick as candidate, if that frame was received before. -/
theorem Delivering.opened (hwindow : InWindow tickBase skewMax last batch) (hn : n ≤ last)
    (h : Delivering tickBase skewMax batch n s) :
    Receiving tickBase batch n [] (s.opened (tickBase + n)) := by
  have hshape := h.reachable.shape
  have ha := h.admissible
  have hsplit : s.parked = (s.dueAt (tickBase + n)).toList ++ (s.opened (tickBase + n)).parked := by
    rw [parked_opened hshape ha, h.skipped, List.nil_append]
  have hreceived : ∀ f ∈ s.parked, f ∈ received batch (last + 1) :=
    fun f hf => (received_mono (by omega)).subset ((h.parked f).mp hf).1
  have hdue : ∀ f, f ∈ s.dueAt (tickBase + n) → f ∈ s.parked ∧ f.tick = tickBase + n := by
    intro f hf
    refine ⟨?_, tick_of_dueAt hshape ha hf⟩
    rw [hsplit]
    exact List.mem_append_left _ (Option.mem_toList.mpr hf)
  have hrest : ∀ f ∈ (s.opened (tickBase + n)).parked, tickBase + n < f.tick := by
    intro f hf
    obtain ⟨i, -, hslot⟩ := mem_parked.mp hf
    have htick := ((hshape.opened_step ha).slots i f hslot).1
    have hexpected : (s.opened (tickBase + n)).expected = tickBase + n := rfl
    omega
  have hnormal : ∀ f, f ∈ s.dueAt (tickBase + n) → f.terminal = false :=
    fun f hf => (hwindow.usable (hreceived f (hdue f hf).1)).1
  have hmem : ∀ f, f ∈ s.parked ↔
      f ∈ s.dueAt (tickBase + n) ∨ f ∈ (s.opened (tickBase + n)).parked := by
    intro f
    rw [hsplit, List.mem_append, Option.mem_toList]
    rfl
  refine ⟨fun f => ?_, fun f => ?_, ?_, ?_, rfl, ?_⟩
  · have hcandidate : f ∈ (s.opened (tickBase + n)).candidateFrame ↔ f ∈ s.dueAt (tickBase + n) := by
      constructor
      · exact fun hf => (Option.filter_eq_some_iff.mp hf).1
      · exact fun hf => Option.filter_eq_some_iff.mpr ⟨hf, by simp [hnormal f hf]⟩
    rw [hcandidate]
    constructor
    · intro hf
      obtain ⟨hparked, htick⟩ := hdue f hf
      exact ⟨List.mem_append_left _ ((h.parked f).mp hparked).1, htick⟩
    · rintro ⟨hf, htick⟩
      have hparked := (h.parked f).mpr ⟨by simpa [framesOf] using hf, htick.ge⟩
      exact ((hmem f).mp hparked).resolve_right fun hf => by
        have := hrest f hf
        omega
  · constructor
    · intro hf
      have hparked := (hmem f).mpr (.inr hf)
      exact ⟨List.mem_append_left _ ((h.parked f).mp hparked).1, hrest f hf⟩
    · rintro ⟨hf, htick⟩
      have hparked := (h.parked f).mpr ⟨by simpa [framesOf] using hf, htick.le⟩
      refine ((hmem f).mp hparked).resolve_left fun hf => ?_
      have := (hdue f hf).2
      omega
  · have hlegal : (s.dueAt (tickBase + n)).any (fun f => f.terminal && f.illegalReason) = false := by
      cases hdueAt : s.dueAt (tickBase + n) with
      | none => rfl
      | some f => simp [hnormal f hdueAt]
    have hcontiguous : (s.cycles != 0 && tickBase + n != s.expected + 1) = false := by
      by_cases hn : n = 0
      · simp [h.cycles, hn]
      · simp [h.expected hn]
    simp only [Admission.opened, openCycle, h.integrity, hcontiguous, h.skipped, hlegal]
    rfl
  · simp only [Admission.opened, h.latch]
    cases hdueAt : s.dueAt (tickBase + n) with
    | none => rfl
    | some f => simp [Option.filter, hnormal f hdueAt]
  · constructor <;> simp [Admission.opened, h.skipped]

/-- A frame of the batch is the candidate or is parked, by its tick alone. -/
theorem Receiving.take_step {v : Admission} {front : List Datagram} {d : Datagram} {f : Frame}
    (h : Receiving tickBase batch n front v) (hreach : v.Reachable)
    (hexpected : v.expected = tickBase + n) (hopen : v.isOpen = true)
    (hheld : ∀ x ∈ v.held, x.tick < tickBase + n) (hd : d.frame = .ok f) (hnormal : f.terminal = false)
    (hfinite : nonfinite f = false) (hlow : tickBase + n ≤ f.tick)
    (hhigh : f.tick ≤ tickBase + n + v.skewMax)
    (hnew : ∀ g ∈ received batch n ++ framesOf front, g.tick ≠ f.tick) :
    Receiving tickBase batch n (front ++ [d]) (v.take d) := by
  have hframes : framesOf (front ++ [d]) = framesOf front ++ [f] := by
    simp [framesOf, frameOf, hd, Except.toOption]
  have hmem (g : Frame) : g ∈ received batch n ++ framesOf (front ++ [d]) ↔
      g ∈ received batch n ++ framesOf front ∨ g = f := by
    rw [hframes, ← List.append_assoc, List.mem_append, List.mem_singleton]
  have hold : (!f.terminal && v.held.any fun held => f.tick ≤ held.tick) = false := by
    cases hx : v.held with
    | none => simp
    | some x =>
      have := hheld x hx
      simp [hnormal, show ¬f.tick ≤ x.tick by omega]
  have htake : v.take d = v.countRx.collect f (v.newClass f) := by simp only [take, hd]
  rw [htake]
  rcases Nat.eq_or_lt_of_le hlow with htick | htick
  · have hclass : v.newClass f = .current := by
      simp [newClass, hfinite, hold, hexpected, htick]
    have hnone : v.candidateFrame = none := by
      cases hc : v.candidateFrame with
      | none => rfl
      | some c =>
        have hmember := (h.candidate c).mp hc
        exact absurd (hmember.2.trans htick) (hnew c hmember.1)
    rw [hclass]
    refine ⟨fun g => ?_, fun g => ?_, ?_, ?_, ?_, ?_⟩
    · have hcandidate : (v.countRx.collect f .current).candidateFrame = some f := by
        simp [collect, absorb, competes, hnormal, countRx, hnone]
      rw [hcandidate, hmem]
      constructor
      · intro hg
        obtain rfl := Option.some.inj hg
        exact ⟨.inr rfl, htick.symm⟩
      · rintro ⟨hg | rfl, hgtick⟩
        · exact absurd (hgtick.trans htick) (hnew g hg)
        · rfl
    · have hparked : (v.countRx.collect f .current).parked = v.parked := rfl
      rw [hparked, h.parked g, hmem]
      constructor
      · exact fun hg => ⟨.inl hg.1, hg.2⟩
      · rintro ⟨hg | rfl, hgtick⟩
        · exact ⟨hg, hgtick⟩
        · omega
    · simp [collect, countRx, h.integrity, dueTerminal, hnormal]
    · simp [collect, absorb, countRx, h.terminal, dueTerminal, hnormal]
    · simp [collect, countRx, h.discards, discardOf, hnormal, hnone]
    · have hclean := h.clean
      constructor <;>
        simp [collect, absorb, countRx, hnormal, normalCounts, hnone, hclean.old, hclean.superseded,
          hclean.nonfinite, hclean.skewExcess, hclean.duplicate, hclean.conflict, hclean.invalid,
          hclean.futureExpired]
  · have hclass : v.newClass f = .future := by
      simp [newClass, hfinite, hold, hexpected, show ¬f.tick ≤ tickBase + n by omega,
        show f.tick - (tickBase + n) ≤ v.skewMax by omega]
    have hskew := hreach.shape.valid (hreach.shape.opened hopen)
    have hfree : v.future (f.tick - v.expected - 1) = none := by
      cases hslot : v.future (f.tick - v.expected - 1) with
      | none => rfl
      | some g =>
        have hgtick := (hreach.shape.slots _ g hslot).1
        have hparked : g ∈ v.parked := mem_parked.mpr ⟨_, by omega, hslot⟩
        exact absurd (by omega) (hnew g ((h.parked g).mp hparked).1)
    rw [hclass]
    refine ⟨fun g => ?_, fun g => ?_, ?_, ?_, ?_, ?_⟩
    · have hcandidate : (v.countRx.collect f .future).candidateFrame = v.candidateFrame := by
        simp [collect, absorb, competes, countRx]
      rw [hcandidate, h.candidate g, hmem]
      constructor
      · exact fun hg => ⟨.inl hg.1, hg.2⟩
      · rintro ⟨hg | rfl, hgtick⟩
        · exact ⟨hg, hgtick⟩
        · omega
    · have hparked : g ∈ (v.countRx.collect f .future).parked ↔ g = f ∨ g ∈ v.parked := by
        rw [parked_eq, parked_eq]
        exact SlotWindow.mem_entries_update (by omega) hfree
      rw [hparked, h.parked g, hmem]
      constructor
      · rintro (rfl | ⟨hg, hgtick⟩)
        · exact ⟨.inr rfl, htick⟩
        · exact ⟨.inl hg, hgtick⟩
      · rintro ⟨hg | rfl, hgtick⟩
        · exact .inr ⟨hg, hgtick⟩
        · exact .inl rfl
    · simp [collect, countRx, h.integrity, dueTerminal, hnormal]
    · simp [collect, absorb, countRx, h.terminal, dueTerminal, hnormal]
    · simp [collect, countRx, h.discards, discardOf]
    · have hclean := h.clean
      constructor <;>
        simp [collect, absorb, countRx, hnormal, normalCounts, hclean.old, hclean.superseded,
          hclean.nonfinite, hclean.skewExcess, hclean.duplicate, hclean.conflict, hclean.invalid,
          hclean.futureExpired]

/-- Receiving a batch is a run of calls. -/
theorem receiveAll_eq_run (s : Admission) (front : List Datagram) :
    s.receiveAll front = (Machine.run call s (front.map .receive)).1 := by
  induction front generalizing s with
  | nil => rfl
  | cons d front ih => exact ih _

/-- Receiving a batch stays in the cycle. -/
theorem sameCycle_receiveAll (hreach : s.Reachable) (hopen : s.isOpen = true) (front : List Datagram) :
    SameCycle s (s.receiveAll front) := by
  rw [receiveAll_eq_run]
  exact sameCycle_run hreach hopen fun c hc => by
    obtain ⟨d, -, rfl⟩ := List.mem_map.mp hc
    rfl

/-- The frames of a batch and one more datagram. -/
theorem framesOf_append (front rest : List Datagram) :
    framesOf (front ++ rest) = framesOf front ++ framesOf rest := List.filterMap_append

/-- What an opened cycle knows was received in the cycles before. -/
theorem Delivering.openKnown_received (hwindow : InWindow tickBase skewMax last batch) (hn : n ≤ last)
    (h : Delivering tickBase skewMax batch n s) :
    ∀ g ∈ (s.opened (tickBase + n)).openKnown, g ∈ received batch n := by
  intro g hg
  have hparked := (h.opened hwindow hn).parked
  simp only [openKnown, List.mem_append, Option.mem_toList, or_assoc] at hg
  rcases hg with hnewest | hdue | hslot | hlatch
  · exact h.newest g hnewest
  · have hsplit := parked_opened h.reachable.shape h.admissible
    rw [h.skipped, List.nil_append] at hsplit
    refine ((h.parked g).mp ?_).1
    rw [hsplit]
    exact List.mem_append_left _ (Option.mem_toList.mpr hdue)
  · simpa [framesOf] using ((hparked g).mp hslot).1
  · have hnone : (s.opened (tickBase + n)).terminalLatch = none := h.latch
    simp [hnone] at hlatch

/-- The batch of a cycle is within its cap. -/
theorem Delivering.cap (hwindow : InWindow tickBase skewMax last batch) (hn : n ≤ last)
    (h : Delivering tickBase skewMax batch n s) :
    (batch n).length ≤ (s.opened (tickBase + n)).batchCap := by
  have hcycles : (s.opened (tickBase + n)).cycles = n := h.cycles
  simp only [batchCap, hcycles, beq_iff_eq]
  split
  · rename_i hzero
    rw [hzero]
    exact hwindow.first
  · rename_i hlater
    exact hwindow.later n hn hlater

/-- Every part of the batch is taken without one comparison. -/
theorem Delivering.receiveAll (hwindow : InWindow tickBase skewMax last batch) (hn : n ≤ last)
    (h : Delivering tickBase skewMax batch n s) {front rest : List Datagram}
    (hsplit : batch n = front ++ rest) :
    (s.opened (tickBase + n)).receiveAll front = front.foldl take (s.opened (tickBase + n)) ∧
      ((s.opened (tickBase + n)).receiveAll front).Reachable ∧
      ((s.opened (tickBase + n)).receiveAll front).isOpen = true ∧
      ∀ g ∈ ((s.opened (tickBase + n)).receiveAll front).known true,
        g ∈ received batch n ∨ g ∈ framesOf front := by
  have hdistinct : ((received batch n ++ framesOf front).map Frame.tick).Nodup := by
    have hearlier : received batch n ++ framesOf front <+: received batch (n + 1) := by
      rw [received, hsplit, framesOf_append, ← List.append_assoc]
      exact List.prefix_append _ _
    exact hwindow.distinct.sublist ((hearlier.trans (received_mono (by omega))).sublist.map _)
  rw [List.map_append, List.nodup_append] at hdistinct
  have hknown := h.openKnown_received hwindow hn
  have hcap := h.cap hwindow hn
  rw [hsplit, List.length_append] at hcap
  obtain ⟨heq, hreach, hopen, -, -, hafter⟩ := receiveAll_eq_take h.reachable h.admissible
    (show front.length ≤ _ by omega) hdistinct.2.1 fun f hf g hg =>
      hdistinct.2.2 _ (List.mem_map_of_mem (hknown g hg)) _ (List.mem_map_of_mem hf)
  exact ⟨heq, hreach, hopen, fun g hg => (hafter g hg).imp_left (hknown g)⟩

/-- After each part of the batch the candidate and the parked frames are those of the window. -/
theorem Delivering.receiving (hwindow : InWindow tickBase skewMax last batch) (hn : n ≤ last)
    (h : Delivering tickBase skewMax batch n s) {front rest : List Datagram}
    (hsplit : batch n = front ++ rest) :
    Receiving tickBase batch n front ((s.opened (tickBase + n)).receiveAll front) := by
  induction front using List.reverseRecOn generalizing rest with
  | nil => exact h.opened hwindow hn
  | append_singleton front d ih =>
    have hbefore : batch n = front ++ ([d] ++ rest) := by rw [hsplit, List.append_assoc]
    obtain ⟨heq, hreach, hopen, -⟩ := h.receiveAll hwindow hn hbefore
    obtain ⟨heq', -, -, -⟩ := h.receiveAll hwindow hn hsplit
    have hsame := sameCycle_receiveAll (h.reachable.opened h.admissible) rfl front
    have hd : d ∈ batch n := by simp [hsplit]
    obtain ⟨f, hframe, hnormal, -, -⟩ := hwindow.frames n hn d hd
    have hf : f ∈ framesOf (batch n) :=
      List.mem_filterMap.mpr ⟨d, hd, by simp [frameOf, hframe, Except.toOption]⟩
    have hfreceived : f ∈ received batch (n + 1) := List.mem_append_right _ hf
    have husable := hwindow.usable ((received_mono (by omega)).subset hfreceived)
    have hskew : ((s.opened (tickBase + n)).receiveAll front).skewMax = skewMax :=
      hsame.skewMax.trans h.limit
    have hnew : ∀ g ∈ received batch n ++ framesOf front, g.tick ≠ f.tick := by
      have hearlier : received batch n ++ framesOf front ++ [f] <+: received batch (n + 1) := by
        rw [received, hbefore, framesOf_append, ← List.append_assoc, framesOf_append]
        refine List.prefix_append_right_inj _ |>.mpr ?_
        simp [framesOf, frameOf, hframe, Except.toOption]
      have hdistinct :=
        hwindow.distinct.sublist ((hearlier.trans (received_mono (by omega))).sublist.map _)
      rw [List.map_append, List.nodup_append] at hdistinct
      exact fun g hg => hdistinct.2.2 _ (List.mem_map_of_mem hg) _ (by simp)
    have hstep := (ih hbefore).take_step hreach hsame.expected hopen
      (by rw [hsame.held]; exact h.held) hframe hnormal husable.2.2 (hwindow.window n hn f hf).1
      (by rw [hskew]; exact (hwindow.window n hn f hf).2) hnew
    rwa [heq', List.foldl_append, ← heq]

/-- A cycle consumes the frame of its tick and leaves the rest parked. -/
theorem Delivering.cycle (hwindow : InWindow tickBase skewMax last batch) (hn : n ≤ last)
    (h : Delivering tickBase skewMax batch n s) :
    Delivering tickBase skewMax batch (n + 1)
        ((s.opened (tickBase + n)).receiveAll (batch n)).closed ∧
      ∃ f ∈ received batch (last + 1), f.tick = tickBase + n ∧
        ((s.opened (tickBase + n)).receiveAll (batch n)).closed.cycle.fresh = some f.sample ∧
        ((s.opened (tickBase + n)).receiveAll (batch n)).closed.cycle.staleness = 0 ∧
        ((s.opened (tickBase + n)).receiveAll (batch n)).closed.cycle.discards = [] ∧
        Clean ((s.opened (tickBase + n)).receiveAll (batch n)).closed.cycle.counts := by
  obtain ⟨-, hreach, hopen, hknown⟩ := h.receiveAll hwindow hn (List.append_nil (batch n)).symm
  have hv := h.receiving hwindow hn (List.append_nil (batch n)).symm
  have hsame := sameCycle_receiveAll (h.reachable.opened h.admissible) rfl (batch n)
  generalize (s.opened (tickBase + n)).receiveAll (batch n) = v at hreach hopen hknown hv hsame
  -- The frame of the tick was received, and no later than now.
  obtain ⟨f, hf, htick⟩ := hwindow.complete n hn
  have hfnow : f ∈ received batch n ++ framesOf (batch n) := by
    obtain ⟨k, hk, hfk⟩ := mem_received.mp hf
    have := (hwindow.window k (by omega) f hfk).1
    exact mem_received (n := n + 1).mpr ⟨k, by omega, hfk⟩
  have hcandidate : v.candidateFrame = some f := (hv.candidate f).mpr ⟨hfnow, htick⟩
  have hfresh : v.freshSample = some f.sample := by
    simp [freshSample, hcandidate, Option.filter, (hwindow.usable hf).2.1]
  have hclean : Clean v.closedCounts := by
    have hc := hv.clean
    constructor <;> simp [closedCounts, hfresh, hcandidate, hc.old, hc.superseded, hc.nonfinite, hc.skewExcess,
      hc.duplicate, hc.conflict, hc.invalid, hc.futureExpired]
  have hreachable : v.closed.Reachable := by
    have hnext := hreach.run [.finishCycle]
    rwa [Machine.run_cons, Machine.run_nil, call, finishCycle_of_open hopen] at hnext
  have hlatch : v.terminalLatch = none := hsame.terminalLatch.trans h.latch
  refine ⟨⟨hreachable, ?_, hsame.skewMax.trans h.limit, ?_, ?_, ?_, rfl, hv.integrity, ?_, ?_, ?_, ?_, ?_⟩,
    f, hf, htick, ?_, ?_, hv.discards, hclean⟩
  · exact hsame.tickBase.trans h.base
  · exact hsame.valid.trans h.valid
  · exact congrArg (· + 1) (hsame.cycles.trans h.cycles)
  · intro _
    have hexpected : v.closed.expected = tickBase + n := hsame.expected
    omega
  · have hnone : v.closed.terminalLatch = v.terminalLatch.or v.terminalCandidate := rfl
    rw [hnone, hlatch, hv.terminal]
    rfl
  · intro x hx
    have hheld : v.closed.held = some f.sample := by simp [Admission.closed, hfresh]
    obtain rfl := Option.some.inj (hheld.symm.trans hx)
    have hsample : f.sample.tick = f.tick := rfl
    omega
  · intro g
    have hparked : g ∈ v.closed.parked ↔ g ∈ v.parked := Iff.rfl
    rw [hparked, hv.parked g, received]
    refine and_congr_right fun _ => ?_
    omega
  · intro g hg
    exact List.mem_append.mpr (hknown g (mem_known_true (mem_kept.mpr (.inl hg))))
  · have hepisode : v.closed.episode = v.episode.add v.closedCounts := rfl
    rw [hepisode, hsame.episode]
    exact h.clean.add hclean
  · simp [Admission.closed, hfresh]
  · have hexpected : v.expected = tickBase + n := hsame.expected
    have hsample : f.sample.tick = f.tick := rfl
    simp [Admission.closed, hfresh, age, hexpected, hsample, htick]

/-- The state after one more cycle of the window. -/
theorem windowCalls_succ (hwindow : InWindow tickBase skewMax last batch) (hn : n ≤ last) (warmup : ℕ)
    (h : Delivering tickBase skewMax batch n (after tickBase skewMax warmup (windowCalls tickBase batch n))) :
    after tickBase skewMax warmup (windowCalls tickBase batch (n + 1)) =
      (((after tickBase skewMax warmup (windowCalls tickBase batch n)).opened (tickBase + n)).receiveAll
        (batch n)).closed := by
  obtain ⟨-, -, hopen, -⟩ := h.receiveAll hwindow hn (List.append_nil (batch n)).symm
  rw [windowCalls, after_cycle, ← receiveAll_eq_run,
    beginCycle_of_admissible h.reachable.shape.slots h.reachable.shape.unstarted h.admissible,
    finishCycle_of_open hopen]

/-- After every cycle of the window the frames received ahead of time are parked. -/
theorem windowCalls_run (hskew : skewMax ≤ kMaxSkew) (hwindow : InWindow tickBase skewMax last batch)
    (warmup : ℕ) (hn : n ≤ last + 1) :
    Delivering tickBase skewMax batch n
      (after tickBase skewMax warmup (windowCalls tickBase batch n)) := by
  induction n with
  | zero => exact .initial hskew warmup
  | succ n ih =>
    have hbefore := ih (by omega)
    rw [windowCalls_succ hwindow (by omega) warmup hbefore]
    exact (hbefore.cycle hwindow (by omega)).1

end Admission

open Admission

/-- Stall tolerance: when every tick has one frame, received within the window in any order, each
cycle consumes the frame of its tick with no staleness, and nothing is lost or reported. -/
theorem in_window_delivery (tickBase skewMax last warmup : ℕ) (hskew : skewMax ≤ kMaxSkew)
    (batch : ℕ → List Datagram) (hwindow : InWindow tickBase skewMax last batch) (n : ℕ) (hn : n ≤ last) :
    let t := after tickBase skewMax warmup (windowCalls tickBase batch (n + 1))
    (∃ f ∈ received batch (last + 1), f.tick = tickBase + n ∧ t.cycle.fresh = some f.sample) ∧
      t.cycle.staleness = 0 ∧ t.cycle.discards = [] ∧ Clean t.cycle.counts ∧ Clean t.episode ∧
      t.integrity = false := by
  intro t
  have hbefore := windowCalls_run hskew hwindow warmup (n := n) (by omega)
  have ht : t = _ := windowCalls_succ hwindow hn warmup hbefore
  obtain ⟨hafter, f, hf, htick, hfresh, hstale, hdiscards, hclean⟩ := hbefore.cycle hwindow hn
  rw [← ht] at hafter hfresh hstale hdiscards hclean
  exact ⟨⟨f, hf, htick, hfresh⟩, hstale, hdiscards, hclean, hafter.clean, hafter.integrity⟩

/-- The valid frame of a tick. -/
def plainFrame (tick : U64) : Frame := .ofFields ⟨tick, 0, ⟨0⟩, ⟨0⟩, 1, 0, 0⟩

/-- The frames of ticks 1 and 0 come in the first cycle. -/
def earlyBatch : ℕ → List Datagram
  | 0 => [.ofFrame 0 (plainFrame 1), .ofFrame 1 (plainFrame 0)]
  | _ => []

/-- The early frame lies in the window. -/
theorem earlyBatch_inWindow : InWindow 0 1 1 earlyBatch where
  frames k hk d hd := by
    match k with
    | 0 =>
      rcases List.mem_pair.mp hd with rfl | rfl
      · exact ⟨plainFrame 1, by simp, by decide +kernel, by decide +kernel, by decide +kernel⟩
      · exact ⟨plainFrame 0, by simp, by decide +kernel, by decide +kernel, by decide +kernel⟩
    | k + 1 => exact absurd hd List.not_mem_nil
  window := by decide +kernel
  distinct := by decide +kernel
  complete := by decide +kernel
  first := by decide
  later := by decide

/-- The second cycle has no staleness although it receives nothing. -/
theorem in_window_delivery_early :
    (after 0 1 0 (windowCalls 0 earlyBatch (1 + 1))).cycle.staleness = 0 :=
  (in_window_delivery 0 1 1 0 (by decide) earlyBatch earlyBatch_inWindow 1 (by decide)).2.1

end Tvc.Freerun
