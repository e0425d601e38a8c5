import Tvc.Admission.Identity

/-!
# The order of a batch

In a batch of frames whose ticks differ from each other and from the known ones, no frame is
compared with another, so each is classified by its own tick alone. Taking two such frames in
either order leaves the same counters, the same slots and the same running maxima, and the same
discards up to their order.
-/

namespace Tvc.Freerun

namespace Admission

variable {s : Admission}

/-- The class of a frame whose tick is not known. -/
def newClass (s : Admission) (f : Frame) : SensorClass :=
  if nonfinite f then .nonfinite
  else if !f.terminal && s.held.any fun held => f.tick ≤ held.tick then .old
  else if f.tick ≤ s.expected then .current
  else if f.tick - s.expected ≤ s.skewMax then .future
  else .excessiveSkew

/-- A frame whose tick is not known gets the class of its tick. -/
theorem classify_of_new {f : Frame} (h : s.identity f = none) : s.classify f = s.newClass f := by
  rw [classify, newClass, h]

/-- The state after a frame when there is room for its discard. -/
def collect (s : Admission) (f : Frame) (kind : SensorClass) : Admission :=
  { s.absorb f kind with
    integrity := s.integrity || decide (kind = .conflict) || decide (kind = .excessiveSkew) ||
      (dueTerminal s.expected f kind && f.illegalReason)
    cycle :=
      { (s.absorb f kind).cycle with
        discards := s.cycle.discards ++ (s.discardOf f kind).toList } }

/-- Below the capacity of the discards, absorbing is collecting. -/
theorem absorb_eq_collect (h : s.cycle.discards.length ≠ 9) (f : Frame) (kind : SensorClass) :
    s.absorb f kind = s.collect f kind := by
  simp [collect, absorb, pushDiscard, h]

/-- Take a datagram whose frame, if it has one, has a new tick. -/
def take (s : Admission) (d : Datagram) : Admission :=
  match d.frame with
  | .error e => s.countRx.malformed e
  | .ok f => s.countRx.collect f (s.newClass f)

/-- The states agree but for the order of the discards and the terminals seen. -/
def SameBatch (s t : Admission) : Prop :=
  (∃ discards seen, t = { s with terminalSeen := seen, cycle := { s.cycle with discards } }) ∧
    s.cycle.discards.Perm t.cycle.discards

theorem SameBatch.refl (s : Admission) : SameBatch s s := ⟨⟨_, _, rfl⟩, .refl _⟩

theorem SameBatch.trans {t u : Admission} (h : SameBatch s t) (h' : SameBatch t u) : SameBatch s u := by
  obtain ⟨⟨discards, seen, rfl⟩, hperm⟩ := h
  obtain ⟨⟨discards', seen', rfl⟩, hperm'⟩ := h'
  exact ⟨⟨_, _, rfl⟩, hperm.trans hperm'⟩

/-- Taking a datagram respects the agreement. -/
theorem SameBatch.take {t : Admission} (h : SameBatch s t) (d : Datagram) :
    SameBatch (s.take d) (t.take d) := by
  obtain ⟨⟨discards, seen, rfl⟩, hperm⟩ := h
  unfold Admission.take
  cases d.frame with
  | error e => exact ⟨⟨_, _, rfl⟩, hperm⟩
  | ok f => exact ⟨⟨_, _, rfl⟩, hperm.append_right _⟩

/-! ## Two frames -/

/-- The newest normal tick does not depend on the order. -/
theorem laterTick_comm (last : Option ℕ) (a b : ℕ) :
    laterTick (laterTick last a) b = laterTick (laterTick last b) a := by
  have hmax (l : ℕ) (c : ℕ) : laterTick (some l) c = some (max l c) := by
    simp only [laterTick]
    split
    · rw [max_eq_right (by omega)]
    · rw [max_eq_left (by omega)]
  cases last with
  | none =>
    change laterTick (some a) b = laterTick (some b) a
    rw [hmax, hmax, max_comm]
  | some l => rw [hmax, hmax, hmax, hmax, max_right_comm]

/-- The counts of two normal frames. -/
theorem normalCounts_comm (kind kind' : SensorClass) (best : Bool) (c : AdmissionCounts) :
    normalCounts kind' (best || decide (kind = .current)) (normalCounts kind best c) =
      normalCounts kind (best || decide (kind' = .current)) (normalCounts kind' best c) := by
  cases kind <;> cases kind' <;> simp [normalCounts]

/-- The counts of two terminal frames. -/
theorem envelopeCounts_comm (kind kind' : SensorClass) (illegal illegal' : Bool) (c : TerminalCounts) :
    envelopeCounts kind' illegal' (envelopeCounts kind illegal c) =
      envelopeCounts kind illegal (envelopeCounts kind' illegal' c) := by
  cases kind <;> cases kind' <;> simp [envelopeCounts, Nat.add_right_comm]

/-- A frame that does not compete is discarded on its own account. -/
theorem discardOf_of_not_competes {t : Admission} {f : Frame} {kind : SensorClass}
    (h : competes f kind = false) : s.discardOf f kind = t.discardOf f kind := by
  unfold discardOf
  cases hterminal : f.terminal with
  | true => rfl
  | false => cases kind <;> simp_all [competes]

/-- The discards of two frames of different ticks. -/
theorem discards_comm {f g : Frame} (hne : f.tick ≠ g.tick) (kind kind' : SensorClass) :
    ((s.discardOf f kind).toList ++ ((s.collect f kind).discardOf g kind').toList).Perm
      ((s.discardOf g kind').toList ++ ((s.collect g kind').discardOf f kind).toList) := by
  cases hf : competes f kind with
  | false =>
    rw [discardOf_of_not_competes (t := s.collect g kind') hf]
    have hsame : (s.collect f kind).discardOf g kind' = s.discardOf g kind' := by
      simp [discardOf, collect, absorb, hf]
    rw [hsame]
    exact List.perm_append_comm
  | true =>
    cases hg : competes g kind' with
    | false =>
      rw [discardOf_of_not_competes (s := s.collect f kind) (t := s) hg]
      have hsame : (s.collect g kind').discardOf f kind = s.discardOf f kind := by
        simp [discardOf, collect, absorb, hg]
      rw [hsame]
      exact List.perm_append_comm
    | true =>
      obtain ⟨hfnormal, rfl⟩ : f.terminal = false ∧ kind = .current := by simpa [competes] using hf
      obtain ⟨hgnormal, rfl⟩ : g.terminal = false ∧ kind' = .current := by simpa [competes] using hg
      cases hcandidate : s.candidateFrame with
      | none =>
        rcases Nat.lt_or_gt_of_ne hne with hlt | hgt
        · simp [discardOf, collect, absorb, hf, hg, hfnormal, hgnormal, hcandidate, hlt,
            Nat.not_lt_of_gt hlt]
        · simp [discardOf, collect, absorb, hf, hg, hfnormal, hgnormal, hcandidate, hgt,
            Nat.not_lt_of_gt hgt]
      | some c =>
        simp only [discardOf, collect, absorb, hf, hg, hfnormal, hgnormal, hcandidate, if_true,
          Bool.false_eq_true, if_false, RunningMax.pick_some, Option.map_some, Option.toList_some]
        by_cases hcf : c.tick < f.tick <;> by_cases hcg : c.tick < g.tick
        · rcases Nat.lt_or_gt_of_ne hne with hlt | hgt
          · simp [hcf, hcg, hlt, Nat.not_lt_of_gt hlt]
          · simp [hcf, hcg, hgt, Nat.not_lt_of_gt hgt]
        · simp [hcf, hcg, show ¬f.tick < g.tick by omega, List.Perm.swap]
        · simp [hcf, hcg, show ¬g.tick < f.tick by omega, List.Perm.swap]
        · simp [hcf, hcg, List.Perm.swap]

/-- A future frame of a new tick lies beyond the expected one. -/
theorem newClass_future {f : Frame} (h : s.newClass f = .future) : s.expected < f.tick := by
  unfold newClass at h
  repeat' split at h
  all_goals first | contradiction | skip
  omega

/-- Collecting two frames of different new ticks in either order. -/
theorem collect_comm {f g : Frame} (hne : f.tick ≠ g.tick) :
    SameBatch ((s.collect f (s.newClass f)).collect g (s.newClass g))
      ((s.collect g (s.newClass g)).collect f (s.newClass f)) := by
  have hfutureF : s.newClass f = .future → s.expected < f.tick := newClass_future
  have hfutureG : s.newClass g = .future → s.expected < g.tick := newClass_future
  generalize s.newClass f = kind at hfutureF ⊢
  generalize s.newClass g = kind' at hfutureG ⊢
  refine ⟨⟨((s.collect g kind').collect f kind).cycle.discards,
    ((s.collect g kind').collect f kind).terminalSeen, ?_⟩, ?_⟩
  · have hfuture : ((s.collect g kind').collect f kind).future =
        ((s.collect f kind).collect g kind').future := by
      simp only [collect, absorb]
      by_cases hf : kind = .future <;> by_cases hg : kind' = .future <;> simp only [hf, hg, if_true, if_false]
      have hslots : f.tick - s.expected - 1 ≠ g.tick - s.expected - 1 := by
        have := hfutureF hf
        have := hfutureG hg
        omega
      exact (Function.update_comm hslots ..).symm
    have hintegrity : ((s.collect g kind').collect f kind).integrity =
        ((s.collect f kind).collect g kind').integrity := by
      simp only [collect, absorb, Bool.or_assoc, Bool.or_comm, Bool.or_left_comm]
    have hlast : ((s.collect g kind').collect f kind).lastNormalTick =
        ((s.collect f kind).collect g kind').lastNormalTick := by
      simp only [collect, absorb]
      cases f.terminal <;> cases g.terminal <;>
        simp only [Bool.false_eq_true, if_true, if_false, laterTick_comm]
    have hnewest : ((s.collect g kind').collect f kind).newestReceived =
        ((s.collect f kind).collect g kind').newestReceived :=
      RunningMax.pick_ite_comm hne.symm kind'.remembered kind.remembered s.newestReceived
    have hcandidate : ((s.collect g kind').collect f kind).candidateFrame =
        ((s.collect f kind).collect g kind').candidateFrame :=
      RunningMax.pick_ite_comm hne.symm (competes g kind') (competes f kind) s.candidateFrame
    have hterminal : ((s.collect g kind').collect f kind).terminalCandidate =
        ((s.collect f kind).collect g kind').terminalCandidate :=
      RunningMax.pick_ite_comm hne.symm (dueTerminal s.expected g kind' && s.terminalLatch.isNone)
        (dueTerminal s.expected f kind && s.terminalLatch.isNone) s.terminalCandidate
    have henvelopes : ((s.collect g kind').collect f kind).terminalCounts =
        ((s.collect f kind).collect g kind').terminalCounts := by
      simp only [collect, absorb]
      cases f.terminal <;> cases g.terminal <;>
        simp only [Bool.false_eq_true, if_true, if_false, envelopeCounts_comm]
    have hcounts : ((s.collect g kind').collect f kind).cycle.counts =
        ((s.collect f kind).collect g kind').cycle.counts := by
      have hoccupied (h : Frame) (k : SensorClass) (hnormal : h.terminal = false) :
          (s.collect h k).candidateFrame.isSome =
            (s.candidateFrame.isSome || decide (k = .current)) := by
        by_cases hk : k = .current <;> simp [collect, absorb, competes, hnormal, hk]
      have hstep (t : Admission) (h : Frame) (k : SensorClass) : (t.collect h k).cycle.counts =
          if h.terminal then t.cycle.counts else normalCounts k t.candidateFrame.isSome t.cycle.counts := rfl
      rw [hstep, hstep, hstep, hstep]
      cases hf : f.terminal <;> cases hg : g.terminal <;> simp only [Bool.false_eq_true, if_true, if_false]
      · rw [hoccupied f kind hf, hoccupied g kind' hg, normalCounts_comm]
      · simp [collect, absorb, competes, hg]
      · simp [collect, absorb, competes, hf]
    have hcycle : ((s.collect g kind').collect f kind).cycle =
        { ((s.collect f kind).collect g kind').cycle with
          discards := ((s.collect g kind').collect f kind).cycle.discards } :=
      AdmissionCycle.ext rfl rfl rfl rfl rfl hcounts
    exact Admission.ext rfl rfl rfl rfl rfl hlast rfl rfl hintegrity rfl hfuture hnewest rfl hcandidate
      rfl rfl hterminal rfl hcycle rfl rfl henvelopes
  · simpa [collect] using (discards_comm hne kind kind').append_left s.cycle.discards

/-- The frame of a datagram, if it has one. -/
def frameOf (d : Datagram) : Option Frame := d.frame.toOption

/-- The ticks of two datagrams differ, if both have frames. -/
def TicksDiffer (d d' : Datagram) : Prop :=
  ∀ f ∈ frameOf d, ∀ g ∈ frameOf d', f.tick ≠ g.tick

/-- A malformed datagram and a frame in either order. -/
theorem malformed_collect_comm (s : Admission) (e : Telem.DatagramError) (f : Frame) (kind : SensorClass) :
    (s.collect f kind).malformed e = (s.malformed e).collect f kind := by
  have hcounts : ((s.collect f kind).malformed e).cycle.counts =
      ((s.malformed e).collect f kind).cycle.counts := by
    simp only [malformed, count, collect, absorb]
    cases f.terminal with
    | true => rfl
    | false => cases e <;> cases kind <;> rfl
  have hcycle : ((s.collect f kind).malformed e).cycle = ((s.malformed e).collect f kind).cycle :=
    AdmissionCycle.ext rfl rfl rfl rfl rfl hcounts
  have hintegrity : ((s.malformed e).collect f kind).integrity = true := by
    simp [collect, malformed]
  exact Admission.ext rfl rfl rfl rfl rfl rfl rfl rfl hintegrity.symm rfl rfl rfl rfl rfl rfl rfl rfl rfl
    hcycle rfl rfl rfl

/-- Two malformed datagrams in either order. -/
theorem malformed_comm (s : Admission) (e e' : Telem.DatagramError) :
    (s.malformed e).malformed e' = (s.malformed e').malformed e := by
  have hcounts : countMalformed (countMalformed s.cycle.counts e) e' =
      countMalformed (countMalformed s.cycle.counts e') e := by
    cases e <;> cases e' <;> rfl
  simp only [malformed, count, hcounts]

/-- Taking two datagrams of different new ticks in either order. -/
theorem take_comm {d d' : Datagram} (h : TicksDiffer d d') :
    SameBatch ((s.take d).take d') ((s.take d').take d) := by
  cases hd : d.frame with
  | error e =>
    cases hd' : d'.frame with
    | error e' =>
      have hsame : (s.take d).take d' = (s.take d').take d := by
        simp only [take, hd, hd']
        exact malformed_comm s.countRx.countRx e e'
      rw [hsame]
      exact .refl _
    | ok g =>
      have hsame : (s.take d).take d' = (s.take d').take d := by
        simp only [take, hd, hd']
        exact (malformed_collect_comm s.countRx.countRx e g (s.newClass g)).symm
      rw [hsame]
      exact .refl _
  | ok f =>
    cases hd' : d'.frame with
    | error e' =>
      have hsame : (s.take d).take d' = (s.take d').take d := by
        simp only [take, hd, hd']
        exact malformed_collect_comm s.countRx.countRx e' f (s.newClass f)
      rw [hsame]
      exact .refl _
    | ok g =>
      have hne : f.tick ≠ g.tick := h f (by simp [frameOf, hd, Except.toOption]) g
        (by simp [frameOf, hd', Except.toOption])
      have hcomm := collect_comm (s := s.countRx.countRx) hne
      simp only [take, hd, hd']
      exact hcomm

/-! ## The batch -/

/-- Receive a batch of datagrams one after another. -/
def receiveAll (s : Admission) (batch : List Datagram) : Admission :=
  batch.foldl (fun s d => (s.receive d).1) s

/-- The frames of a batch. -/
def framesOf (batch : List Datagram) : List Frame := batch.filterMap frameOf

/-- The frames a cycle knows when it opens. -/
def openKnown (s : Admission) : List Frame :=
  s.newestReceived.toList ++ s.due.toList ++ s.parked ++ s.terminalLatch.toList

/-- An opened cycle knows no others. -/
theorem mem_openKnown {expected : ℕ} {f : Frame} (h : f ∈ (s.opened expected).known true) :
    f ∈ (s.opened expected).openKnown := by
  rcases mem_known_true_iff.mp h with h | hcandidate
  · simp only [openKnown, List.mem_append, Option.mem_toList, or_assoc]
    rcases mem_kept.mp h with hnewest | hdue | hparked | hcandidate | hlatch | hseen
    · exact .inl hnewest
    · exact .inr (.inl hdue)
    · exact .inr (.inr (.inl hparked))
    · simp only [opened] at hcandidate
      split at hcandidate
      · exact .inr (.inl (Option.filter_eq_some_iff.mp hcandidate).1)
      · contradiction
    · exact .inr (.inr (.inr hlatch))
    · simp [opened, openCycle] at hseen
  · have hdue : f ∈ (s.opened expected).due := (Option.filter_eq_some_iff.mp hcandidate).1
    simp [openKnown, Option.mem_def.mp hdue]

/-- A batch of new ticks within the cap is taken without one comparison. -/
theorem receiveAll_eq_take (hreach : s.Reachable) {expected : ℕ} (ha : s.Admissible expected)
    {batch : List Datagram} (hcap : batch.length ≤ (s.opened expected).batchCap)
    (hdistinct : ((framesOf batch).map Frame.tick).Nodup)
    (hnew : ∀ f ∈ framesOf batch, ∀ g ∈ (s.opened expected).openKnown, g.tick ≠ f.tick) :
    (s.opened expected).receiveAll batch = batch.foldl take (s.opened expected) ∧
      ((s.opened expected).receiveAll batch).Reachable ∧
      ((s.opened expected).receiveAll batch).isOpen = true ∧
      ((s.opened expected).receiveAll batch).batchCap = (s.opened expected).batchCap ∧
      ((s.opened expected).receiveAll batch).cycle.rxCount = batch.length ∧
      ∀ g ∈ ((s.opened expected).receiveAll batch).known true,
        g ∈ (s.opened expected).openKnown ∨ g ∈ framesOf batch := by
  induction batch using List.reverseRecOn with
  | nil => exact ⟨rfl, hreach.opened ha, rfl, rfl, rfl, fun g hg => .inl (mem_openKnown hg)⟩
  | append_singleton batch d ih =>
    have hframes : framesOf (batch ++ [d]) = framesOf batch ++ (frameOf d).toList := by
      cases h : frameOf d <;> simp [framesOf, h]
    rw [hframes, List.map_append] at hdistinct
    rw [hframes] at hnew ⊢
    rw [List.length_append, List.length_singleton] at hcap
    obtain ⟨heq, hu, hopen, hlimit, hrx, hknown⟩ := ih (by omega) (List.nodup_append.mp hdistinct).1
      fun f hf => hnew f (List.mem_append_left _ hf)
    have hnext : (s.opened expected).receiveAll (batch ++ [d]) =
        (((s.opened expected).receiveAll batch).receive d).1 := by
      rw [receiveAll, List.foldl_append]
      rfl
    have htaken : (batch ++ [d]).foldl take (s.opened expected) =
        (batch.foldl take (s.opened expected)).take d := List.foldl_append
    have hreceived := hu.run [.receive d]
    rw [Machine.run_cons, Machine.run_nil, call] at hreceived
    rw [hnext, htaken, ← heq]
    generalize (s.opened expected).receiveAll batch = u at hu hopen hlimit hrx hknown hreceived
    have haccepts : u.Accepts := ⟨hopen, by rw [hlimit, hrx]; omega⟩
    rw [receive_of_accepts haccepts] at hreceived ⊢
    rw [List.length_append, List.length_singleton]
    cases hd : d.frame with
    | error e =>
      rw [hd] at hreceived
      refine ⟨by simp only [take, hd], hreceived, hopen, hlimit, ?_, fun g hg => ?_⟩
      · exact congrArg (· + 1) hrx
      · exact (hknown g hg).imp_right (List.mem_append_left _)
    | ok f =>
      rw [hd] at hreceived
      have hf : frameOf d = some f := by simp [frameOf, hd, Except.toOption]
      rw [hf, Option.toList_some] at hdistinct hnew ⊢
      have hidentity : u.countRx.identity f = none := by
        refine identity_eq_none.mpr fun g hg => ?_
        have hg : g ∈ u.known true := by
          cases hterminal : f.terminal with
          | true => rwa [hterminal] at hg
          | false =>
            rw [hterminal] at hg
            exact mem_known_true hg
        rcases hknown g hg with hstart | hbefore
        · exact hnew f (by simp) g hstart
        · intro htick
          have hdisjoint := (List.nodup_append.mp hdistinct).2.2
          exact hdisjoint g.tick (List.mem_map_of_mem hbefore) f.tick (by simp) htick
      have hroom : u.countRx.cycle.discards.length ≠ 9 := by
        have hdiscards := hu.capacity.discards
        have hnine : (s.opened expected).batchCap ≤ 9 := by
          unfold batchCap
          split <;> omega
        have hsame : u.countRx.cycle.discards = u.cycle.discards := rfl
        rw [hsame]
        omega
      refine ⟨?_, hreceived, hopen, hlimit, ?_, fun g hg => ?_⟩
      · change u.countRx.absorb f (u.countRx.classify f) = u.take d
        rw [classify_of_new hidentity, absorb_eq_collect hroom]
        simp only [take, hd]
        rfl
      · exact congrArg (· + 1) hrx
      · rcases mem_known_absorb hu.shape.countRx_step hopen hg with rfl | hbefore
        · exact .inr (by simp)
        · exact (hknown g hbefore).imp_right (List.mem_append_left _)

/-- Closing respects the agreement. -/
theorem SameBatch.closed {t : Admission} (h : SameBatch s t) : SameBatch s.closed t.closed := by
  obtain ⟨⟨discards, seen, rfl⟩, hperm⟩ := h
  exact ⟨⟨_, _, rfl⟩, hperm⟩

end Admission

open Admission

/-- Order independence: a batch of new, pairwise different ticks within the cap can be received
in any order. The cycle finishes alike but for the order of its discards. -/
theorem batch_order_independent (tickBase skewMax warmup : ℕ) (calls : List Call) (expected : ℕ)
    (hbegin : ((after tickBase skewMax warmup calls).beginCycle expected).2 = true)
    (batch batch' : List Datagram) (hperm : batch.Perm batch') :
    let o := ((after tickBase skewMax warmup calls).beginCycle expected).1
    let t := (o.receiveAll batch).finishCycle
    let t' := (o.receiveAll batch').finishCycle
    batch.length ≤ o.batchCap → ((framesOf batch).map Frame.tick).Nodup →
    (∀ f ∈ framesOf batch, ∀ g ∈ o.openKnown, g.tick ≠ f.tick) →
      t'.cycle.fresh = t.cycle.fresh ∧ t'.held = t.held ∧ t'.cycle.staleness = t.cycle.staleness ∧
        t'.cycle.terminal = t.cycle.terminal ∧ t'.terminalLatch = t.terminalLatch ∧
        t'.cycle.counts = t.cycle.counts ∧ t'.episode = t.episode ∧ t'.recorded = t.recorded ∧
        t'.terminalCounts = t.terminalCounts ∧ t'.future = t.future ∧
        t'.newestReceived = t.newestReceived ∧ t'.lastNormalTick = t.lastNormalTick ∧
        t'.integrity = t.integrity ∧ t.cycle.discards.Perm t'.cycle.discards := by
  intro o t t' hcap hdistinct hnew
  have hreach : (after tickBase skewMax warmup calls).Reachable := ⟨_, _, _, calls, rfl⟩
  obtain ⟨ha, hopened⟩ := admissible_of_began hreach.shape hbegin
  have ho : o = (after tickBase skewMax warmup calls).opened expected := hopened
  have hframes : (framesOf batch).Perm (framesOf batch') := hperm.filterMap _
  have hdiffer : batch.Pairwise TicksDiffer := by
    refine (List.pairwise_filterMap.mp (List.pairwise_map.mp hdistinct)).imp ?_
    intro d d' h f hf g hg
    exact h f hf g hg
  rw [ho] at hcap hnew
  obtain ⟨heq, -, hopen, -, -, -⟩ := receiveAll_eq_take hreach ha hcap hdistinct hnew
  obtain ⟨heq', -, hopen', -, -, -⟩ := receiveAll_eq_take hreach ha (hperm.length_eq ▸ hcap)
    ((hframes.map _).nodup_iff.mp hdistinct) fun f hf => hnew f (hframes.mem_iff.mpr hf)
  have hbatch : SameBatch (o.receiveAll batch) (o.receiveAll batch') := by
    rw [ho, heq, heq']
    exact Machine.foldl_perm SameBatch.refl (fun _ _ _ => SameBatch.trans) (fun _ _ d h => h.take d)
      (fun _ _ _ => take_comm) (fun _ _ h f hf g hg => (h g hg f hf).symm) hperm hdiffer _
  have ht : t = (o.receiveAll batch).closed := finishCycle_of_open (ho ▸ hopen)
  have ht' : t' = (o.receiveAll batch').closed := finishCycle_of_open (ho ▸ hopen')
  obtain ⟨⟨discards, seen, hsame⟩, hdiscards⟩ := hbatch.closed
  rw [ht, ht', hsame]
  rw [hsame] at hdiscards
  exact ⟨rfl, rfl, rfl, rfl, rfl, rfl, rfl, rfl, rfl, rfl, rfl, rfl, rfl, hdiscards⟩

/-- A batch of a current, a future and a terminal frame. -/
def mixedBatch : List Datagram :=
  [.ofFrame 0 (.ofFields ⟨0, 0, ⟨0⟩, ⟨0⟩, 1, 0, 0⟩), .ofFrame 1 (.ofFields ⟨2, 0, ⟨0⟩, ⟨0⟩, 1, 0, 0⟩),
    .ofFrame 2 (.ofFields ⟨1, 0, ⟨0⟩, ⟨0⟩, 2, 0, 1⟩)]

theorem batch_order_independent_reversed :
    (((after 0 4 0 []).beginCycle 0).1.receiveAll mixedBatch.reverse).finishCycle.cycle.fresh =
      (((after 0 4 0 []).beginCycle 0).1.receiveAll mixedBatch).finishCycle.cycle.fresh :=
  (batch_order_independent 0 4 0 [] 0 (by decide +kernel) mixedBatch mixedBatch.reverse
    (List.reverse_perm mixedBatch).symm (by decide +kernel) (by decide +kernel) (by decide +kernel)).1

end Tvc.Freerun
