import Tvc.Admission.Cycle

/-!
# The selection law

A cycle consumes the first frame of greatest tick among the frame parked for it and the current
frames it receives, if that frame is valid. The held sample is older than every frame that may
still compete, wherever the frame waited, so the consumed ticks strictly increase over a run.
-/

namespace Tvc.Freerun

/-- Both readings of a sample are finite. -/
def Sample.finite (x : Sample) : Bool := x.theta.isFinite && x.omega.isFinite

namespace Admission

variable {s : Admission}

/-! ## What is held -/

/-- The held sample is finite and older than the candidate and than every tick still expected. -/
structure Holding (s : Admission) : Prop where
  unheld : s.cycles = 0 → s.held = none
  unset : s.isOpen = true → s.cycle.fresh = none
  finite : ∀ h ∈ s.held, h.finite = true
  passed : ∀ h ∈ s.held, h.tick ≤ s.expected
  behind : s.isOpen = true → ∀ h ∈ s.held, h.tick < s.expected
  candidate : s.isOpen = true → ∀ c ∈ s.candidateFrame,
    c.terminal = false ∧ nonfinite c = false ∧ c.tick ≤ s.expected ∧ ∀ h ∈ s.held, h.tick < c.tick
  parked : ∀ i f, s.future i = some f → nonfinite f = false

/-- The facts behind the class of a current frame. -/
theorem classify_current {f : Frame} (h : s.classify f = .current) :
    s.identity f = none ∧ nonfinite f = false ∧ f.tick ≤ s.expected ∧
      (f.terminal = false → ∀ held ∈ s.held, held.tick < f.tick) := by
  unfold classify at h
  split at h
  · contradiction
  · rename_i hfinite
    cases hprior : s.identity f with
    | some prior =>
      rw [hprior] at h
      dsimp only at h
      split at h <;> contradiction
    | none =>
      rw [hprior] at h
      dsimp only at h
      split at h
      · contradiction
      · rename_i hold
        split at h
        · refine ⟨rfl, by simpa using hfinite, by assumption, fun hnormal held hheld => ?_⟩
          have hheld : s.held = some held := hheld
          simpa [hnormal, hheld] using hold
        · split at h <;> contradiction

/-- A future frame is finite. -/
theorem nonfinite_of_future {f : Frame} (h : s.classify f = .future) : nonfinite f = false := by
  unfold classify at h
  split at h
  · contradiction
  · simpa using ‹¬nonfinite f = true›

/-- A valid normal frame that is not nonfinite has a finite sample. -/
theorem finite_of_valid {f : Frame} (hterminal : f.terminal = false) (hfinite : nonfinite f = false)
    (hvalid : f.valid = true) : f.sample.finite = true := by
  simpa [nonfinite, hterminal, hvalid, Frame.finite, Sample.finite, Frame.sample] using hfinite

/-- The frame due in a cycle carries the tick of the cycle. -/
theorem tick_of_dueAt (hshape : s.Shape) {expected : ℕ} (ha : s.Admissible expected) {f : Frame}
    (h : s.dueAt expected = some f) : f.tick = expected := by
  by_cases hcycles : s.cycles = 0
  · rw [dueAt, hshape.unstarted hcycles ha.closed] at h
    contradiction
  · have hlater := ha.later hcycles
    have := (hshape.slots _ f h).1
    omega

/-- Opening a cycle. -/
theorem Holding.opened_step (h : s.Holding) (hshape : s.Shape) {expected : ℕ}
    (ha : s.Admissible expected) : (s.opened expected).Holding := by
  have hbehind : ∀ held ∈ s.held, held.tick < expected := by
    intro held hheld
    by_cases hcycles : s.cycles = 0
    · rw [h.unheld hcycles] at hheld
      contradiction
    · exact (h.passed held hheld).trans_lt (ha.later hcycles)
  refine ⟨h.unheld, fun _ => rfl, h.finite, fun held hheld => (hbehind held hheld).le,
    fun _ => hbehind, fun _ c hc => ?_, fun i f hf => h.parked _ f hf⟩
  obtain ⟨hdue, hnormal⟩ := Option.filter_eq_some_iff.mp (show _ = some c from hc)
  have htick := tick_of_dueAt hshape ha hdue
  exact ⟨by simpa using hnormal, h.parked _ c hdue, htick.le, fun held hheld => htick ▸ hbehind held hheld⟩

/-- Absorbing a frame. -/
theorem Holding.absorb_step (h : s.Holding) (hopen : s.isOpen = true) (f : Frame) :
    (s.absorb f (s.classify f)).Holding := by
  refine ⟨h.unheld, h.unset, h.finite, h.passed, h.behind, fun _ c hc => ?_, fun i g hg => ?_⟩
  · simp only [absorb] at hc
    split at hc
    · rename_i hcompetes
      obtain ⟨hnormal, hcurrent⟩ : f.terminal = false ∧ s.classify f = .current := by
        simpa [competes] using hcompetes
      rcases RunningMax.mem_pick hc with rfl | hbefore
      · obtain ⟨-, hfinite, htick, hnewer⟩ := classify_current hcurrent
        exact ⟨hnormal, hfinite, htick, hnewer hnormal⟩
      · exact h.candidate hopen c hbefore
    · exact h.candidate hopen c hc
  · simp only [absorb] at hg
    split at hg
    · rename_i hfuture
      by_cases hi : i = f.tick - s.expected - 1
      · subst hi
        rw [Function.update_self] at hg
        obtain rfl := Option.some.inj hg
        exact nonfinite_of_future hfuture
      · rw [Function.update_of_ne hi] at hg
        exact h.parked i g hg
    · exact h.parked i g hg

/-- The sample of a cycle is finite, due, and newer than the one held before. -/
theorem Holding.fresh (h : s.Holding) (hopen : s.isOpen = true) {x : Sample} (hx : s.freshSample = some x) :
    x.finite = true ∧ x.tick ≤ s.expected ∧ ∀ held ∈ s.held, held.tick < x.tick := by
  obtain ⟨c, hc, rfl⟩ := Option.map_eq_some_iff.mp hx
  obtain ⟨hcandidate, hvalid⟩ := Option.filter_eq_some_iff.mp hc
  obtain ⟨hnormal, hfinite, htick, hnewer⟩ := h.candidate hopen c hcandidate
  exact ⟨finite_of_valid hnormal hfinite hvalid, htick, hnewer⟩

/-- Closing a cycle. -/
theorem Holding.closed_step (h : s.Holding) (hopen : s.isOpen = true) : s.closed.Holding := by
  have hheld : ∀ x ∈ s.closed.held, x.finite = true ∧ x.tick ≤ s.expected := by
    intro x hx
    cases hfresh : s.freshSample with
    | some y =>
      have hy : s.closed.held = some y := by simp [closed, hfresh]
      obtain rfl := Option.some.inj (hx.symm.trans hy)
      exact ⟨(h.fresh hopen hfresh).1, (h.fresh hopen hfresh).2.1⟩
    | none =>
      have hx : x ∈ s.held := by simpa [closed, hfresh] using hx
      exact ⟨h.finite x hx, h.passed x hx⟩
  exact ⟨fun hzero => absurd hzero (Nat.succ_ne_zero s.cycles), fun hclosed => by simp [closed] at hclosed,
    fun x hx => (hheld x hx).1, fun x hx => (hheld x hx).2, fun hclosed => by simp [closed] at hclosed,
    fun hclosed => by simp [closed] at hclosed, h.parked⟩

/-- What every reachable state holds. -/
theorem Reachable.holding (h : s.Reachable) : s.Holding := by
  refine h.rule (fun b k w => ?_) fun s s' hshape hs hstep => ?_
  · exact ⟨fun _ => rfl, fun _ => rfl, by simp [initial], by simp [initial], by simp [initial],
      by simp [initial], by simp [initial]⟩
  · cases hstep with
    | idle => exact hs
    | fault => exact ⟨hs.unheld, hs.unset, hs.finite, hs.passed, hs.behind, hs.candidate, hs.parked⟩
    | opened ha => exact hs.opened_step hshape ha
    | malformed e ha =>
      exact ⟨hs.unheld, hs.unset, hs.finite, hs.passed, hs.behind, hs.candidate, hs.parked⟩
    | absorbed f ha =>
      have hcounted : s.countRx.Holding :=
        ⟨hs.unheld, hs.unset, hs.finite, hs.passed, hs.behind, hs.candidate, hs.parked⟩
      exact hcounted.absorb_step ha.isOpen f
    | closed hopen => exact hs.closed_step hopen

/-! ## The sample of a cycle -/

/-- The candidate of a cycle is the running maximum of its competitors, and every competitor but
the candidate is superseded. -/
structure Selecting (s t : Admission) (log : Log) : Prop where
  candidate : t.candidateFrame = (competitors log).foldl (RunningMax.pick Frame.tick) s.candidateFrame
  superseded : t.cycle.counts.superseded + t.candidateFrame.isSome.toNat =
    s.cycle.counts.superseded + s.candidateFrame.isSome.toNat + (competitors log).length

/-- A competitor supersedes, or is superseded by, the candidate before it. -/
theorem superseded_absorb (s : Admission) (f : Frame) (kind : SensorClass) :
    (s.absorb f kind).cycle.counts.superseded =
      s.cycle.counts.superseded + (competes f kind && s.candidateFrame.isSome).toNat := by
  simp only [absorb, competes]
  cases f.terminal <;> cases kind <;> simp [normalCounts]

/-- The competitors after one more entry. -/
theorem competitors_concat (log : Log) (f : Frame) (kind : SensorClass) :
    competitors (log ++ [(f, kind)]) = competitors log ++ if competes f kind then [f] else [] := by
  by_cases hcompetes : competes f kind = true <;>
    simp [competitors, List.filter_append, hcompetes]

/-- The candidate of the whole cycle. -/
theorem selecting_run (hreach : s.Reachable) (hopen : s.isOpen = true) {body : List Call}
    (hbody : ∀ c ∈ body, c.inside = true) :
    Selecting s (Machine.run call s body).1 (logOf body (Machine.run call s body).2) := by
  refine (cycle_rule (P := fun t _ log => Selecting s t log) hreach hopen ⟨rfl, rfl⟩ ?_ hbody).1
  intro t t' _ log c entry _ _ h hinside
  cases hinside with
  | fault _ => simpa using ⟨h.candidate, h.superseded⟩
  | @malformed _ e _ _ =>
    rw [List.append_nil]
    refine ⟨h.candidate, ?_⟩
    cases e <;> exact h.superseded
  | @absorbed _ f _ _ =>
    generalize t.countRx.classify f = kind
    have hcandidate : (t.countRx.absorb f kind).candidateFrame =
        if competes f kind then RunningMax.pick Frame.tick t.candidateFrame f else t.candidateFrame := rfl
    have hcounts : (t.countRx.absorb f kind).cycle.counts.superseded =
        t.cycle.counts.superseded + (competes f kind && t.candidateFrame.isSome).toNat :=
      t.countRx.superseded_absorb f kind
    have hsuperseded := h.superseded
    refine ⟨?_, ?_⟩
    · rw [hcandidate, competitors_concat, List.foldl_append, ← h.candidate]
      split <;> rfl
    · rw [hcandidate, hcounts, competitors_concat, List.length_append]
      cases competes f kind with
      | false => simpa using hsuperseded
      | true =>
        simp only [Bool.true_and, if_true, RunningMax.pick_isSome, Bool.toNat_true, List.length_singleton]
        omega

/-- `begin_cycle` returns true exactly when it accepts the tick. -/
theorem admissible_of_began (hshape : s.Shape) {expected : ℕ} (h : (s.beginCycle expected).2 = true) :
    s.Admissible expected ∧ (s.beginCycle expected).1 = s.opened expected := by
  by_cases ha : s.Admissible expected
  · rw [beginCycle_of_admissible hshape.slots hshape.unstarted ha]
    exact ⟨ha, rfl⟩
  · rw [beginCycle_of_refused ha] at h
    contradiction

/-- An opened cycle is reachable. -/
theorem Reachable.opened (h : s.Reachable) {expected : ℕ} (ha : s.Admissible expected) :
    (s.opened expected).Reachable := by
  have hnext := h.run [.beginCycle expected]
  rwa [Machine.run_cons, Machine.run_nil, call,
    beginCycle_of_admissible h.shape.slots h.shape.unstarted ha] at hnext

/-- The frame of a kind parked for a tick, if there is one. -/
def parkedFor (s : Admission) (expected : ℕ) (kind : Frame → Bool) : List Frame :=
  s.parked.filter fun f => kind f && f.tick == expected

/-- The frame parked for the tick of a cycle is the one that comes due in it. -/
theorem parkedFor_eq (hshape : s.Shape) {expected : ℕ} (ha : s.Admissible expected)
    (kind : Frame → Bool) : s.parkedFor expected kind = ((s.dueAt expected).filter kind).toList := by
  have hbefore : ∀ f ∈ s.skipped expected, f.tick ≠ expected := by
    intro f hf
    obtain ⟨i, hi, hslot⟩ := SlotWindow.mem_entries.mp hf
    have := (hshape.slots i f hslot).1
    omega
  have hafter : ∀ f ∈ (s.opened expected).parked, f.tick ≠ expected := by
    intro f hf
    obtain ⟨i, -, hslot⟩ := mem_parked.mp hf
    have htick := ((hshape.opened_step ha).slots i f hslot).1
    have hexpected : (s.opened expected).expected = expected := rfl
    omega
  have hnone {frames : List Frame} (h : ∀ f ∈ frames, f.tick ≠ expected) :
      (frames.filter fun f => kind f && f.tick == expected) = [] :=
    List.filter_eq_nil_iff.mpr fun f hf => by simp [h f hf]
  rw [parkedFor, parked_opened hshape ha, List.filter_append, List.filter_append, hnone hbefore,
    hnone hafter, List.nil_append, List.append_nil]
  cases hdue : s.dueAt expected with
  | none => rfl
  | some f =>
    have htick := tick_of_dueAt hshape ha hdue
    cases hkind : kind f <;> simp [Option.filter, hkind, htick]

/-- A frame that does not announce the end of the run. -/
def normal (f : Frame) : Bool := !f.terminal

/-- The candidate at the end of a cycle, among the frame parked for it and those it received. -/
theorem candidate_of_cycle (hreach : s.Reachable) {expected : ℕ} (ha : s.Admissible expected)
    {body : List Call} (hbody : ∀ c ∈ body, c.inside = true) {r : Admission × List Answer}
    (hr : Machine.run call (s.opened expected) body = r) {frames : List Frame}
    (hframes : s.parkedFor expected normal ++ competitors (logOf body r.2) = frames) :
    r.1.candidateFrame = frames.argmax Frame.tick ∧ r.1.cycle.counts.superseded = frames.length - 1 := by
  have hselecting := selecting_run (hreach.opened ha) rfl hbody
  rw [hr] at hselecting
  have hopened : (s.opened expected).candidateFrame.toList = s.parkedFor expected normal :=
    (parkedFor_eq hreach.shape ha normal).symm
  have hzero : (s.opened expected).cycle.counts.superseded = 0 := rfl
  have hsome : (s.opened expected).candidateFrame.isSome.toNat =
      (s.parkedFor expected normal).length := by
    rw [← hopened]
    cases (s.opened expected).candidateFrame <;> rfl
  have hcandidate : r.1.candidateFrame = frames.argmax Frame.tick := by
    rw [hselecting.candidate, RunningMax.foldl_pick, hopened, hframes]
  have hsuperseded := hselecting.superseded
  rw [hzero, hsome, Nat.zero_add, ← List.length_append, hframes] at hsuperseded
  refine ⟨hcandidate, ?_⟩
  cases hbest : r.1.candidateFrame with
  | none =>
    have hempty : frames = [] := List.argmax_eq_none.mp (hcandidate.symm.trans hbest)
    simp only [hbest, hempty, Option.isSome_none, Bool.toNat_false, List.length_nil] at hsuperseded ⊢
    omega
  | some c =>
    simp only [hbest, Option.isSome_some, Bool.toNat_true] at hsuperseded
    omega

/-! ## The samples of a run -/

/-- The sample that a call consumes. -/
def freshOf (s : Admission) : Call → Option Sample
  | .finishCycle => if s.isOpen then s.finishCycle.cycle.fresh else none
  | _ => none

/-- The samples that a sequence of calls consumes, in order. -/
def freshSamples (s : Admission) : List Call → List Sample
  | [] => []
  | c :: rest => (s.freshOf c).toList ++ freshSamples (s.call c).1 rest

/-- The samples of one more call. -/
theorem freshSamples_concat (s : Admission) (calls : List Call) (c : Call) :
    freshSamples s (calls ++ [c]) =
      freshSamples s calls ++ ((Machine.run call s calls).1.freshOf c).toList := by
  induction calls generalizing s with
  | nil => simp [freshSamples]
  | cons first rest ih => simp [freshSamples, ih]

/-- A call changes the held sample only by consuming one, which is then newer. -/
theorem held_call (hreach : s.Reachable) (c : Call) :
    (s.call c).1.held = (s.freshOf c).or s.held ∧
      ∀ x ∈ s.freshOf c, x.finite = true ∧ ∀ h ∈ s.held, h.tick < x.tick := by
  cases hopen : s.isOpen with
  | false =>
    have hnone : s.freshOf c = none := by cases c <;> simp [freshOf, hopen]
    rw [hnone]
    refine ⟨?_, by simp⟩
    have hstep := call_step hreach.shape.slots hreach.shape.unstarted c
    generalize (s.call c).1 = s' at hstep
    cases hstep with
    | absorbed f ha => exact absurd (hopen.symm.trans ha.isOpen) (by simp)
    | closed h => exact absurd (hopen.symm.trans h) (by simp)
    | _ => rfl
  | true =>
    cases hc : c.inside with
    | true =>
      have hnone : s.freshOf c = none := by cases c <;> simp_all [freshOf, Call.inside]
      have hinside := call_inside hopen hc
      rw [hnone, ((SameCycle.refl s).trans_inside hinside).held]
      exact ⟨rfl, by simp⟩
    | false =>
      have hfinish : c = .finishCycle := by cases c <;> simp_all [Call.inside]
      subst hfinish
      have hfresh : s.freshOf .finishCycle = s.freshSample := by
        simp [freshOf, hopen, finishCycle_of_open hopen, closed, hreach.holding.unset hopen]
      rw [hfresh, call, finishCycle_of_open hopen]
      exact ⟨rfl, fun x hx => ⟨(hreach.holding.fresh hopen hx).1, (hreach.holding.fresh hopen hx).2.2⟩⟩

/-- Over a run the consumed ticks strictly increase, the consumed samples are finite, and the
last of them is held. -/
theorem freshSamples_run (tickBase skewMax warmup : ℕ) (calls : List Call) :
    (freshSamples (initial tickBase skewMax warmup) calls).Pairwise (fun x y => x.tick < y.tick) ∧
      (∀ x ∈ freshSamples (initial tickBase skewMax warmup) calls, x.finite = true ∧
        ∃ h ∈ (after tickBase skewMax warmup calls).held, x.tick ≤ h.tick) ∧
      (after tickBase skewMax warmup calls).held =
        (freshSamples (initial tickBase skewMax warmup) calls).getLast? := by
  induction calls using List.reverseRecOn with
  | nil => simp [freshSamples, after, initial]
  | append_singleton calls c ih =>
    have hreach : (after tickBase skewMax warmup calls).Reachable := ⟨_, _, _, calls, rfl⟩
    obtain ⟨hheld, hnew⟩ := held_call hreach c
    have hnext : after tickBase skewMax warmup (calls ++ [c]) =
        ((after tickBase skewMax warmup calls).call c).1 := by rw [after, run_concat, after]
    have hsamples : freshSamples (initial tickBase skewMax warmup) (calls ++ [c]) =
        freshSamples (initial tickBase skewMax warmup) calls ++
          ((after tickBase skewMax warmup calls).freshOf c).toList := freshSamples_concat _ calls c
    rw [hsamples, hnext, hheld]
    generalize freshSamples (initial tickBase skewMax warmup) calls = samples at ih
    generalize (after tickBase skewMax warmup calls).held = held at ih hnew
    obtain ⟨hsorted, hfinite, hlast⟩ := ih
    cases hfresh : (after tickBase skewMax warmup calls).freshOf c with
    | none => simpa using ⟨hsorted, hfinite, hlast⟩
    | some x =>
      obtain ⟨hx, hnewer⟩ := hnew x hfresh
      have holder : ∀ y ∈ samples, y.tick < x.tick := by
        intro y hy
        obtain ⟨h, hh, hle⟩ := (hfinite y hy).2
        exact hle.trans_lt (hnewer h hh)
      refine ⟨?_, ?_, by simp⟩
      · rw [Option.toList_some, List.pairwise_append]
        exact ⟨hsorted, List.pairwise_singleton .., by simpa using holder⟩
      · intro y hy
        rw [Option.toList_some, List.mem_append, List.mem_singleton] at hy
        rcases hy with hy | rfl
        · exact ⟨(hfinite y hy).1, x, rfl, (holder y hy).le⟩
        · exact ⟨hx, y, rfl, le_rfl⟩

/-- The state after one more whole cycle. -/
theorem after_cycle (tickBase skewMax warmup : ℕ) (calls body : List Call) (expected : ℕ) :
    after tickBase skewMax warmup (calls ++ .beginCycle expected :: body ++ [.finishCycle]) =
      (Machine.run call ((after tickBase skewMax warmup calls).beginCycle expected).1 body).1.finishCycle := by
  rw [after, run_concat, Machine.run_append, Machine.run_cons]
  rfl

/-- The counts of a cycle count its own sample only. -/
theorem closed_cycle (h : s.Holding) (hopen : s.isOpen = true) :
    s.closed.cycle.fresh = s.freshSample ∧
      s.closed.cycle.staleness = min (s.closed.held.elim s.closed.cycles fun h => s.expected - h.tick)
        (2 ^ 32 - 1) := by
  refine ⟨by simp [closed, h.unset hopen], ?_⟩
  simp only [closed, age]
  cases s.freshSample.or s.held <;> rfl

end Admission

open Admission

/-- The selection law: in every cycle the first competitor of greatest tick decides the sample,
and over the run the consumed samples are finite with strictly increasing ticks. The staleness
is the age of the held sample, or the number of cycles while nothing is held, cut off at the
greatest 32-bit value. -/
theorem admission_selects (tickBase skewMax warmup : ℕ) (calls body : List Call) (expected : ℕ)
    (hbegin : ((after tickBase skewMax warmup calls).beginCycle expected).2 = true)
    (hbody : ∀ c ∈ body, c.inside = true) :
    let s := after tickBase skewMax warmup calls
    let r := Machine.run call (s.beginCycle expected).1 body
    let t := r.1.finishCycle
    let frames := s.parkedFor expected normal ++ competitors (logOf body r.2)
    let samples := freshSamples (initial tickBase skewMax warmup)
      (calls ++ .beginCycle expected :: body ++ [.finishCycle])
    (frames = [] → t.cycle.fresh = none ∧ t.cycle.counts.superseded = 0 ∧
        t.cycle.counts.consumed = 0 ∧ t.cycle.counts.invalid = 0) ∧
      (∀ g, frames.argmax Frame.tick = some g →
        t.cycle.fresh = (if g.valid then some g.sample else none) ∧
          t.cycle.counts.superseded = frames.length - 1 ∧
          t.cycle.counts.consumed = g.valid.toNat ∧ t.cycle.counts.invalid = (!g.valid).toNat) ∧
      t.episode = s.episode.add t.cycle.counts ∧
      samples.Pairwise (fun x y => x.tick < y.tick) ∧ (∀ x ∈ samples, x.finite = true) ∧
      t.held = samples.getLast? ∧ (∀ h ∈ t.held, h.finite = true ∧ h.tick ≤ t.expected) ∧
      t.cycle.staleness = min (t.held.elim t.cycles fun h => t.expected - h.tick) (2 ^ 32 - 1) := by
  intro s r t frames samples
  have hreach : s.Reachable := ⟨_, _, _, calls, rfl⟩
  obtain ⟨ha, hopened⟩ := admissible_of_began hreach.shape hbegin
  have hr : Machine.run call (s.opened expected) body = r := by rw [← hopened]
  have hsame : SameCycle (s.opened expected) r.1 := hr ▸ sameCycle_run (hreach.opened ha) rfl hbody
  have hopen : r.1.isOpen = true := hsame.isOpen
  obtain ⟨hcandidate, hsuperseded⟩ := candidate_of_cycle hreach ha hbody hr (rfl : _ = frames)
  have ht : t = r.1.closed := finishCycle_of_open hopen
  have hrreach : r.1.Reachable := hr ▸ (hreach.opened ha).run body
  obtain ⟨hfresh, hstale⟩ := closed_cycle hrreach.holding hopen
  have hafter : after tickBase skewMax warmup (calls ++ .beginCycle expected :: body ++ [.finishCycle]) =
      t := after_cycle ..
  have hconsumed : r.1.cycle.counts.consumed = 0 := hsame.consumed
  have hinvalid : r.1.cycle.counts.invalid = 0 := hsame.invalid
  obtain ⟨hsorted, hfinite, hlast⟩ := freshSamples_run tickBase skewMax warmup
    (calls ++ .beginCycle expected :: body ++ [.finishCycle])
  rw [hafter] at hlast
  have hholding : t.Holding := by
    rw [← hafter]
    exact Reachable.holding ⟨_, _, _, _, rfl⟩
  refine ⟨fun hempty => ?_, fun g hg => ?_, ?_, hsorted, fun x hx => (hfinite x hx).1, hlast,
    fun h hh => ⟨hholding.finite h hh, hholding.passed h hh⟩, ?_⟩
  · have hnone : r.1.candidateFrame = none := by rw [hcandidate, hempty, List.argmax_nil]
    rw [ht, hfresh]
    simp [closed, closedCounts, freshSample, hnone, hsuperseded, hempty, hconsumed, hinvalid]
  · have hsome : r.1.candidateFrame = some g := hcandidate.trans hg
    rw [ht, hfresh]
    cases hvalid : g.valid <;>
      simp [closed, closedCounts, freshSample, hsome, hvalid, Option.filter, hsuperseded, hconsumed,
        hinvalid]
  · rw [ht]
    simp only [closed]
    rw [hsame.episode]
    rfl
  · rw [ht]
    exact hstale

/-- The law for a cycle in which an older frame follows a newer one. -/
theorem admission_selects_newer :
    let newer := Frame.ofFields ⟨1, 0, ⟨0⟩, ⟨0⟩, 1, 0, 0⟩
    let older := Frame.ofFields ⟨0, 0, ⟨0⟩, ⟨0⟩, 1, 0, 0⟩
    let calls : List Call := [.beginCycle 0, .finishCycle]
    let body : List Call := [.receive (.ofFrame 0 newer), .receive (.ofFrame 1 older)]
    let s := after 0 4 0 calls
    let r := Machine.run call (s.beginCycle 1).1 body
    r.1.finishCycle.cycle.fresh = some newer.sample ∧ r.1.finishCycle.cycle.counts.superseded = 1 := by
  intro newer older calls body s r
  have h := (admission_selects 0 4 0 calls body 1 (by decide +kernel) (by decide +kernel)).2.1 newer
    (by decide +kernel)
  exact ⟨h.1.trans (if_pos (by decide +kernel)), h.2.1.trans (by decide +kernel)⟩

/-- Cycles in which nothing is received. -/
def idleCalls (n : ℕ) : List Call := (List.range n).flatMap fun i => [.beginCycle i, .finishCycle]

/-- What idle cycles leave. -/
structure Idle (n : ℕ) (s : Admission) : Prop where
  cycles : s.cycles = n
  expected : s.expected = n - 1
  tickBase : s.tickBase = 0
  valid : s.valid = true
  closed : s.isOpen = false
  held : s.held = none
  future : s.future = fun _ => none
  staleness : s.cycle.staleness = min n (2 ^ 32 - 1)

/-- Idle cycles hold nothing, and their staleness is cut off. -/
theorem idleCalls_run (n : ℕ) : Idle n (after 0 4 0 (idleCalls n)) := by
  induction n with
  | zero => exact ⟨rfl, rfl, rfl, rfl, rfl, rfl, rfl, rfl⟩
  | succ n ih =>
    have hcalls : idleCalls (n + 1) = idleCalls n ++ .beginCycle n :: [] ++ [.finishCycle] := by
      simp [idleCalls, List.range_succ]
    have hreach : (after 0 4 0 (idleCalls n)).Reachable := ⟨_, _, _, _, rfl⟩
    rw [hcalls, after_cycle, Machine.run_nil]
    generalize after 0 4 0 (idleCalls n) = s at ih hreach
    have ha : s.Admissible n := by
      refine ⟨ih.valid, ih.closed, fun hzero => ?_, fun hlater => ?_⟩
      · rw [ih.tickBase, ← ih.cycles, hzero]
      · have := ih.cycles
        have := ih.expected
        omega
    have hfresh : (s.opened n).freshSample = none := by
      simp [freshSample, opened, dueAt, ih.future]
    rw [beginCycle_of_admissible hreach.shape.slots hreach.shape.unstarted ha,
      finishCycle_of_open rfl]
    refine ⟨congrArg (· + 1) ih.cycles, rfl, ih.tickBase, ih.valid, rfl, ?_, ?_, ?_⟩
    · simp only [closed, hfresh, Option.none_or]
      exact ih.held
    · funext j
      exact congrFun ih.future (j + (n - s.expected))
    · have hheld : (s.opened n).held = none := ih.held
      have hcycles : (s.opened n).cycles = n := ih.cycles
      simp only [closed, hfresh, Option.none_or, age, hheld, hcycles]
      rfl

/-- After more cycles than a 32-bit word counts, with nothing ever held, the staleness is not
the number of cycles. -/
theorem staleness_saturates_unheld :
    let s := after 0 4 0 (idleCalls (2 ^ 32))
    s.isOpen = false ∧ s.held = none ∧ s.cycles = 2 ^ 32 ∧ s.cycle.staleness ≠ s.cycles := by
  have h := idleCalls_run (2 ^ 32)
  refine ⟨h.closed, h.held, h.cycles, ?_⟩
  rw [h.cycles, h.staleness]
  norm_num

end Tvc.Freerun
