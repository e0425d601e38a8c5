import Tvc.Admission.Cycle

/-!
# What an admission without a fault has not met

The integrity fault is raised in the calls that count a refused datagram, a conflict or an illegal terminal
reason, and stays. So an admission that carries no fault has counted none of them, in any of its books, and
every terminal it offers has a legal reason.
-/

namespace Tvc.Freerun

/-- No refused datagram and no conflict was counted. -/
def AdmissionCounts.Clean (c : AdmissionCounts) : Prop :=
  c.conflict = 0 ∧ c.badSync = 0 ∧ c.badVersion = 0 ∧ c.badType = 0 ∧ c.badLength = 0 ∧ c.badCrc = 0

/-- Books that are clean are clean together. -/
theorem AdmissionCounts.Clean.add {a b : AdmissionCounts} (ha : a.Clean) (hb : b.Clean) : (a.add b).Clean := by
  obtain ⟨h, h₁, h₂, h₃, h₄, h₅⟩ := ha
  obtain ⟨h', h₁', h₂', h₃', h₄', h₅'⟩ := hb
  simp [Clean, AdmissionCounts.add, *]

namespace Admission

variable {s : Admission}

/-- A terminal reason between 1 and 3. -/
def LegalReason (reason : U32) : Prop := 1 ≤ reason.toNat ∧ reason.toNat ≤ 3

/-- What an admission without a fault keeps. -/
structure Faultless (s : Admission) : Prop where
  cycle : s.cycle.counts.Clean
  episode : s.episode.Clean
  recorded : s.recorded.Clean
  conflict : s.terminalCounts.conflict = 0
  illegal : s.terminalCounts.illegalReason = 0
  candidate : ∀ f ∈ s.terminalCandidate, f.illegalReason = false
  latch : ∀ f ∈ s.terminalLatch, f.illegalReason = false
  terminal : ∀ t ∈ s.cycle.terminal, LegalReason t.reason

/-- A frame that is not illegal announces a legal reason. -/
theorem legal_of_frame {f : Frame} (h : f.illegalReason = false) : LegalReason f.toTerminal.reason := by
  simp only [Frame.illegalReason, Bool.or_eq_false_iff, decide_eq_false_iff_not, not_lt] at h
  exact h

/-- The latest of two frames is one of them. -/
theorem legal_pick {held : Option Frame} {f : Frame} (hheld : ∀ g ∈ held, g.illegalReason = false)
    (hf : f.illegalReason = false) : ∀ g ∈ RunningMax.pick Frame.tick held f, g.illegalReason = false := by
  intro g hg
  cases held with
  | none =>
    obtain rfl : f = g := Option.some.inj hg
    exact hf
  | some h =>
    unfold RunningMax.pick at hg
    dsimp only at hg
    split at hg
    · obtain rfl := Option.some.inj hg
      exact hf
    · obtain rfl := Option.some.inj hg
      exact hheld _ rfl

/-- Absorbing a frame without a fault. -/
theorem Faultless.absorb (h : s.Faultless) {f : Frame} {kind : SensorClass}
    (hsound : (s.absorb f kind).integrity = false) : (s.absorb f kind).Faultless := by
  simp only [Admission.absorb, Bool.or_eq_false_iff, decide_eq_false_iff_not] at hsound
  obtain ⟨⟨⟨⟨-, hconflict⟩, -⟩, hillegal⟩, -⟩ := hsound
  refine ⟨?_, h.episode, h.recorded, ?_, ?_, ?_, h.latch, h.terminal⟩
  · cases hterminal : f.terminal with
    | true => simpa [Admission.absorb, hterminal] using h.cycle
    | false =>
      simp only [Admission.absorb, hterminal, Bool.false_eq_true, if_false]
      cases kind <;> first | exact h.cycle | exact absurd rfl hconflict
  · cases hterminal : f.terminal with
    | true =>
      simp only [Admission.absorb, hterminal, if_true]
      cases kind <;> first | exact h.conflict | exact absurd rfl hconflict
    | false => simpa [Admission.absorb, hterminal] using h.conflict
  · cases hterminal : f.terminal with
    | true =>
      simp only [Admission.absorb, hterminal, if_true, hillegal]
      cases kind <;> exact h.illegal
    | false => simpa [Admission.absorb, hterminal] using h.illegal
  · cases hdue : dueTerminal s.expected f kind with
    | true =>
      rw [hdue, Bool.true_and] at hillegal
      cases hlatch : s.terminalLatch.isNone with
      | true => simpa [Admission.absorb, hdue, hlatch] using legal_pick h.candidate hillegal
      | false => simpa [Admission.absorb, hdue, hlatch] using h.candidate
    | false => simpa [Admission.absorb, hdue] using h.candidate

/-- Opening a cycle without a fault. -/
theorem Faultless.opened (h : s.Faultless) {expected : ℕ} (hsound : (s.opened expected).integrity = false) :
    (s.opened expected).Faultless := by
  have hdue : ((s.dueAt expected).any fun f => f.terminal && f.illegalReason) = false := by
    simp only [Admission.opened, Bool.or_eq_false_iff] at hsound
    exact hsound.2
  refine ⟨⟨rfl, rfl, rfl, rfl, rfl, rfl⟩, h.episode, h.recorded, h.conflict, ?_, fun f hf => ?_, h.latch,
    fun t ht => absurd ht (Option.not_mem_none t)⟩
  · simpa [Admission.opened, hdue] using h.illegal
  · simp only [Admission.opened] at hf
    split at hf
    · obtain ⟨hplace, hterminal⟩ := Option.filter_eq_some_iff.mp hf
      rw [hplace, Option.any_some, hterminal, Bool.true_and] at hdue
      exact hdue
    · exact absurd hf (Option.not_mem_none f)

/-- Closing a cycle. -/
theorem Faultless.closed (h : s.Faultless) : s.closed.Faultless := by
  have hlatch : ∀ f ∈ s.terminalLatch.or s.terminalCandidate, f.illegalReason = false := by
    intro f hf
    cases hheld : s.terminalLatch with
    | none => exact h.candidate f (by rwa [hheld] at hf)
    | some g => exact h.latch f (by rw [hheld] at hf ⊢; exact hf)
  have hclosed : s.closedCounts.Clean := h.cycle
  refine ⟨hclosed, h.episode.add hclosed, ?_, h.conflict, h.illegal, h.candidate, hlatch, fun t ht => ?_⟩
  · simp only [Admission.closed]
    split
    · exact h.recorded.add hclosed
    · exact h.recorded
  · obtain ⟨f, hf, rfl⟩ := Option.mem_map.mp ht
    exact legal_of_frame (hlatch f hf)

/-- Every reachable state without a fault has met none. -/
theorem Reachable.faultless (h : s.Reachable) : s.integrity = false → s.Faultless := by
  refine h.rule (P := fun s => s.integrity = false → s.Faultless) (fun b k w _ => ?_) fun s s' _ hs hstep hsound => ?_
  · exact ⟨⟨rfl, rfl, rfl, rfl, rfl, rfl⟩, ⟨rfl, rfl, rfl, rfl, rfl, rfl⟩, ⟨rfl, rfl, rfl, rfl, rfl, rfl⟩, rfl, rfl, nofun,
      nofun, nofun⟩
  · have hbefore : s.integrity = false := by
      by_contra hfault
      rw [integrity_step (Bool.eq_true_of_not_eq_false hfault) hstep] at hsound
      nomatch hsound
    have hkept := hs hbefore
    cases hstep with
    | idle => exact hkept
    | fault => nomatch hsound
    | opened => exact hkept.opened hsound
    | malformed => nomatch hsound
    | absorbed f =>
      have hcounted : s.countRx.Faultless := ⟨hkept.cycle, hkept.episode, hkept.recorded, hkept.conflict, hkept.illegal,
        hkept.candidate, hkept.latch, hkept.terminal⟩
      exact hcounted.absorb hsound
    | closed => exact hkept.closed

end Admission

end Tvc.Freerun
