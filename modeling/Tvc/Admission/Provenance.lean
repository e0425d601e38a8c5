import Tvc.Freerun.Cycles

/-!
# Where the frames of the admission come from

The admission invents nothing. Whatever holds of the frames of all datagrams it was handed holds of the frames it
parks, of the candidates, of the latched terminal and of the frame of the held sample.
-/

namespace Tvc.Freerun.Admission

variable {P Q : Frame → Prop} {s t : Admission}

/-- Every frame that is kept, and that of every sample and terminal that is kept, has the property. -/
structure From (P : Frame → Prop) (s : Admission) : Prop where
  future : ∀ i, ∀ f ∈ s.future i, P f
  candidate : ∀ f ∈ s.candidateFrame, P f ∧ f.terminal = false
  held : ∀ x ∈ s.held, ∃ f, P f ∧ f.terminal = false ∧ f.valid = true ∧ f.sample = x
  terminalCandidate : ∀ f ∈ s.terminalCandidate, P f ∧ f.terminal = true
  latch : ∀ f ∈ s.terminalLatch, P f ∧ f.terminal = true
  terminal : ∀ t ∈ s.cycle.terminal, ∃ f, P f ∧ f.terminal = true ∧ f.toTerminal = t

/-- A new admission keeps nothing. -/
theorem from_initial (P : Frame → Prop) (tickBase skewMax warmup : ℕ) : From P (initial tickBase skewMax warmup) where
  future _ := nofun
  candidate := nofun
  held := nofun
  terminalCandidate := nofun
  latch := nofun
  terminal := nofun

/-- A weaker property. -/
theorem From.mono (h : From P s) (hPQ : ∀ f, P f → Q f) : From Q s where
  future i f hf := hPQ f (h.future i f hf)
  candidate f hf := (h.candidate f hf).imp_left (hPQ f)
  held x hx := by
    obtain ⟨f, hf, hrest⟩ := h.held x hx
    exact ⟨f, hPQ f hf, hrest⟩
  terminalCandidate f hf := (h.terminalCandidate f hf).imp_left (hPQ f)
  latch f hf := (h.latch f hf).imp_left (hPQ f)
  terminal t ht := by
    obtain ⟨f, hf, hrest⟩ := h.terminal t ht
    exact ⟨f, hPQ f hf, hrest⟩

/-- The latest of two frames is one of them. -/
theorem pick_mem {held : Option Frame} {f g : Frame} (hg : g ∈ RunningMax.pick Frame.tick held f) : g = f ∨ g ∈ held := by
  cases held with
  | none => exact .inl (Option.some.inj hg).symm
  | some h =>
    unfold RunningMax.pick at hg
    dsimp only at hg
    split at hg
    · exact .inl (Option.some.inj hg).symm
    · exact .inr hg

/-- Opening a cycle keeps no other frames. -/
theorem From.opened (h : From P s) (expected : ℕ) : From P (s.opened expected) where
  future i f hf := h.future _ f hf
  candidate f hf := by
    obtain ⟨hdue, hnormal⟩ := Option.filter_eq_some_iff.mp hf
    exact ⟨h.future _ f hdue, by simpa using hnormal⟩
  held := h.held
  terminalCandidate f hf := by
    simp only [Admission.opened] at hf
    split at hf
    · obtain ⟨hdue, hterminal⟩ := Option.filter_eq_some_iff.mp hf
      exact ⟨h.future _ f hdue, hterminal⟩
    · exact absurd hf (by simp)
  latch := h.latch
  terminal t ht := absurd ht (by simp [Admission.opened])

/-- Absorbing a frame keeps that frame at most. -/
theorem From.absorb (h : From P s) {f : Frame} (hf : P f) (kind : SensorClass) : From P (s.absorb f kind) where
  future i g hg := by
    simp only [Admission.absorb] at hg
    split at hg
    · rw [Function.update_apply] at hg
      split at hg
      · exact Option.some.inj hg ▸ hf
      · exact h.future i g hg
    · exact h.future i g hg
  candidate g hg := by
    simp only [Admission.absorb] at hg
    split at hg
    · rename_i hcompetes
      rcases pick_mem hg with rfl | hg
      · exact ⟨hf, by simpa using (Bool.and_eq_true_iff.mp hcompetes).1⟩
      · exact h.candidate g hg
    · exact h.candidate g hg
  held := h.held
  terminalCandidate g hg := by
    simp only [Admission.absorb] at hg
    split at hg
    · rename_i hdue
      rcases pick_mem hg with rfl | hg
      · simp only [dueTerminal, Bool.and_eq_true] at hdue
        exact ⟨hf, hdue.1.1.1⟩
      · exact h.terminalCandidate g hg
    · exact h.terminalCandidate g hg
  latch := h.latch
  terminal := h.terminal

/-- Closing a cycle keeps no other frames. -/
theorem From.closed (h : From P s) : From P s.closed where
  future := h.future
  candidate := h.candidate
  held x hx := by
    rcases Option.or_eq_some_iff.mp hx with hfresh | ⟨-, hheld⟩
    · obtain ⟨f, hvalid, rfl⟩ := Option.map_eq_some_iff.mp hfresh
      obtain ⟨hcandidate, hvalid⟩ := Option.filter_eq_some_iff.mp hvalid
      obtain ⟨hf, hnormal⟩ := h.candidate f hcandidate
      exact ⟨f, hf, hnormal, hvalid, rfl⟩
    · exact h.held x hheld
  terminalCandidate := h.terminalCandidate
  latch f hf := by
    rcases Option.or_eq_some_iff.mp hf with hf | ⟨-, hf⟩
    · exact h.latch f hf
    · exact h.terminalCandidate f hf
  terminal t ht := by
    obtain ⟨f, hf, rfl⟩ := Option.map_eq_some_iff.mp ht
    rcases Option.or_eq_some_iff.mp hf with hf | ⟨-, hf⟩
    · exact ⟨f, (h.latch f hf).1, (h.latch f hf).2, rfl⟩
    · exact ⟨f, (h.terminalCandidate f hf).1, (h.terminalCandidate f hf).2, rfl⟩

/-- The frame of a datagram has the property. -/
def Bears (P : Frame → Prop) (d : Datagram) : Prop := ∀ f, d.frame = .ok f → P f

/-- A datagram inside a cycle. -/
theorem From.inside {c : Call} {entry : Log} (h : From P s) (hinside : s.Inside c t entry)
    (hbears : ∀ d, c = .receive d → Bears P d) : From P t := by
  cases hinside with
  | fault => exact ⟨h.future, h.candidate, h.held, h.terminalCandidate, h.latch, h.terminal⟩
  | malformed => exact ⟨h.future, h.candidate, h.held, h.terminalCandidate, h.latch, h.terminal⟩
  | absorbed hd =>
    have hcounted : From P s.countRx := ⟨h.future, h.candidate, h.held, h.terminalCandidate, h.latch, h.terminal⟩
    exact hcounted.absorb (hbears _ rfl _ hd) _

/-- A scheduled cycle keeps frames of what was kept and of its datagrams. -/
theorem From.cycle {tickBase n : ℕ} (h : From P s) (hbetween : Between tickBase n s) {datagrams : List Datagram}
    (hbears : ∀ d ∈ datagrams, Bears P d) : From P (Machine.run call s (cycleCalls (tickBase + n) datagrams)).1 := by
  obtain ⟨hclosed, -, -, -⟩ := hbetween.closes datagrams
  have hreach := hbetween.reachable.opened hbetween.admissible
  rw [hclosed]
  refine From.closed ?_
  have hrule := cycle_rule (P := fun t calls _ => (∀ d, .receive d ∈ calls → Bears P d) → From P t) hreach rfl
    (fun _ => h.opened _)
    (fun t t' calls log c entry _ _ ht hinside hall =>
      (ht fun d hd => hall d (List.mem_append_left _ hd)).inside hinside fun d hd => hall d (by rw [hd]; simp))
    (inside_receive datagrams)
  refine hrule.1 fun d hd => hbears d ?_
  obtain ⟨d', hd', heq⟩ := List.mem_map.mp hd
  exact Call.receive.inj heq ▸ hd'

end Tvc.Freerun.Admission
