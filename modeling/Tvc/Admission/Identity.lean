import Tvc.Admission.Selection

/-!
# Payload identity

A frame is compared with the first known frame of its tick. The newest received frame bounds
every known tick, and known frames of one tick carry one payload, so it does not matter which of
them is found first. Terminal frames are kept for the whole cycle; a normal frame is forgotten
once a frame of a later tick has been received, unless it is due or parked.
-/

namespace Tvc.Freerun

namespace Admission

variable {s : Admission}

/-! ## Known frames -/

/-- The newest frame bounds the known ticks, and a tick has one payload among the kept frames. -/
structure Known (s : Admission) : Prop where
  newest : ∀ f ∈ s.known true, ∃ n ∈ s.newestReceived, f.tick ≤ n.tick
  unique : ∀ f ∈ s.known false, ∀ g ∈ s.known false, f.tick = g.tick → f = g

/-- A kept frame is known to terminal frames as well. -/
theorem mem_known_true {f : Frame} (h : f ∈ s.known false) : f ∈ s.known true := by
  simp only [known, Bool.false_eq_true, if_false, List.append_nil] at h
  exact List.mem_append_left _ h

/-- The places a kept frame can be in. -/
theorem mem_kept {f : Frame} :
    f ∈ s.known false ↔ f ∈ s.newestReceived ∨ f ∈ s.due ∨ f ∈ s.parked ∨ f ∈ s.terminalCandidate ∨
      f ∈ s.terminalLatch ∨ f ∈ s.terminalSeen := by
  simp [known]

/-- A frame with a kept frame of its tick is compared with one of them. -/
theorem identity_of_kept {f g : Frame} (hg : g ∈ s.known false) (htick : g.tick = f.tick) :
    ∃ p ∈ s.known false, p.tick = f.tick ∧ s.identity f = some p := by
  have hsplit : s.known f.terminal = s.known false ++ if f.terminal then s.candidateFrame.toList else [] := by
    simp [known]
  cases hfind : (s.known false).find? fun p => p.tick == f.tick with
  | none =>
    have := List.find?_eq_none.mp hfind g hg
    simp [htick] at this
  | some p =>
    refine ⟨p, List.mem_of_find?_eq_some hfind, by simpa using List.find?_some hfind, ?_⟩
    rw [identity, hsplit, List.find?_append, hfind]
    rfl

/-- A frame that is not a conflict agrees with every kept frame of its tick. -/
theorem eq_of_not_conflict (hknown : s.Known) {f g : Frame} (hg : g ∈ s.known false)
    (htick : g.tick = f.tick) (hfinite : nonfinite f = false) (h : s.classify f ≠ .conflict) : g = f := by
  obtain ⟨p, hp, hptick, hidentity⟩ := identity_of_kept hg htick
  have hpayload : p.payload = f.payload := by
    by_contra hpayload
    exact h (by simp [classify, hfinite, hidentity, hpayload])
  rw [hknown.unique g hg p hp (htick.trans hptick.symm)]
  exact Frame.ext hpayload

/-- The candidate is all that only terminal frames are compared with. -/
theorem mem_known_true_iff {f : Frame} :
    f ∈ s.known true ↔ f ∈ s.known false ∨ f ∈ s.candidateFrame := by
  simp [known, or_assoc]

/-- The known frames after absorbing one. -/
theorem mem_known_absorb (hshape : s.Shape) (hopen : s.isOpen = true) {f g : Frame} {terminal : Bool}
    (hg : g ∈ (s.absorb f (s.classify f)).known terminal) : g = f ∨ g ∈ s.known terminal := by
  have hkept (hg : g ∈ (s.absorb f (s.classify f)).known false) : g = f ∨ g ∈ s.known false := by
    rw [mem_kept] at hg ⊢
    rcases hg with hnewest | hdue | hparked | hcandidate | hlatch | hseen
    · simp only [absorb] at hnewest
      split at hnewest
      · exact (RunningMax.mem_pick hnewest).imp_right .inl
      · exact .inr (.inl hnewest)
    · exact .inr (.inr (.inl hdue))
    · rw [parked_eq] at hparked ⊢
      simp only [absorb] at hparked
      split at hparked
      · rename_i hfuture
        obtain ⟨hfree, hin, hlimit, -⟩ := slot_of_future hshape hopen hfuture
        rcases (SlotWindow.mem_entries_update (by omega) hfree).mp hparked with rfl | hbefore
        · exact .inl rfl
        · exact .inr (.inr (.inr (.inl hbefore)))
      · exact .inr (.inr (.inr (.inl hparked)))
    · simp only [absorb] at hcandidate
      split at hcandidate
      · exact (RunningMax.mem_pick hcandidate).imp_right fun h => .inr (.inr (.inr (.inl h)))
      · exact .inr (.inr (.inr (.inr (.inl hcandidate))))
    · exact .inr (.inr (.inr (.inr (.inr (.inl hlatch)))))
    · simp only [absorb] at hseen
      split at hseen
      · rcases List.mem_append.mp hseen with hbefore | hnow
        · exact .inr (.inr (.inr (.inr (.inr (.inr hbefore)))))
        · exact .inl (List.mem_singleton.mp hnow)
      · exact .inr (.inr (.inr (.inr (.inr (.inr hseen)))))
  cases terminal with
  | false => exact hkept hg
  | true =>
    rw [mem_known_true_iff] at hg ⊢
    rcases hg with hg | hcandidate
    · exact (hkept hg).imp_right .inl
    · simp only [absorb] at hcandidate
      split at hcandidate
      · exact (RunningMax.mem_pick hcandidate).imp_right .inr
      · exact .inr (.inr hcandidate)

/-- A conflict leaves the known frames. -/
theorem known_absorb_conflict (s : Admission) (f : Frame) (terminal : Bool) :
    (s.absorb f .conflict).known terminal = s.known terminal := by
  have hdue : dueTerminal s.expected f .conflict = false := by simp [dueTerminal]
  have hcompetes : competes f .conflict = false := by simp [competes]
  simp [known, parked, slots, absorb, SensorClass.remembered, hdue, hcompetes]

/-- A duplicate has a known twin. -/
theorem classify_duplicate {f : Frame} (h : s.classify f = .duplicate) : f ∈ s.known true := by
  unfold classify at h
  split at h
  · contradiction
  · cases hprior : s.identity f with
    | none =>
      rw [hprior] at h
      dsimp only at h
      repeat' split at h
      all_goals contradiction
    | some p =>
      rw [hprior] at h
      dsimp only at h
      split at h
      · rename_i hpayload
        have hmem := List.mem_of_find?_eq_some hprior
        rw [Frame.ext hpayload] at hmem
        cases hterminal : f.terminal with
        | true => rwa [hterminal] at hmem
        | false =>
          rw [hterminal] at hmem
          exact mem_known_true hmem
      · contradiction

/-- A nonfinite frame is classified before it is compared. -/
theorem classify_nonfinite {f : Frame} (h : nonfinite f = true) : s.classify f = .nonfinite := by
  rw [classify, if_pos h]

/-- A frame that absorbing leaves among the kept ones was kept before, or agrees with them. -/
theorem kept_absorb (hknown : s.Known) (hshape : s.Shape) (hopen : s.isOpen = true) {f g : Frame}
    (hg : g ∈ (s.absorb f (s.classify f)).known false) :
    g ∈ s.known false ∨ (g = f ∧ ∀ h ∈ s.known false, h.tick = f.tick → h = f) := by
  by_cases hfinite : nonfinite f = true
  · -- A nonfinite frame is only ever kept as the newest, beyond every known tick.
    have hterminal : f.terminal = false := by
      by_contra hterminal
      rw [nonfinite_terminal (by simpa using hterminal)] at hfinite
      contradiction
    rw [classify_nonfinite hfinite, mem_kept] at hg
    rw [mem_kept]
    rcases hg with hnewest | hrest
    · simp only [absorb, SensorClass.remembered, if_true] at hnewest
      cases hbefore : s.newestReceived with
      | none =>
        have hnone : ∀ h ∈ s.known false, h.tick = f.tick → h = f := by
          intro h hh
          obtain ⟨n, hn, -⟩ := hknown.newest h (mem_known_true hh)
          rw [hbefore] at hn
          contradiction
        rw [hbefore] at hnewest
        exact .inr ⟨(Option.some.inj hnewest).symm, hnone⟩
      | some n =>
        rw [hbefore, RunningMax.pick_some] at hnewest
        split at hnewest
        · rename_i hlater
          refine .inr ⟨(Option.some.inj hnewest).symm, fun h hh htick => ?_⟩
          obtain ⟨m, hm, hle⟩ := hknown.newest h (mem_known_true hh)
          obtain rfl := Option.some.inj (hbefore.symm.trans hm)
          omega
        · exact .inl (.inl hnewest)
    · left
      right
      simpa [absorb, dueTerminal, hterminal, parked, slots] using hrest
  · by_cases hconflict : s.classify f = .conflict
    · rw [hconflict, known_absorb_conflict] at hg
      exact .inl hg
    · rcases mem_known_absorb hshape hopen hg with rfl | hbefore
      · exact .inr ⟨rfl, fun h hh htick =>
          eq_of_not_conflict hknown hh htick (by simpa using hfinite) hconflict⟩
      · exact .inl hbefore

/-- Absorbing a frame. -/
theorem Known.absorb_step (h : s.Known) (hshape : s.Shape) (hopen : s.isOpen = true) (f : Frame) :
    (s.absorb f (s.classify f)).Known := by
  constructor
  · intro g hg
    by_cases hremembered : (s.classify f).remembered = true
    · have hnewest : (s.absorb f (s.classify f)).newestReceived =
          RunningMax.pick Frame.tick s.newestReceived f := by simp only [absorb, if_pos hremembered]
      obtain ⟨n, hn⟩ := Option.isSome_iff_exists.mp
        (RunningMax.pick_isSome Frame.tick s.newestReceived f)
      obtain ⟨hf, hbefore⟩ := RunningMax.le_of_mem_pick hn
      refine ⟨n, by rw [hnewest, hn]; rfl, ?_⟩
      rcases mem_known_absorb hshape hopen hg with rfl | hknown
      · exact hf
      · obtain ⟨m, hm, hle⟩ := h.newest g hknown
        exact hle.trans (hbefore m hm)
    · have hnewest : (s.absorb f (s.classify f)).newestReceived = s.newestReceived := by
        simp only [absorb, if_neg hremembered]
      rw [hnewest]
      cases hkind : s.classify f with
      | conflict =>
        rw [hkind, known_absorb_conflict] at hg
        exact h.newest g hg
      | duplicate =>
        rcases mem_known_absorb hshape hopen hg with rfl | hknown
        · exact h.newest g (classify_duplicate hkind)
        · exact h.newest g hknown
      | malformed => exact absurd hkind (classify_ne_malformed s f)
      | _ => simp [hkind, SensorClass.remembered] at hremembered
  · intro g hg k hk htick
    rcases kept_absorb h hshape hopen hg with hgBefore | ⟨hgNew, hagree⟩ <;>
      rcases kept_absorb h hshape hopen hk with hkBefore | ⟨hkNew, hagree'⟩
    · exact h.unique g hgBefore k hkBefore htick
    · rw [hkNew] at htick ⊢
      exact hagree' g hgBefore htick
    · rw [hgNew] at htick ⊢
      exact (hagree k hkBefore htick.symm).symm
    · rw [hgNew, hkNew]

/-- What is known in an opened cycle was kept before it. -/
theorem mem_known_opened (hshape : s.Shape) {expected : ℕ} (ha : s.Admissible expected) {f : Frame}
    {terminal : Bool} (h : f ∈ (s.opened expected).known terminal) : f ∈ s.known false := by
  have hdue (hf : f ∈ s.dueAt expected) : f ∈ s.parked := by
    have hf : s.dueAt expected = some f := hf
    simp [parked_opened hshape ha, hf]
  have hkept (h : f ∈ (s.opened expected).known false) : f ∈ s.known false := by
    rw [mem_kept] at h ⊢
    rcases h with hnewest | hdue' | hparked | hcandidate | hlatch | hseen
    · exact .inl hnewest
    · exact .inr (.inr (.inl (hdue hdue')))
    · refine .inr (.inr (.inl ?_))
      rw [parked_opened hshape ha]
      exact List.mem_append_right _ hparked
    · simp only [opened] at hcandidate
      split at hcandidate
      · exact .inr (.inr (.inl (hdue (Option.filter_eq_some_iff.mp hcandidate).1)))
      · contradiction
    · exact .inr (.inr (.inr (.inr (.inl hlatch))))
    · simp [opened, openCycle] at hseen
  cases terminal with
  | false => exact hkept h
  | true =>
    rcases mem_known_true_iff.mp h with h | hcandidate
    · exact hkept h
    · exact mem_kept.mpr (.inr (.inr (.inl (hdue (Option.filter_eq_some_iff.mp hcandidate).1))))

/-- Closing a cycle keeps nothing new. -/
theorem mem_known_closed {f : Frame} {terminal : Bool} (h : f ∈ s.closed.known terminal) :
    f ∈ s.known terminal := by
  have hkept (h : f ∈ s.closed.known false) : f ∈ s.known false := by
    rw [mem_kept] at h ⊢
    rcases h with hnewest | hdue | hparked | hcandidate | hlatch | hseen
    · exact .inl hnewest
    · exact .inr (.inl hdue)
    · exact .inr (.inr (.inl hparked))
    · exact .inr (.inr (.inr (.inl hcandidate)))
    · simp only [closed] at hlatch
      cases hbefore : s.terminalLatch with
      | none =>
        rw [hbefore, Option.none_or] at hlatch
        exact .inr (.inr (.inr (.inl hlatch)))
      | some l =>
        rw [hbefore, Option.some_or] at hlatch
        exact .inr (.inr (.inr (.inr (.inl hlatch))))
    · exact .inr (.inr (.inr (.inr (.inr hseen))))
  cases terminal with
  | false => exact hkept h
  | true =>
    rw [mem_known_true_iff] at h ⊢
    exact h.imp_left hkept

/-- What every reachable state knows. -/
theorem Reachable.known (h : s.Reachable) : s.Known := by
  refine h.rule (fun b k w => ⟨?_, ?_⟩) fun s s' hshape hs hstep => ?_
  · intro f hf
    simp [Admission.known, initial, parked_eq] at hf
  · intro f hf
    simp [Admission.known, initial, parked_eq] at hf
  · cases hstep with
    | idle => exact hs
    | fault => exact ⟨hs.newest, hs.unique⟩
    | opened ha =>
      exact ⟨fun f hf => hs.newest f (mem_known_true (mem_known_opened hshape ha hf)),
        fun f hf g hg => hs.unique f (mem_known_opened hshape ha hf) g (mem_known_opened hshape ha hg)⟩
    | malformed e ha => exact ⟨hs.newest, hs.unique⟩
    | absorbed f ha =>
      have hcounted : s.countRx.Known := ⟨hs.newest, hs.unique⟩
      exact hcounted.absorb_step hshape.countRx_step ha.isOpen f
    | closed hopen =>
      exact ⟨fun f hf => hs.newest f (mem_known_closed hf),
        fun f hf g hg => hs.unique f (mem_known_closed hf) g (mem_known_closed hg)⟩

/-! ## Terminals -/

/-- Every terminal frame received in a cycle is among those seen, and those of one tick are one
frame, unless the fault is raised. -/
def TerminalsSeen (t : Admission) (calls : List Call) : Prop :=
  t.integrity = true ∨
    (∀ d f, .receive d ∈ calls → d.frame = .ok f → f.terminal = true → f ∈ t.terminalSeen) ∧
      ∀ f ∈ t.terminalSeen, ∀ g ∈ t.terminalSeen, f.tick = g.tick → f = g

/-- The seen terminals are kept. -/
theorem mem_kept_of_seen {f : Frame} (h : f ∈ s.terminalSeen) : f ∈ s.known false :=
  mem_kept.mpr (.inr (.inr (.inr (.inr (.inr h)))))

/-- The terminals of a whole cycle. -/
theorem terminalsSeen_run (hreach : s.Reachable) (hopen : s.isOpen = true) {body : List Call}
    (hbody : ∀ c ∈ body, c.inside = true) : TerminalsSeen (Machine.run call s body).1 body := by
  refine (cycle_rule (P := fun t calls _ => TerminalsSeen t calls) hreach hopen ?_ ?_ hbody).1
  · exact .inr ⟨by simp, fun f hf g hg => hreach.known.unique f (mem_kept_of_seen hf) g (mem_kept_of_seen hg)⟩
  · intro t t' calls _ c entry ht hopen h hinside
    cases hinside with
    | fault _ => exact .inl rfl
    | malformed _ _ => exact .inl rfl
    | @absorbed d f hd ha =>
      have hnext : (t.countRx.absorb f (t.countRx.classify f)).Reachable := by
        have := ht.run [.receive d]
        rwa [Machine.run_cons, Machine.run_nil, call, receive_of_accepts ha, hd] at this
      rcases h with hfault | ⟨hseen, -⟩
      · exact .inl (by simp [absorb, countRx, hfault])
      · by_cases hconflict : t.countRx.classify f = .conflict
        · exact .inl (by simp [absorb, hconflict])
        · refine .inr ⟨fun d' g hg hd' hterminal => ?_, fun f hf g hg =>
            hnext.known.unique f (mem_kept_of_seen hf) g (mem_kept_of_seen hg)⟩
          simp only [absorb]
          rcases List.mem_append.mp hg with hbefore | hnow
          · have hmem : g ∈ t.countRx.terminalSeen := hseen d' g hbefore hd' hterminal
            split
            · exact List.mem_append_left _ hmem
            · exact hmem
          · obtain rfl : d' = d := by simpa using hnow
            obtain rfl : f = g := Except.ok.inj (hd.symm.trans hd')
            simp [hterminal, hconflict]

/-- The due terminal frames of a log that were not refused as conflicts. -/
def dueTerminals (expected : ℕ) (log : Log) : List Frame :=
  (log.filter fun e => dueTerminal expected e.1 e.2).map Prod.fst

/-- The due terminals after one more entry. -/
theorem dueTerminals_concat (expected : ℕ) (log : Log) (f : Frame) (kind : SensorClass) :
    dueTerminals expected (log ++ [(f, kind)]) =
      dueTerminals expected log ++ if dueTerminal expected f kind then [f] else [] := by
  by_cases hdue : dueTerminal expected f kind = true <;>
    simp [dueTerminals, List.filter_append, hdue]

/-- The terminal of a cycle is the running maximum of its due terminals, unless one is latched. -/
theorem terminalCandidate_run (hreach : s.Reachable) (hopen : s.isOpen = true) {body : List Call}
    (hbody : ∀ c ∈ body, c.inside = true) (hfree : s.terminalLatch = none) :
    (Machine.run call s body).1.terminalCandidate =
      (dueTerminals s.expected (logOf body (Machine.run call s body).2)).foldl
        (RunningMax.pick Frame.tick) s.terminalCandidate := by
  refine (cycle_rule (P := fun t _ log => SameCycle s t ∧ t.terminalCandidate =
    (dueTerminals s.expected log).foldl (RunningMax.pick Frame.tick) s.terminalCandidate)
    hreach hopen ⟨.refl s, rfl⟩ ?_ hbody).1.2
  rintro t t' _ log c entry - - ⟨hsame, h⟩ hinside
  refine ⟨hsame.trans_inside hinside, ?_⟩
  cases hinside with
  | fault _ => rwa [List.append_nil]
  | malformed _ _ => rwa [List.append_nil]
  | @absorbed _ f _ _ =>
    generalize t.countRx.classify f = kind
    have hlatch : t.countRx.terminalLatch = none := hsame.terminalLatch.trans hfree
    have hdue : t.countRx.expected = s.expected := hsame.expected
    have hbefore : t.countRx.terminalCandidate = t.terminalCandidate := rfl
    have hnext : (t.countRx.absorb f kind).terminalCandidate =
        if dueTerminal t.countRx.expected f kind && t.countRx.terminalLatch.isNone then
          RunningMax.pick Frame.tick t.countRx.terminalCandidate f
        else t.countRx.terminalCandidate := rfl
    rw [hnext, hdue, hlatch, hbefore, h, dueTerminals_concat, List.foldl_append, Option.isNone_none,
      Bool.and_true]
    split <;> rfl

/-- A frame whose tick a gap passes over raises the fault. -/
theorem integrity_of_skipped (hshape : s.Shape) {expected : ℕ} {f : Frame} (hf : f ∈ s.parked)
    (htick : f.tick < expected) : (s.opened expected).integrity = true := by
  obtain ⟨i, -, hslot⟩ := mem_parked.mp hf
  have hskipped : f ∈ s.skipped expected := by
    refine SlotWindow.mem_entries.mpr ⟨i, ?_, hslot⟩
    have := (hshape.slots i f hslot).1
    omega
  have hsome : (s.skipped expected).isEmpty = false := by
    cases hempty : s.skipped expected with
    | nil => simp [hempty] at hskipped
    | cons g rest => rfl
  simp [opened, hsome]

/-! ## Two copies of a normal frame -/

/-- What a stretch of a cycle keeps: the due frame, the parked frames, and the newest frame unless
a newer one has come. -/
structure Keeps (s t : Admission) : Prop where
  due : ∀ g ∈ s.due, g ∈ t.due
  parked : ∀ g ∈ s.parked, g ∈ t.parked
  newest : ∀ m ∈ s.newestReceived, ∃ n ∈ t.newestReceived, n = m ∨ m.tick < n.tick

/-- Absorbing a frame keeps them. -/
theorem keeps_absorb (hshape : s.Shape) (hopen : s.isOpen = true) (f : Frame) :
    Keeps s (s.absorb f (s.classify f)) := by
  refine ⟨fun g hg => hg, fun g hg => ?_, fun m hm => ?_⟩
  · rw [parked_eq] at hg ⊢
    simp only [absorb]
    split
    · rename_i hfuture
      obtain ⟨hfree, hin, hlimit, -⟩ := slot_of_future hshape hopen hfuture
      exact (SlotWindow.mem_entries_update (by omega) hfree).mpr (.inr hg)
    · exact hg
  · have hm : s.newestReceived = some m := hm
    simp only [absorb, hm]
    split
    · rw [RunningMax.pick_some]
      split
      · exact ⟨f, rfl, .inr (by assumption)⟩
      · exact ⟨m, rfl, .inl rfl⟩
    · exact ⟨m, rfl, .inl rfl⟩

/-- A stretch of a cycle keeps them. -/
theorem keeps_run (hreach : s.Reachable) (hopen : s.isOpen = true) {body : List Call}
    (hbody : ∀ c ∈ body, c.inside = true) : Keeps s (Machine.run call s body).1 := by
  refine (cycle_rule (P := fun t _ _ => Keeps s t) hreach hopen
    ⟨fun g hg => hg, fun g hg => hg, fun m hm => ⟨m, hm, .inl rfl⟩⟩ ?_ hbody).1
  intro t t' _ _ c entry ht hstill h hinside
  cases hinside with
  | fault _ => exact ⟨h.due, h.parked, h.newest⟩
  | malformed _ _ => exact ⟨h.due, h.parked, h.newest⟩
  | @absorbed _ f _ _ =>
    have hnext := keeps_absorb ht.shape.countRx_step hstill f
    refine ⟨fun g hg => hnext.due g (h.due g hg), fun g hg => hnext.parked g (h.parked g hg),
      fun m hm => ?_⟩
    obtain ⟨n, hn, hmn⟩ := h.newest m hm
    obtain ⟨k, hk, hnk⟩ := hnext.newest n hn
    refine ⟨k, hk, ?_⟩
    rcases hnk with rfl | hlt
    · exact hmn
    · rcases hmn with rfl | hmn
      · exact .inr hlt
      · exact .inr (hmn.trans hlt)

/-- The newest frame covers a frame that was not refused as a conflict. -/
theorem newest_of_absorb (hknown : s.Known) {f : Frame} (h : s.classify f ≠ .conflict) :
    ∃ n ∈ (s.absorb f (s.classify f)).newestReceived, f.tick ≤ n.tick := by
  by_cases hremembered : (s.classify f).remembered = true
  · simp only [absorb, if_pos hremembered]
    obtain ⟨n, hn⟩ := Option.isSome_iff_exists.mp
      (RunningMax.pick_isSome Frame.tick s.newestReceived f)
    exact ⟨n, hn, (RunningMax.le_of_mem_pick hn).1⟩
  · simp only [absorb, if_neg hremembered]
    cases hkind : s.classify f with
    | duplicate => exact hknown.newest f (classify_duplicate hkind)
    | malformed => exact absurd hkind (classify_ne_malformed s f)
    | conflict => exact absurd hkind h
    | _ => simp [hkind, SensorClass.remembered] at hremembered

/-- A frame absorbed without a conflict is the only kept one of its tick. -/
theorem kept_of_absorb (hknown : s.Known) (hshape : s.Shape) (hopen : s.isOpen = true) {f g : Frame}
    (hfinite : nonfinite f = false) (h : s.classify f ≠ .conflict)
    (hg : g ∈ (s.absorb f (s.classify f)).known false) (htick : g.tick = f.tick) : g = f := by
  rcases kept_absorb hknown hshape hopen hg with hbefore | ⟨hnew, -⟩
  · exact eq_of_not_conflict hknown hbefore htick hfinite h
  · exact hnew

/-- The later copy of a frame is a conflict while the earlier one is kept. -/
theorem conflict_of_kept (hknown : s.Known) {f g : Frame} (hg : g ∈ s.known false)
    (htick : g.tick = f.tick) (hpayload : g.payload ≠ f.payload) (hfinite : nonfinite f = false) :
    s.classify f = .conflict := by
  by_contra h
  exact hpayload (congrArg Frame.payload (eq_of_not_conflict hknown hg htick hfinite h))

/-- After a first copy is absorbed without a conflict, a second copy of another payload is one,
if no later tick has been received by then or a frame of the tick was due or parked. -/
theorem second_copy_conflicts (hknown : s.Known) (hshape : s.Shape) (hopen : s.isOpen = true) {f g : Frame}
    (hffinite : nonfinite f = false) (hgfinite : nonfinite g = false) (htick : f.tick = g.tick)
    (hpayload : f.payload ≠ g.payload) (hfirst : s.classify f ≠ .conflict) {t : Admission}
    (ht : t.Known) (hkeeps : Keeps (s.absorb f (s.classify f)) t)
    (hstill : (∀ n ∈ t.newestReceived, n.tick ≤ f.tick) ∨
      ∃ k, (k ∈ (s.absorb f (s.classify f)).due ∨ k ∈ (s.absorb f (s.classify f)).parked) ∧
        k.tick = f.tick) : t.classify g = .conflict := by
  have hkept : f ∈ t.known false := by
    rcases hstill with hnewest | ⟨k, hk, hktick⟩
    · -- The newest frame has had the tick of the copies since the first of them.
      obtain ⟨m, hm, hcovers⟩ := newest_of_absorb hknown hfirst
      obtain ⟨n, hn, hmn⟩ := hkeeps.newest m hm
      have hle := hnewest n hn
      obtain rfl : n = m := hmn.resolve_right (by omega)
      obtain rfl := kept_of_absorb hknown hshape hopen hffinite hfirst (mem_kept.mpr (.inl hm)) (by omega)
      exact mem_kept.mpr (.inl hn)
    · have hkf : k = f := by
        refine kept_of_absorb hknown hshape hopen hffinite hfirst (mem_kept.mpr ?_) hktick
        rcases hk with hdue | hparked
        · exact .inr (.inl hdue)
        · exact .inr (.inr (.inl hparked))
      subst hkf
      rcases hk with hdue | hparked
      · exact mem_kept.mpr (.inr (.inl (hkeeps.due k hdue)))
      · exact mem_kept.mpr (.inr (.inr (.inl (hkeeps.parked k hparked))))
  exact conflict_of_kept ht hkept htick hpayload hgfinite

end Admission

open Admission

/-- Terminal identity and latch: two terminals of one tick and different payloads in one cycle
raise the fault for good. The terminal is latched at the end of the first cycle in which one is
due and not refused, it is one of the greatest tick among those, and it never changes. A parked
frame whose tick is passed over raises the fault instead. -/
theorem terminal_identity_and_latch (tickBase skewMax warmup : ℕ) (calls body : List Call)
    (expected : ℕ) (hbegin : ((after tickBase skewMax warmup calls).beginCycle expected).2 = true)
    (hbody : ∀ c ∈ body, c.inside = true) :
    let s := after tickBase skewMax warmup calls
    let r := Machine.run call (s.beginCycle expected).1 body
    let t := r.1.finishCycle
    (∀ d₁ d₂ f₁ f₂, .receive d₁ ∈ body → .receive d₂ ∈ body → d₁.frame = .ok f₁ → d₂.frame = .ok f₂ →
      f₁.terminal = true → f₂.terminal = true → f₁.tick = f₂.tick → f₁.payload ≠ f₂.payload →
        ∀ later, (Machine.run call t later).1.integrity = true) ∧
      t.terminalLatch = s.terminalLatch.or
        ((s.parkedFor expected Frame.terminal ++ dueTerminals expected (logOf body r.2)).argmax Frame.tick) ∧
      t.cycle.terminal = t.terminalLatch.map Frame.toTerminal ∧
      (∀ l, t.terminalLatch = some l → ∀ later, (Machine.run call t later).1.terminalLatch = some l) ∧
      ∀ f ∈ s.parked, f.tick < expected → ∀ later, (Machine.run call t later).1.integrity = true := by
  intro s r t
  have hreach : s.Reachable := ⟨_, _, _, calls, rfl⟩
  obtain ⟨ha, hopened⟩ := admissible_of_began hreach.shape hbegin
  have hopenedReach := hreach.opened ha
  have hr : Machine.run call (s.opened expected) body = r := by rw [← hopened]
  have hrreach : r.1.Reachable := hr ▸ hopenedReach.run body
  have hsame : SameCycle (s.opened expected) r.1 := hr ▸ sameCycle_run hopenedReach rfl hbody
  have hopen : r.1.isOpen = true := hsame.isOpen
  have ht : t = r.1.closed := finishCycle_of_open hopen
  have htreach : t.Reachable := by
    have hlast := hrreach.run [.finishCycle]
    rwa [Machine.run_cons, Machine.run_nil, call] at hlast
  have hfault (h : r.1.integrity = true) (later : List Call) :
      (Machine.run call t later).1.integrity = true :=
    htreach.run_rule (fun _ _ => integrity_step) (by rw [ht]; exact h) later
  refine ⟨fun d₁ d₂ f₁ f₂ h₁ h₂ hf₁ hf₂ hterminal₁ hterminal₂ htick hpayload => hfault ?_, ?_, ?_,
    fun l hl => htreach.run_rule (fun _ _ => latch_step) hl, fun f hf htick => hfault ?_⟩
  · rcases hr ▸ terminalsSeen_run hopenedReach rfl hbody with hintegrity | ⟨hseen, hsame⟩
    · exact hintegrity
    · have hframe := hsame f₁ (hseen d₁ f₁ h₁ hf₁ hterminal₁) f₂ (hseen d₂ f₂ h₂ hf₂ hterminal₂) htick
      exact absurd (congrArg Frame.payload hframe) hpayload
  · have hlatch : r.1.terminalLatch = s.terminalLatch := hsame.terminalLatch
    rw [ht]
    simp only [closed, hlatch]
    cases hfree : s.terminalLatch with
    | some l => rfl
    | none =>
      have hcandidate := terminalCandidate_run hopenedReach rfl hbody hfree
      have hdue : (s.opened expected).terminalCandidate.toList = s.parkedFor expected Frame.terminal := by
        rw [parkedFor_eq hreach.shape ha]
        simp [opened, hfree]
      rw [hr, RunningMax.foldl_pick, hdue] at hcandidate
      rw [hcandidate, Option.none_or, Option.none_or]
      rfl
  · rw [ht]
    rfl
  · have hstart := integrity_of_skipped hreach.shape hf htick
    exact hr ▸ hopenedReach.run_rule (fun _ _ => integrity_step) hstart body

/-- Two terminals of one tick and different reasons in the first cycle. -/
theorem terminal_identity_two_reasons :
    let first := Frame.ofFields ⟨0, 0, ⟨0⟩, ⟨0⟩, 2, 0, 1⟩
    let second := Frame.ofFields ⟨0, 0, ⟨0⟩, ⟨0⟩, 2, 0, 2⟩
    let body : List Call := [.receive (.ofFrame 0 first), .receive (.ofFrame 1 second)]
    let r := Machine.run call ((after 0 4 0 []).beginCycle 0).1 body
    ∀ later, (Machine.run call r.1.finishCycle later).1.integrity = true := by
  intro first second body r
  exact (terminal_identity_and_latch 0 4 0 [] body 0 (by decide +kernel) (by decide +kernel)).1
    (.ofFrame 0 first) (.ofFrame 1 second) first second (by simp [body]) (by simp [body])
    (Datagram.frame_ofFrame ..) (Datagram.frame_ofFrame ..) (by decide +kernel)
    (by decide +kernel) (by decide +kernel) (by decide +kernel)

/-- A terminal frame parked for a tick that is then skipped has a tick below the expected one in
a cycle that ends with nothing latched. -/
theorem skipped_terminal_not_latched :
    let f := Frame.ofFields ⟨1, 0, ⟨0⟩, ⟨0⟩, 2, 0, 1⟩
    let s := after 0 4 0 [.beginCycle 0, .receive (.ofFrame 0 f), .finishCycle]
    let t := (s.beginCycle 2).1.finishCycle
    f ∈ s.parked ∧ f.terminal = true ∧ f.tick ≤ 2 ∧ s.terminalCounts.conflict = 0 ∧
      (s.beginCycle 2).2 = true ∧ s.terminalLatch = none ∧ t.terminalLatch = none := by
  decide +kernel

/-- Two payloads for one tick in one cycle are never both taken silently while the first of them
is remembered. If the first copy is not a conflict itself, the second is one, provided that no
frame of a later tick has been received by then, or that a frame of the tick is due or parked
once the first copy is in; and a conflict raises the fault for good. -/
theorem normal_copies_conflict (tickBase skewMax warmup : ℕ) (calls before between after' : List Call)
    (expected : ℕ) (hbegin : ((after tickBase skewMax warmup calls).beginCycle expected).2 = true)
    (hbetween : ∀ c ∈ between, c.inside = true) (d₁ d₂ : Datagram) (f₁ f₂ : Frame)
    (hf₁ : d₁.frame = .ok f₁) (hf₂ : d₂.frame = .ok f₂) (hfinite₁ : nonfinite f₁ = false)
    (hfinite₂ : nonfinite f₂ = false) (htick : f₁.tick = f₂.tick) (hpayload : f₁.payload ≠ f₂.payload) :
    let o := ((after tickBase skewMax warmup calls).beginCycle expected).1
    let u₁ := (Machine.run call o before).1
    let v₁ := (u₁.receive d₁).1
    let u₂ := (Machine.run call v₁ between).1
    let v₂ := (u₂.receive d₂).1
    let t := (Machine.run call v₂ after').1.finishCycle
    u₁.Accepts → u₂.Accepts →
      ((u₁.receive d₁).2 = some .conflict → ∀ later, (Machine.run call t later).1.integrity = true) ∧
        ((u₁.receive d₁).2 ≠ some .conflict →
          ((∀ n ∈ u₂.newestReceived, n.tick ≤ f₁.tick) ∨
            ∃ k, (k ∈ v₁.due ∨ k ∈ v₁.parked) ∧ k.tick = f₁.tick) →
          (u₂.receive d₂).2 = some .conflict ∧
            ∀ later, (Machine.run call t later).1.integrity = true) := by
  intro o u₁ v₁ u₂ v₂ t ha₁ ha₂
  have hreach : (after tickBase skewMax warmup calls).Reachable := ⟨_, _, _, calls, rfl⟩
  obtain ⟨ha, hopened⟩ := admissible_of_began hreach.shape hbegin
  have ho : o.Reachable := by
    have := hreach.opened ha
    rwa [← hopened] at this
  have hu₁ : u₁.Reachable := ho.run before
  have hreceive (u : Admission) (hu : u.Reachable) (d : Datagram) : (u.receive d).1.Reachable :=
    hu.run [.receive d]
  have hv₁ : v₁.Reachable := hreceive u₁ hu₁ d₁
  have hu₂ : u₂.Reachable := hv₁.run between
  have hv₂ : v₂.Reachable := hreceive u₂ hu₂ d₂
  have htfault (h : v₂.integrity = true) (later : List Call) :
      (Machine.run call t later).1.integrity = true := by
    have := hv₂.run_rule (fun _ _ => integrity_step) h (after' ++ .finishCycle :: later)
    rwa [Machine.run_append, Machine.run_cons] at this
  have hfirst : u₁.receive d₁ = (u₁.countRx.absorb f₁ (u₁.countRx.classify f₁),
      some (u₁.countRx.classify f₁)) := by rw [receive_of_accepts ha₁, hf₁]
  have hsecond : u₂.receive d₂ = (u₂.countRx.absorb f₂ (u₂.countRx.classify f₂),
      some (u₂.countRx.classify f₂)) := by rw [receive_of_accepts ha₂, hf₂]
  have hv₁open : v₁.isOpen = true := by
    rw [show v₁ = u₁.countRx.absorb f₁ (u₁.countRx.classify f₁) from congrArg Prod.fst hfirst]
    exact ha₁.isOpen
  refine ⟨fun hconflict => htfault ?_, fun hno hstill => ?_⟩
  · rw [hfirst, Option.some_inj] at hconflict
    have hv₁fault : v₁.integrity = true := by
      rw [show v₁ = u₁.countRx.absorb f₁ (u₁.countRx.classify f₁) from congrArg Prod.fst hfirst, hconflict]
      simp [absorb]
    have := hv₁.run_rule (fun _ _ => integrity_step) hv₁fault (between ++ [.receive d₂])
    rwa [Machine.run_append, Machine.run_cons] at this
  · have hkeeps : Keeps v₁ u₂ := keeps_run hv₁ hv₁open hbetween
    have hv₁eq : v₁ = u₁.countRx.absorb f₁ (u₁.countRx.classify f₁) := congrArg Prod.fst hfirst
    rw [hfirst, ne_eq, Option.some_inj] at hno
    rw [hv₁eq] at hkeeps hstill
    have hclass : u₂.countRx.classify f₂ = .conflict :=
      second_copy_conflicts (s := u₁.countRx) ⟨hu₁.known.newest, hu₁.known.unique⟩
        hu₁.shape.countRx_step ha₁.isOpen hfinite₁ hfinite₂ htick hpayload hno
        ⟨hu₂.known.newest, hu₂.known.unique⟩ ⟨hkeeps.due, hkeeps.parked, hkeeps.newest⟩ hstill
    refine ⟨by rw [hsecond, hclass], htfault ?_⟩
    rw [show v₂ = u₂.countRx.absorb f₂ (u₂.countRx.classify f₂) from congrArg Prod.fst hsecond, hclass]
    simp [absorb]

/-- Two copies back to back. -/
theorem normal_copies_conflict_adjacent :
    let first := Frame.ofFields ⟨0, 0, ⟨0⟩, ⟨0⟩, 1, 0, 0⟩
    let second := Frame.ofFields ⟨0, 0, ⟨1⟩, ⟨0⟩, 1, 0, 0⟩
    let o := ((after 0 4 0 []).beginCycle 0).1
    ((o.receive (.ofFrame 0 first)).1.receive (.ofFrame 1 second)).2 = some .conflict := by
  intro first second o
  exact ((normal_copies_conflict 0 4 0 [] [] [] [] 0 (by decide +kernel) (by simp)
    (.ofFrame 0 first) (.ofFrame 1 second) first second (Datagram.frame_ofFrame ..)
    (Datagram.frame_ofFrame ..) (by decide +kernel) (by decide +kernel) (by decide +kernel)
    (by decide +kernel) ⟨by decide +kernel, by decide +kernel⟩ ⟨by decide +kernel, by decide +kernel⟩).2
    (by decide +kernel) (.inl (by decide +kernel))).1

/-- Two cycles in which the later copy is not a conflict. In the first, the frame parked before
has the payload of the later copy, so the earlier one is the conflict. In the second, a later tick
comes between the copies, neither is a conflict, and no fault is raised. -/
theorem later_copy_not_conflict :
    let a := Frame.ofFields ⟨5, 0, ⟨0⟩, ⟨0⟩, 1, 0, 0⟩
    let b := Frame.ofFields ⟨5, 0, ⟨1⟩, ⟨0⟩, 1, 0, 0⟩
    let newer := Frame.ofFields ⟨6, 0, ⟨0⟩, ⟨0⟩, 1, 0, 0⟩
    let parked := after 4 4 0 [.beginCycle 4, .receive (.ofFrame 0 b), .finishCycle, .beginCycle 5,
      .receive (.ofFrame 1 a)]
    let displaced := after 6 4 0 [.beginCycle 6, .receive (.ofFrame 0 a), .receive (.ofFrame 1 newer)]
    a.tick = b.tick ∧ a.payload ≠ b.payload ∧
      (parked.receive (.ofFrame 2 b)).2 = some .duplicate ∧ parked.held = none ∧
      (displaced.receive (.ofFrame 2 b)).2 = some .current ∧ displaced.held = none ∧
      (displaced.receive (.ofFrame 2 b)).1.finishCycle.integrity = false := by
  decide +kernel

end Tvc.Freerun
