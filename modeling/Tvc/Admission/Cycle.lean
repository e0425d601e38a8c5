import Tvc.Admission.Conservation

/-!
# What a cycle receives

Between an accepted `begin_cycle` and `finish_cycle` an object may be handed any datagrams, and
may even be told to begin again. Its log is the list of well-formed frames it took, each with
the class it was given. What holds of the opened state with an empty log, and is kept by every
call, holds of the state that is finished, with the whole log.
-/

namespace Tvc.Freerun.Admission

variable {s : Admission}

/-- The well-formed frames of a sequence of calls, with the classes they were given. -/
abbrev Log := List (Frame × SensorClass)

/-- The entry that a call and its answer make. -/
def entryOf : Call × Answer → Option (Frame × SensorClass)
  | (.receive d, .classified (some kind)) => d.frame.toOption.map fun f => (f, kind)
  | _ => none

/-- The log of a sequence of calls. -/
def logOf (calls : List Call) (answers : List Answer) : Log := (calls.zip answers).filterMap entryOf

/-- The frames of a log that compete to be the sample. -/
def competitors (log : Log) : List Frame := (log.filter fun e => competes e.1 e.2).map Prod.fst

/-- A call that does not finish the cycle. -/
def Call.inside : Call → Bool
  | .finishCycle => false
  | _ => true

/-- One more call. -/
theorem run_concat (s : Admission) (calls : List Call) (c : Call) :
    Machine.run call s (calls ++ [c]) =
      (((Machine.run call s calls).1.call c).1,
        (Machine.run call s calls).2 ++ [((Machine.run call s calls).1.call c).2]) := by
  rw [Machine.run_append]
  rfl

/-- The log of one more call. -/
theorem logOf_concat (s : Admission) (calls : List Call) (c : Call) :
    logOf (calls ++ [c]) (Machine.run call s (calls ++ [c])).2 =
      logOf calls (Machine.run call s calls).2 ++
        (entryOf (c, ((Machine.run call s calls).1.call c).2)).toList := by
  rw [run_concat, logOf, List.zip_append (Machine.run_length call s calls).symm, List.filterMap_append]
  cases h : entryOf (c, ((Machine.run call s calls).1.call c).2) <;> simp [logOf, h]

/-- The states of a run from a reachable state are reachable. -/
theorem Reachable.run (h : s.Reachable) (calls : List Call) : (Machine.run call s calls).1.Reachable := by
  obtain ⟨tickBase, skewMax, warmup, before, rfl⟩ := h
  refine ⟨tickBase, skewMax, warmup, before ++ calls, ?_⟩
  rw [after, after, Machine.run_append]

/-- What every step keeps holds after any further calls. -/
theorem Reachable.run_rule {P : Admission → Prop} (hstep : ∀ s s', P s → s.Step s' → P s')
    (h : s.Reachable) (hs : P s) (calls : List Call) : P (Machine.run call s calls).1 :=
  (Machine.run_invariant (P := fun t => t.Shape ∧ P t)
    (fun t c ht =>
      have hnext := call_step ht.1.slots ht.1.unstarted c
      ⟨ht.1.step hnext, hstep t _ ht.2 hnext⟩)
    ⟨h.shape, hs⟩ calls).2

/-- The integrity fault stays. -/
theorem integrity_step {s' : Admission} (h : s.integrity = true) (hstep : s.Step s') :
    s'.integrity = true := by
  cases hstep with
  | idle => exact h
  | fault => rfl
  | opened ha => simp [opened, openCycle, h]
  | malformed e ha => rfl
  | absorbed f ha => simp [absorb, countRx, h]
  | closed hopen => exact h

/-- The latched terminal stays. -/
theorem latch_step {s' : Admission} {l : Frame} (h : s.terminalLatch = some l) (hstep : s.Step s') :
    s'.terminalLatch = some l := by
  cases hstep with
  | closed hopen => simp [closed, h]
  | _ => exact h

/-- What a call inside an open cycle does, with the entry it makes. -/
inductive Inside (s : Admission) : Call → Admission → Log → Prop
  | fault (c : Call) : Inside s c { s with integrity := true } []
  | malformed {d : Datagram} {e : Telem.DatagramError} (hd : d.frame = .error e) (h : s.Accepts) :
      Inside s (.receive d) (s.countRx.malformed e) []
  | absorbed {d : Datagram} {f : Frame} (hd : d.frame = .ok f) (h : s.Accepts) :
      Inside s (.receive d) (s.countRx.absorb f (s.countRx.classify f)) [(f, s.countRx.classify f)]

/-- A call inside an open cycle does one of the things listed in `Inside`. -/
theorem call_inside (hopen : s.isOpen = true) {c : Call} (hc : c.inside = true) :
    s.Inside c (s.call c).1 (entryOf (c, (s.call c).2)).toList := by
  cases c with
  | beginCycle expected =>
    have hrefused : ¬s.Admissible expected := fun h => by simp [h.closed] at hopen
    rw [call, beginCycle_of_refused hrefused]
    exact .fault _
  | receive d =>
    by_cases ha : s.Accepts
    · rw [call, receive_of_accepts ha]
      cases hframe : d.frame with
      | error e =>
        simp only [entryOf, hframe]
        exact .malformed hframe ha
      | ok f =>
        simp only [entryOf, hframe]
        exact .absorbed hframe ha
    · rw [call, receive_of_refused ha]
      exact .fault _
  | finishCycle => simp [Call.inside] at hc

/-- A call inside leaves the cycle open. -/
theorem Inside.isOpen {c : Call} {t : Admission} {entry : Log} (h : s.Inside c t entry) :
    t.isOpen = s.isOpen := by
  cases h <;> rfl

/-- What the opened state has, and every call inside keeps, is there when the cycle finishes. -/
theorem cycle_rule {P : Admission → List Call → Log → Prop} (hreach : s.Reachable)
    (hopen : s.isOpen = true) (hstart : P s [] [])
    (hstep : ∀ t t' calls log c entry, t.Reachable → t.isOpen = true → P t calls log →
      t.Inside c t' entry → P t' (calls ++ [c]) (log ++ entry))
    {body : List Call} (hbody : ∀ c ∈ body, c.inside = true) :
    P (Machine.run call s body).1 body (logOf body (Machine.run call s body).2) ∧
      (Machine.run call s body).1.isOpen = true := by
  induction body using List.reverseRecOn with
  | nil => exact ⟨hstart, hopen⟩
  | append_singleton body c ih =>
    obtain ⟨hP, hstill⟩ := ih fun c hc => hbody c (List.mem_append_left _ hc)
    have hinside := call_inside hstill (hbody c (by simp))
    rw [logOf_concat, run_concat]
    exact ⟨hstep _ _ _ _ _ _ (hreach.run body) hstill hP hinside, hinside.isOpen.trans hstill⟩

/-- What no call inside a cycle changes. -/
structure SameCycle (s t : Admission) : Prop where
  tickBase : t.tickBase = s.tickBase
  valid : t.valid = s.valid
  isOpen : t.isOpen = s.isOpen
  expected : t.expected = s.expected
  cycles : t.cycles = s.cycles
  skewMax : t.skewMax = s.skewMax
  due : t.due = s.due
  held : t.held = s.held
  terminalLatch : t.terminalLatch = s.terminalLatch
  episode : t.episode = s.episode
  recorded : t.recorded = s.recorded
  consumed : t.cycle.counts.consumed = s.cycle.counts.consumed
  invalid : t.cycle.counts.invalid = s.cycle.counts.invalid
  futureExpired : t.cycle.counts.futureExpired = s.cycle.counts.futureExpired

/-- A state is in its own cycle. -/
theorem SameCycle.refl (s : Admission) : SameCycle s s :=
  ⟨rfl, rfl, rfl, rfl, rfl, rfl, rfl, rfl, rfl, rfl, rfl, rfl, rfl, rfl⟩

/-- Absorbing a frame stays in the cycle. -/
theorem sameCycle_absorb (s : Admission) (f : Frame) (kind : SensorClass) :
    SameCycle s (s.countRx.absorb f kind) := by
  refine ⟨rfl, rfl, rfl, rfl, rfl, rfl, rfl, rfl, rfl, rfl, rfl, ?_, ?_, ?_⟩
  all_goals
    simp only [absorb, countRx]
    cases f.terminal <;> cases kind <;> rfl

/-- A call inside a cycle stays in it. -/
theorem SameCycle.trans_inside {t t' : Admission} {c : Call} {entry : Log} (h : SameCycle s t)
    (hinside : t.Inside c t' entry) : SameCycle s t' := by
  have hnext : SameCycle t t' := by
    cases hinside with
    | fault _ => exact ⟨rfl, rfl, rfl, rfl, rfl, rfl, rfl, rfl, rfl, rfl, rfl, rfl, rfl, rfl⟩
    | @malformed _ e _ _ =>
      have hcounts (c : AdmissionCounts) : (countMalformed c e).consumed = c.consumed ∧
          (countMalformed c e).invalid = c.invalid ∧
          (countMalformed c e).futureExpired = c.futureExpired := by
        cases e <;> exact ⟨rfl, rfl, rfl⟩
      exact ⟨rfl, rfl, rfl, rfl, rfl, rfl, rfl, rfl, rfl, rfl, rfl, (hcounts t.cycle.counts).1,
        (hcounts t.cycle.counts).2.1, (hcounts t.cycle.counts).2.2⟩
    | @absorbed _ f _ _ => exact t.sameCycle_absorb f _
  exact ⟨hnext.tickBase.trans h.tickBase, hnext.valid.trans h.valid, hnext.isOpen.trans h.isOpen,
    hnext.expected.trans h.expected, hnext.cycles.trans h.cycles, hnext.skewMax.trans h.skewMax,
    hnext.due.trans h.due, hnext.held.trans h.held, hnext.terminalLatch.trans h.terminalLatch,
    hnext.episode.trans h.episode, hnext.recorded.trans h.recorded, hnext.consumed.trans h.consumed,
    hnext.invalid.trans h.invalid, hnext.futureExpired.trans h.futureExpired⟩

/-- The whole body of a cycle stays in it. -/
theorem sameCycle_run (hreach : s.Reachable) (hopen : s.isOpen = true) {body : List Call}
    (hbody : ∀ c ∈ body, c.inside = true) : SameCycle s (Machine.run call s body).1 :=
  (cycle_rule (P := fun t _ _ => SameCycle s t) hreach hopen
    (.refl s)
    (fun _ _ _ _ _ _ _ _ hs hinside => hs.trans_inside hinside) hbody).1

end Tvc.Freerun.Admission
