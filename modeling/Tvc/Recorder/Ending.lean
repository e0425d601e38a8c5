import Tvc.Recorder.Invariant

/-!
# The end of the recorder

Neither thread waits for the other without end. The control thread needs boundedly many accesses for each
record, and after the flag is set the drain needs boundedly many for what is left. So every run can be
continued to one in which the drain has ended.
-/

namespace Tvc.Recorder

open BoundedQueue (Queue)
open SpscRing (Words)
open Telem (ControlRecord FittingCounts)

variable {w : ℕ} {β : Type}

/-! ## The drain thread -/

/-- The records that wait in the ring. -/
def waiting (q : Queue (Words w β)) : ℕ := q.pushed.length - q.popped.length

/-- The accesses the drain still needs after the flag is set. -/
def Drain.cost (d : Drain w β) (consumer : SpscRing.Consumer w β) (waiting : ℕ) : ℕ :=
  let unseen := if d.stopSeen then 0 else 6
  let rest := unseen + (2 * w + 6) * waiting
  match d.phase with
  | .popping =>
    match consumer with
    | .idle => rest + 5
    | .loaded _ _ => rest + 4
    | .copy _ _ _ out _ copied => unseen + (2 * w + 6) * (waiting - out.length) + (w + 5) * out.length + 3 - copied
  | .writing batch => rest + batch.length + 6
  | .checking => rest + 2
  | .closing => 1
  | .finished => 0

/-- What a copy under way still needs, in the terms of the cost. -/
theorem copy_bound {w m k copied : ℕ} (hcopied : copied ≤ w) (hopen : 0 < copied → 0 < m) :
    copied ≤ (2 * w + 6) * m + (w + 5) * k := by
  rcases Nat.eq_zero_or_pos copied with rfl | hpos
  · exact Nat.zero_le _
  · have hrest : (2 * w + 6) * 1 ≤ (2 * w + 6) * m := Nat.mul_le_mul_left _ (hopen hpos)
    omega

variable [Inhabited β] {image : Image w β} {header : Bytes} {cycles : List ControlRecord} {s : System w β}
  {q : Queue (Words w β)} {cached : ℕ} {written : List (Words w β)}

omit [Inhabited β] in
/-- While the consumer copies, something is left before the head it has read. -/
theorem copying_lt {popped out n max : ℕ} (hstart : popped + out ≤ n)
    (hmore : (BitVec.ofNat 64 (popped + out) != BitVec.ofNat 64 n && out < max) = true) : popped + out < n := by
  refine hstart.lt_of_ne fun hsame => ?_
  rw [hsame, bne_self_eq_false, Bool.false_and] at hmore
  nomatch hmore

/-- An access of a pop costs. -/
theorem Inv.cost_pop (h : Inv image header cycles s q cached written) (hpopping : s.drain.phase = .popping) (o : Outcome) :
    (drainStep image s o).drain.cost (drainStep image s o).ring.consumer
        (waiting (q.after (SpscRing.popBatch s.ring kBatch).2)) <
      s.drain.cost s.ring.consumer (waiting q) := by
  rw [drainStep_popping hpopping]
  have hconsumer := h.ring.consumer
  have hreading := h.reading
  have hnear : q.pushed.length ≤ q.popped.length + SpscRing.kSlots :=
    h.ring.within.trans (Nat.add_le_add_right h.ring.behind _)
  have hstep := SpscRing.popStep s.ring kBatch
  unfold Drain.cost
  rw [hpopping]
  generalize s.ring.consumer = consumer at hconsumer hreading hstep
  generalize hconsumer' : (SpscRing.popBatch s.ring kBatch).1.consumer = consumer' at hstep
  generalize (SpscRing.popBatch s.ring kBatch).2 = event at hstep
  dsimp only
  generalize (if s.drain.stopSeen = true then 0 else 6) = unseen
  cases hstep with
  | load =>
    simp only [afterPop, Queue.after]
    omega
  | start =>
    simp only [afterPop, Queue.after, List.length_nil, Nat.sub_zero, Nat.mul_zero, Nat.add_zero]
    omega
  | @word m head tail out copied next next' hmore hword =>
    cases hconsumer with
    | @copy _ n _ _ _ hstart hend hout hopen hcopied hwords =>
      have hlt := copying_lt hstart hmore
      have hone := Nat.mul_le_mul_left (2 * w + 6) (show 1 ≤ waiting q - out.length by unfold waiting; omega)
      simp only [afterPop, Queue.after]
      omega
  | @record m head tail out copied next hmore hdone =>
    cases hconsumer with
    | @copy _ n _ _ _ hstart hend hout hopen hcopied hwords =>
      have hlt := copying_lt hstart hmore
      obtain ⟨m, hm⟩ : ∃ m, waiting q - out.length = m + 1 := ⟨waiting q - out.length - 1, by unfold waiting; omega⟩
      have hnext : waiting q - (out.length + 1) = m := by omega
      simp only [afterPop, Queue.after, List.length_append, List.length_singleton, hm, hnext, Nat.mul_succ]
      omega
  | @finish m head tail out copied next hempty =>
    cases hconsumer with
    | @copy _ n _ _ _ hstart hend hout hopen hcopied hwords =>
      have hleft : waiting (q.after (some (.popped out))) = waiting q - out.length := by
        rw [waiting, Queue.popped_after_popped, List.length_append, waiting, Nat.sub_add_eq]
        rfl
      rw [hleft]
      cases out with
      | nil =>
        -- Nothing is being copied when nothing is left.
        obtain rfl : m = kBatch := (hreading _ rfl).1
        have hnone : q.popped.length = n := by
          rw [List.length_nil, decide_eq_true (show 0 < kBatch by decide), Bool.and_true, bne_eq_false_iff_eq] at hempty
          exact (SpscRing.ofNat_inj_of_near hstart (hend.trans hnear)).mp hempty
        have hcopied : ¬0 < copied := fun hpos => (hopen hpos).ne hnone
        simp only [afterPop, List.length_nil, Nat.sub_zero, Nat.mul_zero, Nat.add_zero]
        omega
      | cons r rest =>
        have hwritten : (w + 5) * (rest.length + 1) = w * rest.length + w + 5 * rest.length + 5 := by ring
        simp only [afterPop, List.length_cons, hwritten]
        omega

/-- An access beside a pop costs, once the flag is set. -/
theorem Inv.cost_work (h : Inv image header cycles s q cached written) (hstop : s.stop = true)
    (hbusy : s.drain.phase ≠ .popping) (hend : s.drain.phase ≠ .finished) (o : Outcome) :
    (drainStep image s o).drain.cost (drainStep image s o).ring.consumer (waiting q) <
      s.drain.cost s.ring.consumer (waiting q) := by
  have hidle : s.ring.consumer = .idle := h.resting.resolve_right hbusy
  cases hphase : s.drain.phase with
  | popping => exact absurd hphase hbusy
  | writing batch =>
    cases batch with
    | nil =>
      rw [drainStep_written hphase]
      simp only [Drain.cost, hphase, hidle, List.length_nil]
      omega
    | cons r rest =>
      rw [drainStep_writing hphase]
      simp only [Drain.cost, hphase, Drain.stopSeen_writeRecord, List.length_cons]
      omega
  | checking =>
    rw [drainStep_checking hphase]
    split
    · simp only [Drain.cost, hphase]
      omega
    · rename_i hunseen
      simp only [Drain.cost, hphase, hidle, hunseen, if_true, Bool.false_eq_true, if_false]
      omega
  | closing =>
    obtain ⟨hseen, hfinished⟩ := s.drain.close_keeps o
    rw [drainStep_closing hphase]
    simp only [Drain.cost, hphase, hfinished]
    omega
  | finished => exact absurd hphase hend

/-- The flag stays set. -/
theorem stop_drainStep (s : System w β) (o : Outcome) : (drainStep image s o).stop = s.stop := by
  unfold drainStep
  repeat' split
  all_goals rfl

/-- After the flag is set an access of the drain costs, until it has ended. -/
theorem Inv.cost_drain (h : Inv image header cycles s q cached written) (hfits : ∀ r ∈ cycles, FittingCounts r)
    (hstop : s.stop = true) (hend : s.drain.phase ≠ .finished) {o : Outcome} (hstores : o.Stores) :
    ∃ q' cached' written', Inv image header cycles (drainStep image s o) q' cached' written' ∧
      (drainStep image s o).drain.cost (drainStep image s o).ring.consumer (waiting q') <
        s.drain.cost s.ring.consumer (waiting q) := by
  by_cases hpopping : s.drain.phase = .popping
  · obtain ⟨cached', hnext⟩ := h.pop hpopping o
    exact ⟨_, cached', written, hnext, h.cost_pop hpopping o⟩
  · obtain ⟨written', hnext⟩ := h.work hfits hpopping (.inl hstores)
    exact ⟨q, cached, written', hnext, h.cost_work hstop hpopping hend o⟩

/-- A drain that has ended stays ended. -/
theorem run_finished (h : s.drain.phase = .finished) (outcomes : List Outcome) :
    run image s (outcomes.map .drain) = s := by
  induction outcomes with
  | nil => rfl
  | cons o outcomes ih =>
    have hstep : step image s (.drain o) = s := drainStep_finished h o
    rw [List.map_cons, run, List.foldl_cons, hstep]
    exact ih

/-- After the flag is set the drain ends, if it is let run. -/
theorem Inv.ends (h : Inv image header cycles s q cached written) (hfits : ∀ r ∈ cycles, FittingCounts r)
    (hstop : s.stop = true) {outcomes : List Outcome} (hstores : ∀ o ∈ outcomes, o.Stores)
    (hlong : s.drain.cost s.ring.consumer (waiting q) ≤ outcomes.length) :
    (run image s (outcomes.map .drain)).drain.phase = .finished := by
  induction outcomes generalizing s q cached written with
  | nil =>
    by_contra hend
    have hgood : (⟨142, .error 0, true, true⟩ : Outcome).Stores := ⟨by decide, rfl⟩
    obtain ⟨q', -, -, -, hcost⟩ := h.cost_drain hfits hstop hend hgood
    rw [List.length_nil] at hlong
    omega
  | cons o outcomes ih =>
    by_cases hend : s.drain.phase = .finished
    · rw [run_finished hend]
      exact hend
    · obtain ⟨q', cached', written', hnext, hcost⟩ := h.cost_drain hfits hstop hend (hstores o (List.mem_cons_self ..))
      rw [List.length_cons] at hlong
      exact ih hnext ((stop_drainStep s o).trans hstop) (fun o' ho' => hstores o' (List.mem_cons_of_mem _ ho'))
        (Nat.le_of_lt_succ (hcost.trans_le hlong))

/-! ## The control thread -/

/-- The accesses a push under way still needs. -/
def pushCost : SpscRing.Producer w β → ℕ
  | .idle => 0
  | .reload _ _ => w + 2
  | .write _ _ copied => w + 1 - copied

/-- The accesses the control thread still needs to set the flag. -/
def System.cost (s : System w β) : ℕ := s.todo.length * (w + 4) + pushCost s.ring.producer

omit [Inhabited β] in
/-- The first access of a push leaves the others. -/
theorem pushCost_begin {ring : SpscRing.System w β} (h : ring.producer = .idle) (r : Words w β) :
    pushCost (SpscRing.tryPush ring r).1.producer ≤ w + 2 := by
  unfold SpscRing.tryPush
  rw [h]
  dsimp only
  split
  · exact le_rfl
  · exact Nat.le_succ (w + 1)

omit [Inhabited β] in
/-- A later access of a push costs. -/
theorem pushCost_busy {ring : SpscRing.System w β} (hring : SpscRing.Inv ring q cached) (h : ring.producer ≠ .idle)
    (r : Words w β) : pushCost (SpscRing.tryPush ring r).1.producer < pushCost ring.producer := by
  have hproducer := hring.producer
  unfold SpscRing.tryPush
  generalize ring.producer = producer at h hproducer
  cases hproducer with
  | idle => exact absurd rfl h
  | reload hfull =>
    dsimp only
    split
    · exact Nat.succ_pos _
    · exact Nat.lt_succ_self (w + 1)
  | write hroom hcopied hwords =>
    dsimp only
    split
    · simp only [pushCost]
      omega
    · simp only [pushCost]
      omega

/-- An access of the control thread costs, or sets the flag. -/
theorem Inv.cost_control (h : Inv image header cycles s q cached written) :
    (controlStep image s).stop = true ∨ (controlStep image s).cost < s.cost := by
  cases hrecord : s.ring.producer.record with
  | none =>
    have hidle := record_eq_none.mp hrecord
    cases htodo : s.todo with
    | nil =>
      rw [controlStep_stop hidle htodo]
      exact .inl rfl
    | cons r rest =>
      rw [controlStep_begin hidle htodo]
      have hbegin := pushCost_begin hidle (image.store (stamped r s.ring.ring.drops))
      simp only [System.cost, htodo, List.length_cons, Nat.succ_mul]
      omega
  | some r =>
    rw [controlStep_busy hrecord]
    have hbusy : s.ring.producer ≠ .idle := fun hidle => by
      rw [hidle] at hrecord
      nomatch hrecord
    exact .inr (Nat.add_lt_add_left (pushCost_busy h.ring hbusy default) _)

/-- The flag stays set. -/
theorem stop_controlStep (h : s.stop = true) : (controlStep image s).stop = true := by
  unfold controlStep
  split
  · rfl
  · exact h
  · exact h

/-- The control thread leaves the flag set. -/
theorem stop_run_control (h : s.stop = true) (n : ℕ) : (run image s (List.replicate n .control)).stop = true := by
  induction n generalizing s with
  | zero => exact h
  | succ n ih => exact ih (stop_controlStep h)

/-- The control thread sets the flag, if it is let run. -/
theorem Inv.stops (h : Inv image header cycles s q cached written) {n : ℕ} (hlong : s.cost < n) :
    (run image s (List.replicate n .control)).stop = true := by
  induction n generalizing s q cached with
  | zero => exact absurd hlong (Nat.not_lt_zero _)
  | succ n ih =>
    obtain ⟨q', cached', hnext⟩ := h.control
    rcases h.cost_control with hstop | hcost
    · exact stop_run_control hstop n
    · exact ih hnext (hcost.trans_le (Nat.le_of_lt_succ hlong))

/-- An access adds answers and takes none back. -/
theorem answers_step (image : Image w β) (s : System w β) (move : Move) : s.answers <+: (step image s move).answers := by
  cases move with
  | control =>
    simp only [step, controlStep]
    split
    · exact List.prefix_rfl
    · exact List.prefix_rfl
    · dsimp only
      unfold noteAnswer
      split
      · exact List.prefix_append ..
      · exact List.prefix_append ..
      · exact List.prefix_rfl
  | drain o =>
    rw [step]
    cases hphase : s.drain.phase with
    | popping => rw [drainStep_popping hphase]
    | writing batch =>
      cases batch with
      | nil => rw [drainStep_written hphase]
      | cons r rest => rw [drainStep_writing hphase]
    | checking =>
      rw [drainStep_checking hphase]
      repeat' split
      all_goals exact List.prefix_rfl
    | closing => rw [drainStep_closing hphase]
    | finished => rw [drainStep_finished hphase]

/-- A push that is under way copies one more word, or is answered. -/
theorem control_writing (image : Image w β) {s : System w β} {r : Words w β} {head : U64} {copied : ℕ}
    (h : s.ring.producer = .write r head copied) :
    (controlStep image s).answers = s.answers ++ (if copied < w then [] else [true]) ∧
      (controlStep image s).ring.producer = if copied < w then .write r head (copied + 1) else .idle := by
  unfold controlStep
  rw [h]
  dsimp only
  unfold SpscRing.tryPush
  rw [h]
  dsimp only
  split <;> simp [noteAnswer]

/-- A run that goes on keeps the answers that it had. -/
theorem answers_run (image : Image w β) (s : System w β) (moves : List Move) :
    s.answers <+: (run image s moves).answers := by
  induction moves using List.reverseRecOn with
  | nil => exact List.prefix_rfl
  | append_singleton moves move ih =>
    rw [run_append]
    exact ih.trans (answers_step image _ move)

omit [Inhabited β] in
/-- Writing a record leaves the ground link open or closed. -/
theorem Drain.connected_writeRecord (d : Drain w β) (r : ControlRecord) (o : Outcome) :
    (d.writeRecord r o).connected = d.connected := by
  unfold Drain.writeRecord
  split
  · rfl
  · dsimp only
    repeat' split
    all_goals rfl

/-- An access whose write is stored finds no failure when there is no ground link. -/
theorem unfailing_step {image : Image w β} {header : Bytes} {cycles : List ControlRecord} {s : System w β}
    {q : BoundedQueue.Queue (Words w β)} {cached : ℕ} {written : List (Words w β)}
    (h : Inv image header cycles s q cached written) (hfits : ∀ r ∈ cycles, FittingCounts r)
    (hsound : s.drain.writeFailed = false ∧ s.drain.connected = false) {move : Move} (hstores : move.Stores) :
    (step image s move).drain.writeFailed = false ∧ (step image s move).drain.connected = false := by
  cases move with
  | control =>
    simp only [step, controlStep]
    split <;> exact hsound
  | drain o =>
    rw [step]
    cases hphase : s.drain.phase with
    | popping =>
      rw [drainStep_popping hphase]
      exact hsound
    | writing batch =>
      cases batch with
      | nil =>
        rw [drainStep_written hphase]
        exact hsound
      | cons r rest =>
        rw [drainStep_writing hphase]
        have hplace := h.place
        rw [hphase] at hplace
        have hpopped : r ∈ q.popped := by
          cases hplace with
          | writing hwritten => simp [hwritten]
        have hr := h.fitting hfits (h.ring.order.subset hpopped)
        obtain ⟨-, hsame⟩ := h.holds.concat hr (.inl hstores)
        have hlinked := s.drain.connected_writeRecord (image.load r) o
        generalize s.drain.writeRecord (image.load r) o = d at hsame hlinked
        exact ⟨hsame.trans hsound.1, hlinked.trans hsound.2⟩
    | checking =>
      rw [drainStep_checking hphase]
      repeat' split
      all_goals exact hsound
    | closing =>
      rw [drainStep_closing hphase]
      unfold Drain.close
      dsimp only
      rw [if_pos hstores.2, hsound.2, Bool.and_false, if_neg Bool.false_ne_true]
      exact ⟨hsound.1, rfl⟩
    | finished =>
      rw [drainStep_finished hphase]
      exact hsound

/-- A run whose writes are stored finds no failure when there is no ground link. -/
theorem unfailing_run (image : Image w β) (header : Bytes) {cycles : List ControlRecord}
    (hfits : ∀ r ∈ cycles, FittingCounts r) (slots : Fin SpscRing.kSlots → Words w β) {moves : List Move}
    (hstores : ∀ move ∈ moves, move.Stores) :
    (run image (initial slots header false cycles) moves).drain.writeFailed = false := by
  suffices h : (run image (initial slots header false cycles) moves).drain.writeFailed = false ∧
      (run image (initial slots header false cycles) moves).drain.connected = false from h.1
  induction moves using List.reverseRecOn with
  | nil => exact ⟨rfl, rfl⟩
  | append_singleton moves move ih =>
    have hbefore : ∀ m ∈ moves, m.Stores := fun m hm => hstores m (List.mem_append_left _ hm)
    obtain ⟨q, cached, written, h⟩ := inv_run image header false hfits slots moves (.inl hbefore)
    rw [run_append]
    exact unfailing_step h hfits (ih hbefore) (hstores move (by simp))

/-- Every run can be continued to one in which the drain has ended. -/
theorem can_end (image : Image w β) (header : Bytes) (connected : Bool) {cycles : List ControlRecord}
    (hfits : ∀ r ∈ cycles, FittingCounts r) (slots : Fin SpscRing.kSlots → Words w β) {moves : List Move}
    (hstores : ∀ move ∈ moves, move.Stores) :
    ∃ more, (∀ move ∈ moves ++ more, move.Stores) ∧
      (run image (initial slots header connected cycles) (moves ++ more)).drain.phase = .finished := by
  obtain ⟨q, cached, written, h⟩ := inv_run image header connected hfits slots moves (.inl hstores)
  have hstop := h.stops (Nat.lt_succ_self _)
  generalize Nat.succ _ = n at hstop
  have hstores' : ∀ move ∈ moves ++ List.replicate n .control, move.Stores := by
    intro move hmove
    rcases List.mem_append.mp hmove with hold | hnew
    · exact hstores move hold
    · rw [List.eq_of_mem_replicate hnew]
      trivial
  obtain ⟨q', cached', written', h'⟩ := inv_run image header connected hfits slots _ (.inl hstores')
  rw [← run_append] at hstop
  let good : Outcome := ⟨142, .error 0, true, true⟩
  have hgood : ∀ m, ∀ o ∈ List.replicate m good, o.Stores := by
    intro m o ho
    rw [List.eq_of_mem_replicate ho]
    exact ⟨by decide, rfl⟩
  have hends := h'.ends hfits hstop (hgood _) (List.length_replicate (a := good)).ge
  rw [← run_append, List.append_assoc] at hends
  refine ⟨_, fun move hmove => ?_, hends⟩
  rw [← List.append_assoc] at hmove
  rcases List.mem_append.mp hmove with hold | hnew
  · exact hstores' move hold
  · obtain ⟨o, ho, rfl⟩ := List.mem_map.mp hnew
    exact hgood _ o ho

end Tvc.Recorder
