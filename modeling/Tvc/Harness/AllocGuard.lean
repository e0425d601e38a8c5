import Mathlib.Data.List.Basic
import Mathlib.Data.List.Induction
import Mathlib.Data.Option.Basic
import Mathlib.Algebra.Order.Group.Int

/-!
# The heap guard of `src/alloc_guard.cpp`

Every form of `operator new` and `operator delete` looks at the mode, which all threads share, and at the number of
`Cycle` objects alive on its own thread. What it finds there is a matter of order: a run is an interleaving of the
threads, and each access to the mode is one step of it.

The state is what the guard remembers. What it is supposed to mean is told by the history: which operations were made
while a cycle of their own thread was in flight, under which mode, and since when the thread counts.
-/

namespace Tvc.Guard

/-- `guard::Mode`. -/
inductive Mode
  | off
  | count
  | abort
  deriving DecidableEq, Repr

/-- The variables of a thread. -/
structure Local where
  depth : ℤ := 0
  allocs : ℕ := 0
  frees : ℕ := 0
  largest : ℕ := 0
  deriving DecidableEq, Repr

/-- The guard of a process; `τ` are its threads. -/
structure State (τ : Type) where
  mode : Mode := .off
  threads : τ → Local := fun _ => {}

/-- What a thread does that concerns the guard: `Cycle()` and `~Cycle()` are `enter` and `leave`. -/
inductive Event
  | setMode (m : Mode)
  | resetTally
  | enter
  | leave
  | new (bytes : ℕ)
  | delete (null : Bool)
  deriving DecidableEq, Repr

/-- `note_alloc`, if the process survives it. -/
def noteAlloc (m : Mode) (l : Local) (bytes : ℕ) : Option Local :=
  if m == .off || l.depth == 0 then some l
  else if m == .abort then none
  else some { l with allocs := l.allocs + 1, largest := if l.largest < bytes then bytes else l.largest }

/-- `note_free`, if the process survives it. -/
def noteFree (m : Mode) (l : Local) : Option Local :=
  if m == .off || l.depth == 0 then some l
  else if m == .abort then none
  else some { l with frees := l.frees + 1 }

variable {τ : Type} [DecidableEq τ]

/-- The guard with other variables of one thread. -/
def State.put (s : State τ) (t : τ) (l : Local) : State τ := { s with threads := Function.update s.threads t l }

/-- One step of a thread, if the process survives it. -/
def State.step (s : State τ) (x : τ × Event) : Option (State τ) :=
  let l := s.threads x.1
  match x.2 with
  | .setMode m => some { s with mode := m }
  | .resetTally => some (s.put x.1 { l with allocs := 0, frees := 0, largest := 0 })
  | .enter => some (s.put x.1 { l with depth := l.depth + 1 })
  | .leave => some (s.put x.1 { l with depth := l.depth - 1 })
  | .new bytes => (noteAlloc s.mode l bytes).map (s.put x.1)
  | .delete null => if null then some s else (noteFree s.mode l).map (s.put x.1)

/-- An interleaving of the threads, if the process survives it. -/
def run (events : List (τ × Event)) : Option (State τ) := events.foldlM State.step {}

/-! ## What the history says -/

/-- The mode after a history. -/
def policy (events : List (τ × Event)) : Mode :=
  events.foldl (fun m x => match x.2 with | .setMode m' => m' | _ => m) .off

/-- The cycles alive on a thread after a history. -/
def alive (t : τ) (events : List (τ × Event)) : ℤ := events.count (t, .enter) - events.count (t, .leave)

/-- The thread resets its tally from a place of the history on. -/
def resetAfter (t : τ) (events : List (τ × Event)) (i : ℕ) : Bool := (events.drop i).contains (t, .resetTally)

/-- After a history the thread has a cycle in flight under `Count`. -/
def counting (t : τ) (events : List (τ × Event)) : Bool := alive t events != 0 && policy events == .count

/-- At a place of the history the thread counts, and it has not reset its tally since. -/
def counted (t : τ) (events : List (τ × Event)) (i : ℕ) : Bool :=
  counting t (events.take i) && !resetAfter t events i

/-- The places of the history at which the heap operations of the thread count. -/
def places (t : τ) (events : List (τ × Event)) : List ℕ := (List.range events.length).filter (counted t events)

/-- The size of an allocation of the thread. -/
def allocBy (t : τ) : τ × Event → Option ℕ
  | (u, .new bytes) => if u = t then some bytes else none
  | _ => none

/-- The sizes of the allocations that count. -/
def allocSizes (t : τ) (events : List (τ × Event)) : List ℕ :=
  (places t events).filterMap fun i => events[i]?.bind (allocBy t)

/-- The frees that count, by their places. -/
def freePlaces (t : τ) (events : List (τ × Event)) : List ℕ :=
  (places t events).filter fun i => events[i]? == some (t, .delete false)

/-- The guard has to end the process at this event. -/
def Fatal (before : List (τ × Event)) (x : τ × Event) : Prop :=
  policy before = .abort ∧ alive x.1 before ≠ 0 ∧ ((∃ bytes, x.2 = .new bytes) ∨ x.2 = .delete false)

/-- The variables of a thread as the history tells them. -/
def told (t : τ) (events : List (τ × Event)) : Local where
  depth := alive t events
  allocs := (allocSizes t events).length
  frees := (freePlaces t events).length
  largest := (allocSizes t events).foldl max 0

/-! ## One more event -/

variable (t : τ) (events : List (τ × Event)) (x : τ × Event)

omit [DecidableEq τ] in
/-- The mode after one more event. -/
theorem policy_concat : policy (events ++ [x]) = match x.2 with | .setMode m => m | _ => policy events := by
  rw [policy, List.foldl_append]
  rfl

/-- The cycles after one more event. -/
theorem alive_concat :
    alive t (events ++ [x]) =
      alive t events + (if x = (t, .enter) then 1 else 0) - (if x = (t, .leave) then 1 else 0) := by
  unfold alive
  rw [List.count_append, List.count_append, List.count_singleton, List.count_singleton]
  simp only [beq_iff_eq]
  split <;> split <;> push_cast <;> omega

/-- The places that count after one more event: a reset of the thread forgets those before. -/
theorem places_concat :
    places t (events ++ [x]) =
      if x = (t, .resetTally) then []
      else places t events ++ if counting t events then [events.length] else [] := by
  have hbefore (i : ℕ) (hi : i ≤ events.length) :
      counted t (events ++ [x]) i =
        (counting t (events.take i) && !(resetAfter t events i || decide (x = (t, .resetTally)))) := by
    unfold counted resetAfter
    rw [List.take_append_of_le_length hi, List.drop_append_of_le_length hi, List.contains_eq_mem, List.contains_eq_mem]
    simp [eq_comm]
  unfold places
  rw [List.length_append, List.length_singleton, List.range_succ, List.filter_append, List.filter_singleton,
    hbefore _ le_rfl, List.take_length]
  split
  · rename_i hreset
    rw [List.filter_eq_nil_iff.mpr fun i hi => ?_]
    · simp [hreset]
    · rw [hbefore i (List.mem_range.mp hi).le, decide_eq_true hreset]
      simp
  · rename_i hreset
    have hnone : resetAfter t events events.length = false := by
      unfold resetAfter
      rw [List.drop_length]
      rfl
    rw [List.filter_congr fun i hi => (?_ : counted t (events ++ [x]) i = counted t events i), hnone]
    · simp [hreset]
    · rw [hbefore i (List.mem_range.mp hi).le, decide_eq_false hreset, Bool.or_false]
      rfl

/-- The places that count lie in the history. -/
theorem mem_places {i : ℕ} (hi : i ∈ places t events) : i < events.length :=
  List.mem_range.mp (List.mem_filter.mp hi).1

/-- The allocations that count after one more event. -/
theorem allocSizes_concat :
    allocSizes t (events ++ [x]) =
      if x = (t, .resetTally) then []
      else allocSizes t events ++ if counting t events then (allocBy t x).toList else [] := by
  unfold allocSizes
  rw [places_concat]
  split
  · rfl
  rw [List.filterMap_append]
  congr 1
  · refine List.filterMap_congr fun i hi => ?_
    rw [List.getElem?_append_left (mem_places t events hi)]
  · cases counting t events with
    | false => rfl
    | true =>
      simp only [if_true, List.filterMap_cons, List.filterMap_nil, List.getElem?_concat_length, Option.bind_some]
      cases allocBy t x <;> rfl

/-- The frees that count after one more event. -/
theorem freePlaces_concat :
    (freePlaces t (events ++ [x])).length =
      if x = (t, .resetTally) then 0
      else (freePlaces t events).length + if counting t events && x == (t, .delete false) then 1 else 0 := by
  unfold freePlaces
  rw [places_concat]
  split
  · rfl
  rw [List.filter_append, List.length_append]
  congr 1
  · rw [List.filter_congr fun i hi => ?_]
    rw [List.getElem?_append_left (mem_places t events hi)]
  · cases counting t events with
    | false => rfl
    | true =>
      rw [if_pos rfl, List.filter_singleton, List.getElem?_concat_length, Bool.true_and]
      have hsome : (some x == some (t, Event.delete false)) = (x == (t, .delete false)) := rfl
      rw [hsome]
      cases x == (t, .delete false) <;> rfl

/-- The variables of a thread after an event of its own. -/
def Local.after (l : Local) (counts : Bool) : Event → Local
  | .setMode _ => l
  | .resetTally => { l with allocs := 0, frees := 0, largest := 0 }
  | .enter => { l with depth := l.depth + 1 }
  | .leave => { l with depth := l.depth - 1 }
  | .new bytes => if counts then { l with allocs := l.allocs + 1, largest := max l.largest bytes } else l
  | .delete null => if counts && !null then { l with frees := l.frees + 1 } else l

/-- What the history tells of a thread changes by the events of the thread alone. -/
theorem told_concat (u : τ) (e : Event) :
    told t (events ++ [(u, e)]) = if u = t then (told t events).after (counting t events) e else told t events := by
  unfold told
  rw [alive_concat, allocSizes_concat, freePlaces_concat]
  by_cases hu : u = t
  · subst hu
    rw [if_pos rfl]
    cases e with
    | setMode m => simp [Local.after, allocBy]
    | resetTally => simp [Local.after]
    | enter => simp [Local.after, allocBy]
    | leave => simp [Local.after, allocBy]
    | new bytes => cases counting u events <;> simp [Local.after, allocBy, List.foldl_append]
    | delete null => cases counting u events <;> cases null <;> simp [Local.after, allocBy]
  · rw [if_neg hu]
    have hnone : allocBy t (u, e) = none := by
      cases e with
      | new bytes => exact if_neg hu
      | _ => rfl
    simp [hu, hnone]

/-- An allocation ends the process in flight under `Abort`, and is counted in flight under `Count`. -/
theorem noteAlloc_eq (m : Mode) (l : Local) (bytes : ℕ) :
    noteAlloc m l bytes =
      if m = .abort ∧ l.depth ≠ 0 then none else some (l.after (l.depth != 0 && m == .count) (.new bytes)) := by
  have hmax : (if l.largest < bytes then bytes else l.largest) = max l.largest bytes := by
    split <;> omega
  unfold noteAlloc
  rw [hmax]
  by_cases hdepth : l.depth = 0 <;> cases m <;> simp [hdepth, Local.after]

/-- So does a free. -/
theorem noteFree_eq (m : Mode) (l : Local) :
    noteFree m l =
      if m = .abort ∧ l.depth ≠ 0 then none else some (l.after (l.depth != 0 && m == .count) (.delete false)) := by
  unfold noteFree
  by_cases hdepth : l.depth = 0 <;> cases m <;> simp [hdepth, Local.after]

/-- The guard remembers what the history tells. -/
structure Remembers (s : State τ) (events : List (τ × Event)) : Prop where
  mode : s.mode = policy events
  threads : ∀ t, s.threads t = told t events

variable {events} {s s' : State τ}

/-- A step of the guard ends the process exactly if it has to, and otherwise remembers the event. -/
theorem Remembers.step (h : Remembers s events) (x : τ × Event) :
    (Fatal events x → s.step x = none) ∧
      (¬Fatal events x → ∃ s', s.step x = some s' ∧ Remembers s' (events ++ [x])) := by
  obtain ⟨u, e⟩ := x
  have hdepth : (s.threads u).depth = alive u events := by rw [h.threads u]; rfl
  -- Variables of the thread that follow the history are what is remembered.
  have hput {l : Local} (hl : l = (told u events).after (counting u events) e) (hmode : ∀ m, e ≠ .setMode m) :
      Remembers (s.put u l) (events ++ [(u, e)]) := by
    refine ⟨?_, fun t => ?_⟩
    · rw [policy_concat]
      cases e with
      | setMode m => exact absurd rfl (hmode m)
      | _ => exact h.mode
    · rw [told_concat]
      unfold State.put
      by_cases hu : u = t
      · subst hu
        rw [if_pos rfl, ← hl]
        exact Function.update_self ..
      · rw [if_neg hu, ← h.threads t]
        exact Function.update_of_ne (Ne.symm hu) ..
  -- A heap operation of the thread, by what `note_alloc` and `note_free` make of it.
  have hheap (hmode : ∀ m, e ≠ .setMode m) (hoperation : (∃ bytes, e = .new bytes) ∨ e = .delete false)
      (hstep : s.step (u, e) = if s.mode = .abort ∧ (s.threads u).depth ≠ 0 then none
        else some (s.put u ((s.threads u).after ((s.threads u).depth != 0 && s.mode == .count) e))) :
      (Fatal events (u, e) → s.step (u, e) = none) ∧
        (¬Fatal events (u, e) → ∃ s', s.step (u, e) = some s' ∧ Remembers s' (events ++ [(u, e)])) := by
    rw [hstep, hdepth, h.mode]
    refine ⟨fun hfatal => if_pos ⟨hfatal.1, hfatal.2.1⟩, fun hsafe => ?_⟩
    rw [if_neg fun hboth => hsafe ⟨hboth.1, hboth.2, hoperation⟩]
    refine ⟨_, rfl, hput ?_ hmode⟩
    rw [h.threads u]
    rfl
  -- Nothing else can end the process.
  have hcalm (hother : ¬((∃ bytes, e = .new bytes) ∨ e = .delete false)) (hmode : ∀ m, e ≠ .setMode m) {l : Local}
      (hstep : s.step (u, e) = some (s.put u l)) (hl : l = (told u events).after (counting u events) e) :
      (Fatal events (u, e) → s.step (u, e) = none) ∧
        (¬Fatal events (u, e) → ∃ s', s.step (u, e) = some s' ∧ Remembers s' (events ++ [(u, e)])) :=
    ⟨fun hfatal => absurd hfatal.2.2 hother, fun _ => ⟨_, hstep, hput hl hmode⟩⟩
  cases e with
  | setMode m =>
    refine ⟨fun hfatal => absurd hfatal.2.2 (by simp), fun _ => ⟨_, rfl, ?_, fun t => ?_⟩⟩
    · rw [policy_concat]
    · rw [told_concat]
      by_cases hu : u = t
      · rw [if_pos hu]
        exact h.threads t
      · rw [if_neg hu]
        exact h.threads t
  | resetTally => exact hcalm (by simp) (by simp) rfl (by rw [h.threads u]; rfl)
  | enter => exact hcalm (by simp) (by simp) rfl (by rw [h.threads u]; rfl)
  | leave => exact hcalm (by simp) (by simp) rfl (by rw [h.threads u]; rfl)
  | new bytes =>
    refine hheap (by simp) (.inl ⟨bytes, rfl⟩) ?_
    change (noteAlloc s.mode (s.threads u) bytes).map (s.put u) = _
    rw [noteAlloc_eq]
    split <;> rfl
  | delete null =>
    cases null with
    | true =>
      have hsame : s.put u (s.threads u) = s := by
        unfold State.put
        rw [Function.update_eq_self]
      exact hcalm (by simp) (by simp) (l := s.threads u) (by rw [hsame]; rfl)
        (by rw [h.threads u, Local.after, Bool.not_true, Bool.and_false]; rfl)
    | false =>
      refine hheap (by simp) (.inr rfl) ?_
      change (noteFree s.mode (s.threads u)).map (s.put u) = _
      rw [noteFree_eq]
      split <;> rfl

/-- Nothing has happened in the beginning. -/
theorem remembers_start : Remembers ({} : State τ) [] where
  mode := rfl
  threads := fun _ => rfl

/-- Under any interleaving the guard ends the process exactly when a thread allocates or frees memory under `Abort` with
a cycle of its own in flight. While the process lives, every thread's depth and tally are those of its own history:
the allocations, their largest size and the frees that it made in flight under `Count` since its last reset. -/
theorem run_guards (events : List (τ × Event)) :
    (run events = none ↔ ∃ before x after, events = before ++ x :: after ∧ Fatal before x) ∧
      ∀ s, run events = some s → s.mode = policy events ∧ ∀ t, s.threads t = told t events := by
  have hfollows : (run events = none ∧ ∃ before x after, events = before ++ x :: after ∧ Fatal before x) ∨
      ∃ s, run events = some s ∧ Remembers s events ∧
        ∀ before x after, events = before ++ x :: after → ¬Fatal before x := by
    induction events using List.reverseRecOn with
    | nil => exact .inr ⟨_, rfl, remembers_start, fun before x after h => absurd h (by simp)⟩
    | append_singleton events x ih =>
      have hrun : run (events ++ [x]) = (run events).bind fun s => s.step x := by
        unfold run
        rw [List.foldlM_append]
        cases events.foldlM State.step ({} : State τ) with
        | none => rfl
        | some s => exact bind_pure (s.step x)
      rcases ih with ⟨hnone, before, y, after, hsplit, hfatal⟩ | ⟨s, hs, hremembers, hsafe⟩
      · refine .inl ⟨by rw [hrun, hnone]; rfl, before, y, after ++ [x], ?_, hfatal⟩
        rw [hsplit, List.append_assoc]
        rfl
      · obtain ⟨hdies, hlives⟩ := hremembers.step x
        rw [hrun, hs]
        by_cases hfatal : Fatal events x
        · exact .inl ⟨hdies hfatal, events, x, [], rfl, hfatal⟩
        · obtain ⟨s', hs', hremembers'⟩ := hlives hfatal
          refine .inr ⟨s', hs', hremembers', fun before y after hsplit => ?_⟩
          rcases List.eq_nil_or_concat after with rfl | ⟨after, z, rfl⟩
          · obtain ⟨rfl, hy⟩ := List.append_inj' hsplit rfl
            rwa [← List.singleton_inj.mp hy]
          · rw [List.concat_eq_append, ← List.cons_append, ← List.append_assoc] at hsplit
            exact hsafe before y after (List.append_inj' hsplit rfl).1
  rcases hfollows with ⟨hnone, hsome⟩ | ⟨s, hs, hremembers, hsafe⟩
  · refine ⟨iff_of_true hnone hsome, fun s hs => ?_⟩
    rw [hnone] at hs
    exact absurd hs (by simp)
  · refine ⟨iff_of_false (by rw [hs]; simp) fun ⟨before, x, after, hsplit, hfatal⟩ => hsafe before x after hsplit hfatal,
      fun s' hs' => ?_⟩
    obtain rfl := Option.some.inj (hs.symm.trans hs')
    exact ⟨hremembers.mode, hremembers.threads⟩

end Tvc.Guard
