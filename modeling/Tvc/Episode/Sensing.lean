import Tvc.Episode.Settling

/-!
# Control authority without sensing

Both drivers of the policy hand it one input a cycle, at successive ticks, with the newest sample
held so far and its age. Over such inputs the policy commands nothing but what it computes from a
sample, or what it computed last; it goes on so for eight ticks at most, and ends the run when the
sample has grown old.
-/

namespace Tvc.Episode

variable {F : Type}

/-- The newest sample held after some inputs. -/
def heldAfter (history : List (EpisodeInput F)) : Option (Observation F) :=
  history.getLast?.bind EpisodeInput.held

@[simp] theorem heldAfter_nil : heldAfter ([] : List (EpisodeInput F)) = none := rfl

@[simp] theorem heldAfter_concat (history : List (EpisodeInput F)) (i : EpisodeInput F) :
    heldAfter (history ++ [i]) = i.held := by
  simp [heldAfter]

/-! ## What a cycle commands -/

section Cycle

variable [Arith F] {s : EpisodeState F} {i : EpisodeInput F} {r : EpisodeOutput F}

/-- Where the command of a cycle and the controller it leaves come from. -/
inductive Drove (s : EpisodeState F) (i : EpisodeInput F) (r : EpisodeOutput F) : Prop
  | controlled {o : Observation F} (hmode : r.state.mode = .flying) (hfresh : i.fresh = true)
      (hheld : i.held = some o) (hstep : (r.requestedDelta, r.state.pid) = Control.step s.pid o) : Drove s i r
  | coasted (hmode : r.state.mode = .flying) (hstale : i.fresh = false) (hage : i.staleness ≤ 8)
      (hdelta : r.requestedDelta = s.pid.lastDelta) (hpid : r.state.pid = s.pid) : Drove s i r
  | neutral (hdelta : r.requestedDelta = 0.0) (hpid : r.state.pid = s.pid)
      (hidle : i.fresh = true → r.state.mode ≠ .flying) : Drove s i r

/-- Driving commands one of the things it can command. -/
theorem drive_drove {before : EpisodeState F} {acks : List Ack} (hheld : i.fresh = true → i.held.isSome = true)
    (hended : s.terminal.isSome = true → s.mode = .terminated) (hpid : s.pid = before.pid) :
    Drove before i ⟨(drive s i).1, (drive s i).2, acks⟩ := by
  unfold drive
  split
  · rename_i hterminal
    exact .neutral rfl hpid fun _ => by simp [hended hterminal]
  · dsimp only
    generalize autoMode s.autoArm i.fresh s.mode = mode
    rw [hpid]
    unfold command
    cases hmode : mode == .flying with
    | false => exact .neutral rfl rfl fun _ => by simpa using hmode
    | true =>
      have hmode : mode = .flying := beq_iff_eq.mp hmode
      cases hfresh : i.fresh with
      | true =>
        obtain ⟨o, ho⟩ := Option.isSome_iff_exists.mp (hheld hfresh)
        simp only [if_true, ho]
        exact .controlled hmode hfresh ho rfl
      | false =>
        simp only [if_true, Bool.false_eq_true, if_false]
        split
        · rename_i hage
          exact .coasted hmode hfresh hage rfl rfl
        · exact .neutral rfl rfl fun h => absurd (hfresh.symm.trans h) Bool.false_ne_true

/-- A cycle commands one of the things it can command. -/
theorem step_drove {last : Option ℕ} (h : Sound last s) (hheld : i.fresh = true → i.held.isSome = true) :
    Drove s i (step s i) := by
  have houtcome := step_outcome s i
  generalize step s i = r at houtcome
  cases houtcome with
  | ended hmode => exact .neutral rfl rfl fun _ => by simp [hmode]
  | stopped => exact .neutral rfl rfl fun _ => by simp [terminate]
  | ran hlive _ hhandled =>
    have hended := (hhandled.sound rfl hlive fun c hc => (h.pending c hc).1).1.mpr
    exact drive_drove hheld hended hhandled.pid_eq

/-- A cycle that leaves the machine live was given a sample that is not too old. -/
theorem staleness_of_live (hstop : StopAllowed i) (hlive : (step s i).state.mode ≠ .terminated) :
    i.staleness ≤ 20 ∧ s.mode ≠ .terminated := by
  have houtcome := step_outcome s i
  generalize step s i = r at houtcome hlive
  cases houtcome with
  | ended hmode => exact absurd hmode hlive
  | stopped => exact absurd rfl hlive
  | ran hbefore hreason _ =>
    refine ⟨?_, hbefore⟩
    by_contra hold
    rw [endReason, terminalReason_eq] at hreason
    cases hcause : firstCause i (countSettled s.settleCount i.held == 1000) with
    | some reason =>
      rw [hcause] at hreason
      exact firstCause_ne_none hstop (hcause.trans (congrArg some hreason))
    | none =>
      have hnone := List.find?_eq_none.mp (Option.map_eq_none_iff.mp hcause) (decide (21 ≤ i.staleness), .sensorLost)
        (by simp [causes])
      exact hnone (decide_eq_true (by omega))

/-- The commands of a run. -/
def commands (autoArm : Bool) (history : List (EpisodeInput F)) : List F :=
  (Machine.run advance (initial autoArm) history).2.map EpisodeOutput.requestedDelta

/-- The command of one more cycle. -/
theorem commands_concat (autoArm : Bool) (history : List (EpisodeInput F)) (i : EpisodeInput F) :
    commands autoArm (history ++ [i]) =
      commands autoArm history ++ [(step (stateAfter autoArm history) i).requestedDelta] := by
  rw [commands, Machine.run_append, List.map_append]
  rfl

/-- The commands computed so far from fresh samples in flight. -/
def flown (autoArm : Bool) (history : List (EpisodeInput F)) : List F :=
  (history.zip (Machine.run advance (initial autoArm) history).2).filterMap fun x =>
    if x.1.fresh && x.2.state.mode == .flying then some x.2.requestedDelta else none

/-- The commands computed in one more cycle. -/
theorem flown_concat (autoArm : Bool) (history : List (EpisodeInput F)) (i : EpisodeInput F) :
    flown autoArm (history ++ [i]) = flown autoArm history ++
      if i.fresh && (step (stateAfter autoArm history) i).state.mode == .flying then
        [(step (stateAfter autoArm history) i).requestedDelta]
      else [] := by
  unfold flown
  rw [Machine.run_append, List.zip_append (Machine.run_length ..).symm, List.filterMap_append]
  have hlast : (Machine.run advance (Machine.run advance (initial autoArm) history).1 [i]).2 =
      [step (stateAfter autoArm history) i] := rfl
  rw [hlast, List.zip_cons_cons, List.zip_nil_left, List.filterMap_cons, List.filterMap_nil]
  cases i.fresh && (step (stateAfter autoArm history) i).state.mode == .flying <;> rfl

end Cycle

/-! ## What a driver guarantees -/

variable [Classify F]


/-- A sample that was admitted: its readings are finite. -/
structure AdmittedSample (o : Observation F) : Prop where
  valid : o.valid = true
  theta : Classify.isFinite o.theta = true
  omega : Classify.isFinite o.omega = true

/-- One input of a driver, after those before it. -/
structure Driven (base : ℕ) (history : List (EpisodeInput F)) (i : EpisodeInput F) : Prop where
  tick : i.tick = base + history.length
  stop : ∀ reason ∈ i.stopReason, reason = .signal
  admitted : ∀ o ∈ i.held, AdmittedSample o
  fresh : i.fresh = true → i.held.isSome = true
  kept : i.fresh = false → i.held = heldAfter history
  past : ∀ o ∈ i.held, o.tick ≤ i.tick
  age : ∀ o ∈ i.held, i.staleness = min (i.tick - o.tick) 0xffffffff
  unheld : i.held = none → history.length + 1 < 2 ^ 64 → i.staleness = min (history.length + 1) 0xffffffff

/-- The inputs of a driver. -/
def Sensed (base : ℕ) (history : List (EpisodeInput F)) : Prop :=
  ∀ before i after, history = before ++ i :: after → Driven base before i

variable {base : ℕ} {history : List (EpisodeInput F)} {i : EpisodeInput F}

/-- A driver stops the policy for a reason that the policy allows. -/
theorem Driven.stopAllowed (h : Driven base history i) : StopAllowed i :=
  fun reason hreason => .inr (.inl (h.stop reason hreason))

/-- A driver that has not begun. -/
theorem Sensed.nil : Sensed base ([] : List (EpisodeInput F)) :=
  fun before i after h => absurd h.symm (List.append_ne_nil_of_right_ne_nil before (List.cons_ne_nil i after))

/-- The inputs of a driver up to some point. -/
theorem Sensed.take {first second : List (EpisodeInput F)} (h : Sensed base (first ++ second)) : Sensed base first :=
  fun before i after hsplit => h before i (after ++ second) (by rw [hsplit, List.append_assoc, List.cons_append])

/-- The last input of a driver. -/
theorem Sensed.last (h : Sensed base (history ++ [i])) : Driven base history i := h history i [] rfl

/-- One more input of a driver. -/
theorem Sensed.concat (h : Sensed base history) (hi : Driven base history i) : Sensed base (history ++ [i]) := by
  intro before j after hsplit
  induction after using List.reverseRecOn with
  | nil =>
    obtain ⟨rfl, hlast⟩ := List.append_inj' hsplit rfl
    obtain rfl : i = j := by simpa using hlast
    exact hi
  | append_singleton after k _ =>
    rw [← List.cons_append, ← List.append_assoc] at hsplit
    exact h before j after (List.append_inj' hsplit rfl).1

/-- A sample that is not fresh is from an earlier tick. -/
theorem Sensed.behind (h : Sensed base (history ++ [i])) (hstale : i.fresh = false) :
    ∀ o ∈ i.held, o.tick < i.tick := by
  intro o ho
  have hheld := h.last.kept hstale
  have htick := h.last.tick
  induction history using List.reverseRecOn with
  | nil => simp [hheld] at ho
  | append_singleton history j _ =>
    rw [hheld, heldAfter_concat] at ho
    have hpast := h.take.last.past o ho
    have hbefore := h.take.last.tick
    rw [List.length_append, List.length_singleton] at htick
    omega

/-- An input without a fresh sample is at least one tick old, while the cycles are counted. -/
theorem Sensed.staleness_pos (h : Sensed base (history ++ [i])) (hstale : i.fresh = false)
    (hcounted : i.held = none → history.length + 1 < 2 ^ 64) : 1 ≤ i.staleness := by
  cases hheld : i.held with
  | none =>
    rw [h.last.unheld hheld (hcounted hheld)]
    omega
  | some o =>
    have hbehind := h.behind hstale o hheld
    rw [h.last.age o hheld]
    omega

/-- While no sample is fresh, the one held is kept. -/
theorem Sensed.kept_run {first second : List (EpisodeInput F)} (h : Sensed base (first ++ second))
    (hstale : ∀ i ∈ second, i.fresh = false) : heldAfter (first ++ second) = heldAfter first := by
  induction second using List.reverseRecOn with
  | nil => rw [List.append_nil]
  | append_singleton second i ih =>
    rw [← List.append_assoc] at h ⊢
    rw [heldAfter_concat, h.last.kept (hstale i (by simp))]
    exact ih h.take fun j hj => hstale j (List.mem_append_left _ hj)

/-- The sample held after some inputs is no newer than the last of them. -/
theorem Sensed.held_past (h : Sensed base history) : ∀ o ∈ heldAfter history, o.tick + 1 ≤ base + history.length := by
  intro o ho
  induction history using List.reverseRecOn with
  | nil => simp at ho
  | append_singleton history i _ =>
    rw [heldAfter_concat] at ho
    have hpast := h.last.past o ho
    have htick := h.last.tick
    rw [List.length_append, List.length_singleton]
    omega

/-- The sample held after some inputs was admitted. -/
theorem Sensed.held_admitted (h : Sensed base history) : ∀ o ∈ heldAfter history, AdmittedSample o := by
  induction history using List.reverseRecOn with
  | nil => simp
  | append_singleton history i _ =>
    rw [heldAfter_concat]
    exact h.last.admitted

/-! ## Over a whole run -/

variable [Arith F]

/-- The controller remembers the last command it computed. -/
theorem lastDelta_run (autoArm : Bool) (h : Sensed base history) :
    (stateAfter autoArm history).pid.lastDelta = (flown autoArm history).getLast?.getD 0.0 ∧
      (heldAfter history = none → flown autoArm history = []) := by
  induction history using List.reverseRecOn with
  | nil => exact ⟨rfl, fun _ => rfl⟩
  | append_singleton history i ih =>
    obtain ⟨hlast, hnone⟩ := ih h.take
    rw [stateAfter_concat, flown_concat, heldAfter_concat]
    have hdrove := step_drove (sound_run autoArm history) h.last.fresh
    generalize step (stateAfter autoArm history) i = r at hdrove
    cases hdrove with
    | controlled hmode hfresh hheld hstep =>
      obtain ⟨hdelta, hpid⟩ := Prod.ext_iff.mp hstep
      refine ⟨?_, fun hempty => by simp [hheld] at hempty⟩
      simp only [hfresh, hmode, beq_self_eq_true, Bool.and_self, if_true, List.getLast?_concat, Option.getD_some]
      rw [show r.requestedDelta = (Control.step (stateAfter autoArm history).pid _).1 from hdelta,
        show r.state.pid = (Control.step (stateAfter autoArm history).pid _).2 from hpid]
      rfl
    | coasted hmode hstale _ _ hpid =>
      simp only [hstale, Bool.false_and, Bool.false_eq_true, if_false, List.append_nil]
      exact ⟨by rw [hpid, hlast], fun hempty => hnone (by rw [← h.last.kept hstale, hempty])⟩
    | neutral _ hpid hidle =>
      have hskip : (i.fresh && r.state.mode == .flying) = false := by
        cases hfresh : i.fresh with
        | false => rfl
        | true => simpa using hidle hfresh
      simp only [hskip, Bool.false_eq_true, if_false, List.append_nil]
      refine ⟨by rw [hpid, hlast], fun hempty => hnone ?_⟩
      have hstale : i.fresh = false := by
        cases hfresh : i.fresh with
        | false => rfl
        | true => simpa [hempty] using h.last.fresh hfresh
      rw [← h.last.kept hstale, hempty]

/-- A live machine that holds no sample has not run for long. -/
theorem cycles_of_unheld (autoArm : Bool) (h : Sensed base history)
    (hlive : (stateAfter autoArm history).mode ≠ .terminated) (hnone : heldAfter history = none) :
    history.length ≤ 20 := by
  induction history using List.reverseRecOn with
  | nil => exact Nat.zero_le _
  | append_singleton history i ih =>
    rw [stateAfter_concat] at hlive
    rw [heldAfter_concat] at hnone
    obtain ⟨hage, hbefore⟩ := staleness_of_live h.last.stopAllowed hlive
    have hstale : i.fresh = false := by
      cases hfresh : i.fresh with
      | false => rfl
      | true => simpa [hnone] using h.last.fresh hfresh
    have hlength := ih h.take hbefore ((h.last.kept hstale).symm.trans hnone)
    have hcounted := h.last.unheld hnone (by omega)
    rw [List.length_append, List.length_singleton]
    omega

/-- A live machine holds a sample that is not too old, or has not run for long without one. -/
theorem age_of_live (autoArm : Bool) (h : Sensed base (history ++ [i]))
    (hlive : (stateAfter autoArm (history ++ [i])).mode ≠ .terminated) :
    (∀ o ∈ i.held, i.tick - o.tick ≤ 20) ∧ (i.held = none → history.length + 1 < 21) := by
  refine ⟨fun o ho => ?_, fun hnone => ?_⟩
  · rw [stateAfter_concat] at hlive
    obtain ⟨hage, -⟩ := staleness_of_live h.last.stopAllowed hlive
    rw [h.last.age o ho] at hage
    omega
  · have hlength := cycles_of_unheld autoArm h hlive (by rwa [heldAfter_concat])
    rw [List.length_append, List.length_singleton] at hlength
    omega

/-- After twenty-one cycles without a fresh sample the machine has ended. -/
theorem terminated_of_gap (autoArm : Bool) {first gap : List (EpisodeInput F)} (h : Sensed base (first ++ gap))
    (hgap : gap.length = 21) (hstale : ∀ i ∈ gap, i.fresh = false) :
    (stateAfter autoArm (first ++ gap)).mode = .terminated := by
  by_contra hlive
  have hkept := h.kept_run hstale
  rcases List.eq_nil_or_concat gap with rfl | ⟨gap, i, rfl⟩
  · simp at hgap
  · rw [List.concat_eq_append, ← List.append_assoc] at h hlive hkept
    rw [List.concat_eq_append, List.length_append, List.length_singleton] at hgap
    obtain ⟨hage, hnone⟩ := age_of_live autoArm h hlive
    rw [heldAfter_concat] at hkept
    have htick := h.last.tick
    rw [List.length_append] at htick hnone
    cases hheld : i.held with
    | none =>
      have hfew := hnone hheld
      omega
    | some o =>
      have hpast := h.take.take.held_past o (by rw [← hkept, hheld]; rfl)
      have hyoung := hage o hheld
      omega

/-- The authority a driver leaves the policy over a run: how old the sample behind a command can be,
what a command without a fresh sample can be, and when the machine ends. -/
structure BoundedAuthority (autoArm : Bool) (history : List (EpisodeInput F)) : Prop where
  sensed : ∀ before i after, history = before ++ i :: after →
    let r := step (stateAfter autoArm before) i
    r.requestedDelta ≠ 0.0 → r.state.mode = .flying ∧ (i.fresh = true ∨ ∃ o ∈ i.held, i.tick - o.tick ≤ 8)
  remembered : ∀ before i after, history = before ++ i :: after →
    let r := step (stateAfter autoArm before) i
    i.fresh = false → r.requestedDelta = 0.0 ∨ (flown autoArm before).getLast? = some r.requestedDelta
  recent : ∀ before i after, history = before ++ i :: after →
    (step (stateAfter autoArm before) i).state.mode ≠ .terminated →
      (∀ o ∈ i.held, i.tick - o.tick ≤ 20) ∧ (i.held = none → before.length + 1 < 21)
  lost : ∀ before gap after, history = before ++ gap ++ after → gap.length = 21 → (∀ i ∈ gap, i.fresh = false) →
    (stateAfter autoArm (before ++ gap)).mode = .terminated ∧
      ∀ r ∈ (Machine.run advance (stateAfter autoArm (before ++ gap)) after).2, r.requestedDelta = 0.0

/-- The policy has bounded authority over the inputs of a driver. -/
theorem Sensed.bounded (autoArm : Bool) (h : Sensed base history) : BoundedAuthority autoArm history := by
  have hsplit {before after : List (EpisodeInput F)} {i : EpisodeInput F} (heq : history = before ++ i :: after) :
      Sensed base (before ++ [i]) := by
    rw [heq, ← List.singleton_append, ← List.append_assoc] at h
    exact h.take
  refine ⟨fun before i after heq => ?_, fun before i after heq => ?_, fun before i after heq hlive => ?_,
    fun before gap after heq hgap hstale => ?_⟩
  · intro r hdelta
    have hsensed := hsplit heq
    obtain ⟨hlast, hnone⟩ := lastDelta_run autoArm hsensed.take
    have hdrove := step_drove (sound_run autoArm before) hsensed.last.fresh
    cases hdrove with
    | controlled hmode hfresh => exact ⟨hmode, .inl hfresh⟩
    | neutral hzero => exact absurd hzero hdelta
    | coasted hmode hstale hage hremembered =>
      refine ⟨hmode, .inr ?_⟩
      cases hheld : i.held with
      | none =>
        -- Nothing was ever computed from a sample, so there is nothing to remember but zero.
        rw [hnone ((hsensed.last.kept hstale).symm.trans hheld)] at hlast
        exact absurd (hremembered.trans hlast) hdelta
      | some o =>
        have hyoung := hsensed.last.age o hheld
        exact ⟨o, rfl, by omega⟩
  · intro r hstale
    have hsensed := hsplit heq
    obtain ⟨hlast, -⟩ := lastDelta_run autoArm hsensed.take
    have hdrove := step_drove (sound_run autoArm before) hsensed.last.fresh
    cases hdrove with
    | controlled _ hfresh => exact absurd (hstale.symm.trans hfresh) Bool.false_ne_true
    | neutral hzero => exact .inl hzero
    | coasted _ _ _ hremembered =>
      have hdelta : r.requestedDelta = (flown autoArm before).getLast?.getD 0.0 := hremembered.trans hlast
      cases hflown : (flown autoArm before).getLast? with
      | none => exact .inl (hdelta.trans (by rw [hflown]; rfl))
      | some delta => exact .inr (congrArg some (hdelta.trans (by rw [hflown]; rfl)).symm)
  · rw [← stateAfter_concat] at hlive
    exact age_of_live autoArm (hsplit heq) hlive
  · rw [heq] at h
    have hended := terminated_of_gap autoArm h.take hgap hstale
    refine ⟨hended, fun r hr => ?_⟩
    rw [run_of_terminated hended] at hr
    rw [List.eq_of_mem_replicate hr]

/-! ## The precondition of a cycle -/

/-- The precondition written at `step`, of a driver that stops the policy by a signal alone. -/
structure Precondition (s : EpisodeState F) (i : EpisodeInput F) : Prop where
  admitted : ∀ o ∈ i.held, AdmittedSample o
  held : i.fresh = true → i.held.isSome = true
  aged : s.mode ≠ .terminated → i.fresh = false → 1 ≤ i.staleness
  settled : s.settleCount ≤ 1000
  ended : s.mode = .terminated → s.terminal.isSome = true
  stop : ∀ reason ∈ i.stopReason, reason = .signal

/-- A driver calls the policy under its precondition. -/
theorem Sensed.precondition (autoArm : Bool) (h : Sensed base (history ++ [i])) :
    Precondition (stateAfter autoArm history) i where
  admitted := h.last.admitted
  held := h.last.fresh
  aged hlive hstale := h.staleness_pos hstale fun hnone => by
    have hfew := cycles_of_unheld autoArm h.take hlive ((h.last.kept hstale).symm.trans hnone)
    omega
  settled := (sound_run autoArm history).settled
  ended := (sound_run autoArm history).terminal.mp
  stop := h.last.stop

/-- Every input of a driver meets the precondition of the policy. -/
theorem Sensed.preconditions (autoArm : Bool) (h : Sensed base history) :
    ∀ before i after, history = before ++ i :: after → Precondition (stateAfter autoArm before) i := by
  intro before i after heq
  rw [heq, ← List.singleton_append, ← List.append_assoc] at h
  exact h.take.precondition autoArm

end Tvc.Episode
