import Mathlib.Tactic.NormNum
import Tvc.Episode.Settling
import Tvc.HeadlessRun

/-!
# The evaluator of `sim/trace.py`

`evaluate` judges the rows of a run after the fact, where the policy counts settled samples as it goes. Both compare
the angle and the rate with the same limits. Where the last thousand rows are fresh, the two agree.
-/

namespace Tvc

/-- `EvidenceRow`. -/
structure EvidenceRow (F : Type) where
  tick : ℕ
  theta : F
  omega : F
  delta : F
  iState : F
  dPrev : F

/-- `Acceptance`. -/
structure Acceptance where
  termination : Bool
  peak : Bool
  settled : Bool
  cadence : Bool
  finiteness : Bool
  deriving DecidableEq, Repr

/-- `passed`. -/
def Acceptance.passed (a : Acceptance) : Bool := a.termination && a.peak && a.settled && a.cadence && a.finiteness

variable {F : Type} [Arith F] [Classify F]

/-- The five values of a row are finite. -/
def EvidenceRow.isFinite (r : EvidenceRow F) : Bool := [r.theta, r.omega, r.delta, r.iState, r.dPrev].all Classify.isFinite

/-- `evaluate_rows`. -/
def evaluateRows (rows : List (EvidenceRow F)) (ticksDeclared : ℕ) (simReason : Option SimReason)
    (vehicleState : Option Mode) (terminal : Option TerminalResult) : Acceptance :=
  let window := rows.rtake 1000
  { termination := rows.getLast?.any fun last =>
      simReason == some .horizon && last.tick + 1 == ticksDeclared && vehicleState == some .terminated &&
        terminal.any fun t => t.reason == .stabilized && t.tick + 1 == ticksDeclared
    peak := !rows.isEmpty && rows.all fun r => Arith.le (Arith.abs r.theta) 0.15
    settled := decide (1000 ≤ ticksDeclared) && window.length == 1000 &&
      window.zipIdx.all fun (r, i) =>
        r.tick == ticksDeclared - 1000 + i && Arith.le (Arith.abs r.theta) 0.02 && Arith.le (Arith.abs r.omega) 0.02
    cadence := decide (0 < ticksDeclared) && rows.length == ticksDeclared && rows.zipIdx.all fun (r, i) => r.tick == i
    finiteness := !rows.isEmpty && rows.all EvidenceRow.isFinite }

namespace Headless

/-- The evidence of a row. -/
def Row.evidence (r : Row F) : EvidenceRow F :=
  ⟨r.tick, r.truth.theta, r.truth.omega, r.episode.requestedDelta, r.episode.state.pid.iState,
    r.episode.state.pid.dPrev⟩

/-- `evaluate`, on the loop that has ended. -/
def evaluate (spec : Scenario F) (l : Loop F) : Acceptance :=
  let state := l.rows.getLast?.map fun r => r.episode.state
  evaluateRows (l.rows.map Row.evidence) spec.ticks l.simReason (state.map EpisodeState.mode)
    (state.bind EpisodeState.terminal)

/-- The truth of a row is within the limits of a settled sample. -/
def Row.within (r : Row F) : Bool := Arith.le (Arith.abs r.truth.theta) 0.02 && Arith.le (Arith.abs r.truth.omega) 0.02

variable {spec : Scenario F} {l : Loop F}

omit [Arith F] [Classify F] in
/-- The rows are those of the first ticks. -/
theorem tick_of_getElem {n : ℕ} (hticks : l.rows.map Row.tick = List.range n) {k : ℕ} {r : Row F}
    (h : l.rows[k]? = some r) : r.tick = k := by
  have hmap : (l.rows.map Row.tick)[k]? = some r.tick := by rw [List.getElem?_map, h]; rfl
  rw [hticks] at hmap
  exact (List.getElem?_eq_some_iff.mp hmap).2.symm.trans (List.getElem_range _)

/-- The rows of all ticks are in cadence. -/
theorem evaluate_cadence (hticks : l.rows.map Row.tick = List.range spec.ticks) : (evaluate spec l).cadence = true := by
  have hlength : l.rows.length = spec.ticks := by
    rw [← List.length_map (f := Row.tick), hticks, List.length_range]
  change (decide (0 < spec.ticks) && (l.rows.map Row.evidence).length == spec.ticks &&
    (l.rows.map Row.evidence).zipIdx.all fun (r, i) => r.tick == i) = true
  rw [List.length_map, hlength, beq_self_eq_true, decide_eq_true spec.ticks_pos, Bool.true_and, Bool.true_and,
    List.all_eq_true]
  rintro ⟨e, i⟩ hmem
  obtain ⟨r, hr, rfl⟩ := List.getElem?_map .. ▸ List.mem_zipIdx_iff_getElem?.mp hmem |> Option.map_eq_some_iff.mp
  exact beq_iff_eq.mpr (tick_of_getElem hticks hr)

/-- Over the rows of all ticks the window is settled if it is full and within the limits. -/
theorem evaluate_settled (hticks : l.rows.map Row.tick = List.range spec.ticks) :
    (evaluate spec l).settled = true ↔ 1000 ≤ spec.ticks ∧ ∀ r ∈ l.rows.rtake 1000, r.within = true := by
  have hlength : l.rows.length = spec.ticks := by
    rw [← List.length_map (f := Row.tick), hticks, List.length_range]
  have hwindow : (l.rows.map Row.evidence).rtake 1000 = (l.rows.rtake 1000).map Row.evidence := by
    rw [List.rtake, List.rtake, List.length_map, List.map_drop]
  have hrow {i : ℕ} {e : EvidenceRow F} : (e, i) ∈ ((l.rows.map Row.evidence).rtake 1000).zipIdx ↔
      ∃ r, (l.rows.rtake 1000)[i]? = some r ∧ r.evidence = e := by
    rw [hwindow, List.mem_zipIdx_iff_getElem?, List.getElem?_map, Option.map_eq_some_iff]
  -- A row of the window has the tick of its place.
  have hplace {i : ℕ} {r : Row F} (h : (l.rows.rtake 1000)[i]? = some r) : r.tick = spec.ticks - 1000 + i := by
    rw [List.rtake, List.getElem?_drop, hlength] at h
    exact tick_of_getElem hticks h
  change (decide (1000 ≤ spec.ticks) && ((l.rows.map Row.evidence).rtake 1000).length == 1000 &&
    ((l.rows.map Row.evidence).rtake 1000).zipIdx.all fun (r, i) =>
      r.tick == spec.ticks - 1000 + i && Arith.le (Arith.abs r.theta) 0.02 && Arith.le (Arith.abs r.omega) 0.02) = true ↔ _
  rw [Bool.and_eq_true, Bool.and_eq_true, decide_eq_true_eq, List.all_eq_true, and_assoc]
  refine and_congr_right fun henough => ?_
  have hfull : (((l.rows.map Row.evidence).rtake 1000).length == 1000) = true := by
    rw [hwindow, List.length_map, List.rtake, List.length_drop, hlength]
    exact beq_iff_eq.mpr (by omega)
  rw [and_iff_right hfull]
  constructor
  · intro hall r hr
    obtain ⟨i, hi⟩ := List.mem_iff_getElem?.mp hr
    have hjudged := hall (r.evidence, i) (hrow.mpr ⟨r, hi, rfl⟩)
    dsimp only at hjudged
    rw [Bool.and_assoc, Bool.and_eq_true] at hjudged
    exact hjudged.2
  · rintro hall ⟨e, i⟩ hmem
    obtain ⟨r, hr, rfl⟩ := hrow.mp hmem
    dsimp only
    rw [Bool.and_assoc, Bool.and_eq_true]
    exact ⟨beq_iff_eq.mpr (hplace hr), hall r (List.mem_of_getElem? hr)⟩

omit [Classify F] in
/-- What two lists show of each other one by one they show as a whole. -/
theorem forall_iff_of_shows {rows : List (Row F)} {history : List (EpisodeInput F)}
    (h : List.Forall₂ Shows rows history) (hfresh : ∀ r ∈ rows, r.fresh = true) :
    (∀ i ∈ history, Episode.isSettled i = true) ↔ ∀ r ∈ rows, r.within = true := by
  induction h with
  | nil => simp
  | @cons r i rows history hshows _ ih =>
    have hsame : Episode.isSettled i = r.within := by
      unfold Episode.isSettled
      rw [hshows.sample (hfresh r List.mem_cons_self)]
      rfl
    rw [List.forall_mem_cons, List.forall_mem_cons, hsame, ih fun r hr => hfresh r (List.mem_cons_of_mem _ hr)]

end Headless

/-- A sample within the limits of a settled one has not diverged. -/
def OrderedThresholds (F : Type) [Arith F] : Prop := ∀ x : F, Arith.le x 0.02 = true → Arith.lt 0.30 x = false

/-- The thresholds over exact rationals. -/
theorem orderedThresholds_rat : OrderedThresholds ℚ := by
  intro x hx
  have hx : x ≤ 0.02 := of_decide_eq_true hx
  refine decide_eq_false (not_lt.mpr (hx.trans ?_))
  norm_num

section Doubles

attribute [local instance] ieee

/-- The thresholds over the doubles of IEEE 754. -/
theorem orderedThresholds_ieee : OrderedThresholds F64 :=
  fun _ hx => Binary64.lt_eq_false_of_le hx (by decide +kernel)

end Doubles

namespace Headless

variable {spec : Scenario F}

/-- How a run ends: its last tick, with the history before it and the row it adds. -/
structure Ended (spec : Scenario F) (l : Loop F) (history : List (EpisodeInput F)) (i : EpisodeInput F) (last : Row F) :
    Prop where
  live : (Episode.stateAfter spec.autoArm history).mode ≠ .terminated
  ticks : l.rows.map Row.tick = List.range (history.length + 1)
  within : history.length < spec.ticks
  rows : List.Forall₂ Shows l.rows (history ++ [i])
  atEnd : l.rows.getLast? = some last
  shown : Shows last i
  tick : last.tick = history.length
  episode : last.episode = Episode.step (Episode.stateAfter spec.autoArm history) i
  horizonReached : i.horizonReached = false
  stopReason : i.stopReason = none
  horizon : i.simReason = some 1 ↔ l.simReason = some .horizon
  final : l.simReason = some .horizon → history.length + 1 = spec.ticks

/-- Every run ends. -/
theorem ended_upTo (spec : Scenario F) (seed : U64) (delayTicks : Fin 2) :
    ∃ history i last, Ended spec (upTo spec seed delayTicks spec.ticks) history i last := by
  obtain ⟨n, hn, hgoes, hends⟩ := upTo_ends spec seed delayTicks
  obtain ⟨history, h⟩ := traced_upTo spec seed delayTicks n hgoes
  have hpending := pending_ne_horizon spec seed delayTicks n
  rw [hends]
  generalize upTo spec seed delayTicks n = l at *
  obtain ⟨-, -, hreason, -, row, hrows, hepisode, htick, htruth, hheld, hfresh, -, -⟩ := tick_keeps spec l n
  have hsettled := (Episode.sound_run spec.autoArm history).settled
  rw [← h.state] at hsettled
  have hhorizon : (tick spec l n).simReason = some .horizon ↔ reasonOf spec l.pendingReason n = some .horizon := by
    rw [hreason]
    cases reasonOf spec l.pendingReason n with
    | some why => rfl
    | none =>
      rw [Option.none_or]
      split <;> exact ⟨nofun, nofun⟩
  have hshown := inputOf_shown spec l n htick htruth hheld hfresh
  refine ⟨history, inputOf spec l n, row, h.state ▸ h.live, ?_, h.length.symm ▸ hn, ?_, ?_, hshown,
    htick.trans h.length.symm, ?_, rfl, rfl, ?_, fun hlast => ?_⟩
  · rw [hrows, List.map_append, h.ticks, h.length, List.range_succ, List.map_singleton, htick]
  · rw [hrows]
    exact List.rel_append h.rows (.cons hshown .nil)
  · rw [hrows, List.getLast?_concat]
  · rw [hepisode, EpisodeRef.step_agrees hsettled, h.state]
  · rw [hhorizon]
    change (reasonOf spec l.pendingReason n).map SimReason.toNat = some 1 ↔ _
    cases reasonOf spec l.pendingReason n with
    | none => exact ⟨nofun, nofun⟩
    | some why => cases why <;> decide
  · rw [hhorizon] at hlast
    unfold reasonOf at hlast
    split at hlast
    · rename_i hthere
      have hplace : n = spec.ticks - 1 := beq_iff_eq.mp (Bool.and_eq_true_iff.mp hthere).2
      have hlength := h.length
      omega
    · exact absurd hlast hpending

/-- An end is recorded with the tick of the last row. -/
theorem Ended.terminal_tick {l : Loop F} {history : List (EpisodeInput F)} {i : EpisodeInput F} {last : Row F}
    (h : Ended spec l history i last) {t : TerminalResult} (ht : last.episode.state.terminal = some t) :
    t.tick = last.tick := by
  rw [h.episode] at ht
  exact ((Episode.step_outcome _ i).terminal_tick h.live t ht).trans h.shown.tick.symm

/-- The horizon ends a run as stabilised if the window is full and settled. -/
theorem Ended.stabilized (hthresholds : OrderedThresholds F) {l : Loop F} {history : List (EpisodeInput F)}
    {i : EpisodeInput F} {last : Row F} (h : Ended spec l history i last)
    (hfresh : ∀ r ∈ l.rows.rtake 1000, r.fresh = true) :
    last.episode.state.terminal = some ⟨.stabilized, last.tick⟩ ↔
      l.simReason = some .horizon ∧ 1000 ≤ spec.ticks ∧ ∀ r ∈ l.rows.rtake 1000, r.within = true := by
  have hlive := h.live
  have hstop : Episode.StopAllowed i := fun reason hreason => by
    rw [h.stopReason] at hreason
    nomatch hreason
  obtain ⟨-, hstabilized, -, -⟩ := Episode.run_end spec.autoArm history i hstop
  rw [and_iff_right hlive, and_iff_right hlive, ← h.episode] at hstabilized
  have hwindow : (∀ j ∈ (history ++ [i]).rtake 1000, Episode.isSettled j = true) ↔
      ∀ r ∈ l.rows.rtake 1000, r.within = true := by
    have hsame : l.rows.length = (history ++ [i]).length := h.rows.length_eq
    refine forall_iff_of_shows ?_ hfresh
    rw [List.rtake, List.rtake, hsame]
    exact List.forall₂_drop _ h.rows
  have hlength : (history ++ [i]).length = history.length + 1 := List.length_append
  rw [hwindow, hlength] at hstabilized
  constructor
  · intro hterminal
    obtain ⟨⟨hhorizon, -⟩, henough, hsettled⟩ := hstabilized.mp (by rw [hterminal]; rfl)
    have hreason : l.simReason = some .horizon := by
      refine h.horizon.mp (hhorizon.resolve_left ?_)
      rw [h.horizonReached]
      exact Bool.false_ne_true
    exact ⟨hreason, h.final hreason ▸ henough, hsettled⟩
  · rintro ⟨hreason, henough, hsettled⟩
    have hsim := h.horizon.mpr hreason
    -- The last row is fresh and settled, so nothing comes before the horizon.
    have hmem : last ∈ l.rows.rtake 1000 := by
      refine List.mem_of_getLast? ?_
      rw [List.rtake, List.getLast?_drop, if_neg, h.atEnd]
      have hpositive : 0 < l.rows.length := List.length_pos_of_mem (List.mem_of_getLast? h.atEnd)
      omega
    have hlast := hfresh last hmem
    have hage : i.staleness = 0 := h.shown.age hlast
    have hclose : Episode.freshDiverged i = false := by
      unfold Episode.freshDiverged
      rw [h.shown.sample hlast, ← h.shown.fresh, hlast]
      exact hthresholds _ (Bool.and_eq_true_iff.mp (hsettled last hmem)).1
    have hatHorizon : Episode.AtHorizon i := ⟨.inr hsim, .inr hsim, h.stopReason, hclose, by omega⟩
    have hended := hstabilized.mpr ⟨hatHorizon, (h.final hreason).symm ▸ henough, hsettled⟩
    obtain ⟨t, hterminal, hstable⟩ := Option.map_eq_some_iff.mp hended
    rw [hterminal, ← h.terminal_tick hterminal, ← hstable]

/-- The last row of a run. -/
theorem Ended.last_mem {l : Loop F} {history : List (EpisodeInput F)} {i : EpisodeInput F} {last r : Row F}
    (h : Ended spec l history i last) (hr : r ∈ l.rows.getLast?) : r = last := by
  rw [h.atEnd] at hr
  exact (Option.mem_some_iff.mp hr).symm

/-- A machine with a recorded end has terminated. -/
theorem Ended.terminated {l : Loop F} {history : List (EpisodeInput F)} {i : EpisodeInput F} {last : Row F}
    (h : Ended spec l history i last) {t : TerminalResult} (ht : last.episode.state.terminal = some t) :
    last.episode.state.mode = .terminated := by
  have hsound := Episode.sound_run spec.autoArm (history ++ [i])
  rw [Episode.stateAfter_concat, ← h.episode] at hsound
  exact hsound.terminal.mpr (by rw [ht]; rfl)

/-- At the horizon the evaluator finds all ticks. -/
theorem Ended.allTicks {l : Loop F} {history : List (EpisodeInput F)} {i : EpisodeInput F} {last : Row F}
    (h : Ended spec l history i last) (hreason : l.simReason = some .horizon) :
    l.rows.map Row.tick = List.range spec.ticks ∧ last.tick + 1 = spec.ticks :=
  ⟨h.final hreason ▸ h.ticks, h.tick.symm ▸ h.final hreason⟩

/-- The evaluator accepts the end of a run at its horizon that was stabilised in its last tick. -/
theorem Ended.termination {l : Loop F} {history : List (EpisodeInput F)} {i : EpisodeInput F} {last : Row F}
    (h : Ended spec l history i last) :
    (evaluate spec l).termination = true ↔ l.simReason = some .horizon ∧
      last.episode.state.terminal = some ⟨.stabilized, last.tick⟩ := by
  have hlast : (l.rows.map Row.evidence).getLast? = some last.evidence := by
    rw [List.getLast?_map, h.atEnd]
    rfl
  have hstate : l.rows.getLast?.map (fun r => r.episode.state) = some last.episode.state := by
    rw [h.atEnd]
    rfl
  change (((l.rows.map Row.evidence).getLast?.any fun e => l.simReason == some .horizon &&
    e.tick + 1 == spec.ticks &&
    (l.rows.getLast?.map fun r => r.episode.state).map EpisodeState.mode == some .terminated &&
    ((l.rows.getLast?.map fun r => r.episode.state).bind EpisodeState.terminal).any fun t =>
      t.reason == .stabilized && t.tick + 1 == spec.ticks) = true) ↔ _
  rw [hlast, hstate]
  change (l.simReason == some .horizon && last.tick + 1 == spec.ticks &&
    some last.episode.state.mode == some .terminated && last.episode.state.terminal.any fun t =>
      t.reason == .stabilized && t.tick + 1 == spec.ticks) = true ↔ _
  rw [Bool.and_eq_true, Bool.and_eq_true, Bool.and_eq_true, beq_iff_eq, beq_iff_eq, beq_iff_eq]
  constructor
  · rintro ⟨⟨⟨hreason, htick⟩, -⟩, hterminal⟩
    refine ⟨hreason, ?_⟩
    cases hended : last.episode.state.terminal with
    | none =>
      rw [hended] at hterminal
      exact absurd hterminal Bool.false_ne_true
    | some t =>
      rw [hended] at hterminal
      obtain ⟨hstable, hplace⟩ := Bool.and_eq_true_iff.mp hterminal
      have hsame : t.tick = last.tick := Nat.succ_injective ((beq_iff_eq.mp hplace).trans htick.symm)
      rw [← hsame, ← beq_iff_eq.mp hstable]
  · rintro ⟨hreason, hterminal⟩
    have hfinal := (h.allTicks hreason).2
    refine ⟨⟨⟨hreason, hfinal⟩, congrArg some (h.terminated hterminal)⟩, ?_⟩
    rw [hterminal]
    exact Bool.and_eq_true_iff.mpr ⟨rfl, beq_iff_eq.mpr hfinal⟩

end Headless

/-- The vehicle and the evaluator agree on when a run has settled, where the last thousand rows are fresh. -/
theorem settled_agrees :
    (OrderedThresholds ℚ ∧ @OrderedThresholds F64 ieee) ∧
      ∀ (F : Type) [Arith F] [Classify F], OrderedThresholds F → ∀ (spec : Scenario F) (seed : U64)
        (delayTicks : Fin 2),
        let l := Headless.upTo spec seed delayTicks spec.ticks
        let judged := Headless.evaluate spec l
        (l.simReason = some .horizon → judged.cadence = true) ∧ (judged.termination = true → judged.cadence = true) ∧
          ((∀ row ∈ l.rows.rtake 1000, row.fresh = true) →
            ((∃ last ∈ l.rows.getLast?, last.episode.state.mode = .terminated ∧
                last.episode.state.terminal = some ⟨.stabilized, spec.ticks - 1⟩) ↔
              l.simReason = some .horizon ∧ judged.settled = true) ∧
            (judged.termination = true ↔ l.simReason = some .horizon ∧ judged.settled = true)) := by
  refine ⟨⟨orderedThresholds_rat, orderedThresholds_ieee⟩, ?_⟩
  intro F _ _ hthresholds spec seed delayTicks l judged
  obtain ⟨history, i, last, h⟩ := Headless.ended_upTo spec seed delayTicks
  have hcadence (hreason : l.simReason = some .horizon) : judged.cadence = true :=
    Headless.evaluate_cadence (h.allTicks hreason).1
  refine ⟨hcadence, fun htermination => hcadence (h.termination.mp htermination).1, fun hfresh => ?_⟩
  have hstabilized : last.episode.state.terminal = some ⟨.stabilized, last.tick⟩ ↔
      l.simReason = some .horizon ∧ judged.settled = true := by
    rw [h.stabilized hthresholds hfresh]
    exact and_congr_right fun hreason => (Headless.evaluate_settled (h.allTicks hreason).1).symm
  constructor
  · rw [← hstabilized]
    constructor
    · rintro ⟨r, hr, -, hterminal⟩
      obtain rfl := h.last_mem hr
      rw [hterminal, ← h.terminal_tick hterminal]
    · intro hterminal
      have hfinal := (h.allTicks (hstabilized.mp hterminal).1).2
      refine ⟨last, h.atEnd, h.terminated hterminal, hterminal.trans ?_⟩
      rw [← hfinal, Nat.add_sub_cancel]
  · rw [h.termination, hstabilized, and_iff_right_of_imp And.left]

end Tvc
