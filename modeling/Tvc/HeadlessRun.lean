import Tvc.Episode.Invariant
import Tvc.EpisodeAgreement
import Tvc.Headless

/-!
# Runs of the headless reference

A tick hands one input to the policy and adds one row. The rows of a run show the history of the policy, up to the
tick that breaks the loop.
-/

namespace Tvc.Headless

variable {F : Type} [Arith F] [Classify F]

/-! ## One tick -/

/-- The input that a tick hands to the policy. -/
def inputOf (spec : Scenario F) (l : Loop F) (n : ℕ) : EpisodeInput F :=
  let observation := observation n l.truth (dropOf spec n .up (drawDrop l.streamUp spec.lossUp).1)
  let held := if isFresh observation then some observation else l.held
  let commandSeq := if (spec.commandAt n).isSome then l.commandSeq + 1 else l.commandSeq
  { tick := n
    held
    fresh := isFresh observation
    staleness := ageOf held n
    command := (spec.commandAt n).map fun opcode => Command.mk commandSeq opcode.toNat (n + 50)
    horizonReached := false
    simReason := (reasonOf spec l.pendingReason n).map SimReason.toNat
    stopReason := none }

/-- What waits for the actuator in a tick. -/
def waiting (spec : Scenario F) (l : Loop F) (n : ℕ) : List (Option F) :=
  l.delay ++
    [if dropOf spec n .down (drawDrop l.streamDown spec.lossDown).1 then none
      else some (EpisodeRef.step l.state (inputOf spec l n)).requestedDelta]

/-- What a tick does to the policy, the delay, the ends and the rows. -/
theorem tick_keeps (spec : Scenario F) (l : Loop F) (n : ℕ) :
    let result := EpisodeRef.step l.state (inputOf spec l n)
    let reason := reasonOf spec l.pendingReason n
    (tick spec l n).state = result.state ∧ (tick spec l n).delay = (waiting spec l n).tail ∧
      (tick spec l n).simReason = reason.or (if result.state.terminal.isSome then some .vehicleTerminal else none) ∧
      (tick spec l n).broken = (reason.isSome || result.state.terminal.isSome || l.broken) ∧
      ∃ row, (tick spec l n).rows = l.rows ++ [row] ∧ row.episode = result ∧ row.tick = n ∧ row.truth = l.truth ∧
        row.held = (inputOf spec l n).held ∧ row.fresh = (inputOf spec l n).fresh ∧
        row.arriving = (waiting spec l n).headD none ∧ row.actuator = Actuator.step l.act row.arriving := by
  intro result reason
  have hsplit {α : Type} (keep : Loop F → α) {x : α} {t u v : Loop F} (ht : reason.isSome = true → keep t = x)
      (hu : reason.isSome = false → result.state.terminal.isSome = true → keep u = x)
      (hv : reason.isSome = false → result.state.terminal.isSome = false → keep v = x) :
      keep (if reason.isSome then t else if result.state.terminal.isSome then u else v) = x := by
    cases hended : reason.isSome with
    | true => exact ht hended
    | false =>
      cases hterminal : result.state.terminal.isSome with
      | true => exact hu hended hterminal
      | false => exact hv hended hterminal
  have hkeeps {α : Type} (keep : Loop F → α) {x : α} {t u v : Loop F} (ht : keep t = x) (hu : keep u = x)
      (hv : keep v = x) : keep (if reason.isSome then t else if result.state.terminal.isSome then u else v) = x :=
    hsplit keep (fun _ => ht) (fun _ _ => hu) fun _ _ => hv
  refine ⟨hkeeps Loop.state rfl rfl rfl, hkeeps Loop.delay rfl rfl rfl, ?_, ?_, _, hkeeps Loop.rows rfl rfl rfl, rfl,
    rfl, rfl, rfl, rfl, rfl, rfl⟩
  · refine hsplit Loop.simReason (fun hended => ?_) (fun hended hterminal => ?_) fun hended hterminal => ?_
    · obtain ⟨why, hwhy⟩ := Option.isSome_iff_exists.mp hended
      rw [hwhy, Option.some_or]
      exact hwhy
    · rw [Option.isSome_eq_false_iff.mp hended |> Option.isNone_iff_eq_none.mp, hterminal]
      rfl
    · rw [hterminal, if_neg Bool.false_ne_true, Option.or_none]
  · refine hsplit Loop.broken (fun hended => ?_) (fun hended hterminal => ?_) fun hended hterminal => ?_
    · rw [hended]
      rfl
    · rw [hended, hterminal]
      rfl
    · rw [hended, hterminal]
      rfl

/-- The loop after one more tick. -/
theorem upTo_succ (spec : Scenario F) (seed : U64) (delayTicks : Fin 2) (n : ℕ) :
    upTo spec seed delayTicks (n + 1) =
      if (upTo spec seed delayTicks n).broken then upTo spec seed delayTicks n
      else tick spec (upTo spec seed delayTicks n) n := by
  rw [upTo, List.range_succ, List.foldl_append]
  rfl

/-- A tick finds at most a loss of control. -/
theorem tick_pending (spec : Scenario F) (l : Loop F) (n : ℕ) (h : l.pendingReason ≠ some .horizon) :
    (tick spec l n).pendingReason ≠ some .horizon := by
  have hsplit {ended terminal : Bool} {t u v : Loop F} (ht : t.pendingReason ≠ some .horizon)
      (hu : u.pendingReason ≠ some .horizon) (hv : v.pendingReason ≠ some .horizon) :
      (if ended then t else if terminal then u else v).pendingReason ≠ some .horizon := by
    cases ended with
    | true => exact ht
    | false =>
      cases terminal with
      | true => exact hu
      | false => exact hv
  have hlost (truth : TruthState F) : (Plant.lossOfControl truth).or l.pendingReason ≠ some .horizon := by
    unfold Plant.lossOfControl
    split
    · exact nofun
    · split
      · exact nofun
      · exact h
  exact hsplit h h (hlost _)

/-- Only a loss of control is pending. -/
theorem pending_ne_horizon (spec : Scenario F) (seed : U64) (delayTicks : Fin 2) (n : ℕ) :
    (upTo spec seed delayTicks n).pendingReason ≠ some .horizon := by
  induction n with
  | zero => exact nofun
  | succ n ih =>
    rw [upTo_succ]
    split
    · exact ih
    · exact tick_pending spec _ n ih

/-! ## The history of a run -/

/-- A row shows the input of its cycle; a fresh sample is the truth. -/
structure Shows (row : Row F) (i : EpisodeInput F) : Prop where
  tick : row.tick = i.tick
  held : row.held = i.held
  fresh : row.fresh = i.fresh
  sample : row.fresh = true → i.held = some ⟨row.tick, row.truth.theta, row.truth.omega, true⟩
  age : row.fresh = true → i.staleness = 0

/-- The loop has run the policy over a history and shows it in its rows. -/
structure Traced (autoArm : Bool) (n : ℕ) (history : List (EpisodeInput F)) (l : Loop F) : Prop where
  state : l.state = Episode.stateAfter autoArm history
  live : l.state.mode ≠ .terminated
  length : history.length = n
  ticks : l.rows.map Row.tick = List.range n
  rows : List.Forall₂ Shows l.rows history

/-- A tick shows its input. -/
theorem inputOf_shown (spec : Scenario F) (l : Loop F) (n : ℕ) {row : Row F} (htick : row.tick = n)
    (htruth : row.truth = l.truth) (hheld : row.held = (inputOf spec l n).held)
    (hfresh : row.fresh = (inputOf spec l n).fresh) : Shows row (inputOf spec l n) := by
  let seen := observation n l.truth (dropOf spec n .up (drawDrop l.streamUp spec.lossUp).1)
  have hisFresh : (inputOf spec l n).fresh = isFresh seen := rfl
  have hsample : isFresh seen = true → (inputOf spec l n).held = some seen := fun h => if_pos h
  have hseen : isFresh seen = true → seen = ⟨n, l.truth.theta, l.truth.omega, true⟩ := by
    intro h
    unfold seen observation at h ⊢
    split
    · rename_i hdrop
      rw [hdrop] at h
      nomatch h
    · rfl
  refine ⟨htick, hheld, hfresh, fun h => ?_, fun h => ?_⟩
  · rw [hfresh, hisFresh] at h
    rw [hsample h, hseen h, htick, htruth]
  · rw [hfresh, hisFresh] at h
    change ageOf (inputOf spec l n).held n = 0
    rw [hsample h, hseen h]
    unfold ageOf
    dsimp only
    rw [Nat.sub_self, Nat.zero_min]

/-- One more tick that does not break the loop. -/
theorem Traced.turn {spec : Scenario F} {n : ℕ} {history : List (EpisodeInput F)} {l : Loop F}
    (h : Traced spec.autoArm n history l) (hgoes : (tick spec l n).broken = false) :
    Traced spec.autoArm (n + 1) (history ++ [inputOf spec l n]) (tick spec l n) := by
  obtain ⟨hstate, -, -, hbroken, row, hrows, -, htick, htruth, hheld, hfresh, -, -⟩ := tick_keeps spec l n
  have hsettled := (Episode.sound_run spec.autoArm history).settled
  rw [← h.state] at hsettled
  have hnext : (tick spec l n).state = Episode.stateAfter spec.autoArm (history ++ [inputOf spec l n]) := by
    rw [hstate, EpisodeRef.step_agrees hsettled, Episode.stateAfter_concat, h.state]
  have hsound := Episode.sound_run spec.autoArm (history ++ [inputOf spec l n])
  rw [← hnext] at hsound
  refine ⟨hnext, fun hmode => ?_, ?_, ?_, ?_⟩
  · have hended := hsound.terminal.mp hmode
    rw [hstate] at hended
    rw [hbroken, hended, Bool.or_true, Bool.true_or] at hgoes
    exact absurd hgoes (by decide)
  · rw [List.length_append, h.length]
    rfl
  · rw [hrows, List.map_append, h.ticks, List.range_succ, List.map_singleton, htick]
  · rw [hrows]
    exact List.rel_append h.rows (.cons (inputOf_shown spec l n htick htruth hheld hfresh) .nil)

/-- A loop that goes on has a history. -/
theorem traced_upTo (spec : Scenario F) (seed : U64) (delayTicks : Fin 2) (n : ℕ)
    (hgoes : (upTo spec seed delayTicks n).broken = false) :
    ∃ history, Traced spec.autoArm n history (upTo spec seed delayTicks n) := by
  induction n with
  | zero => exact ⟨[], rfl, nofun, rfl, rfl, .nil⟩
  | succ n ih =>
    rw [upTo_succ] at hgoes ⊢
    split at hgoes
    · rename_i hbroken
      exact absurd (hbroken.symm.trans hgoes) (by decide)
    · rename_i hbefore
      obtain ⟨history, h⟩ := ih (Bool.eq_false_of_not_eq_true hbefore)
      rw [if_neg hbefore]
      exact ⟨_, h.turn hgoes⟩

/-- A broken loop stands still. -/
theorem upTo_of_broken {spec : Scenario F} {seed : U64} {delayTicks : Fin 2} {m n : ℕ} (hmn : m ≤ n)
    (h : (upTo spec seed delayTicks m).broken = true) : upTo spec seed delayTicks n = upTo spec seed delayTicks m := by
  induction hmn with
  | refl => rfl
  | step _ ih => rw [upTo_succ, ih, if_pos h]

/-- Every run is broken by one of its ticks, the last one if no other. -/
theorem upTo_ends (spec : Scenario F) (seed : U64) (delayTicks : Fin 2) :
    ∃ n < spec.ticks, (upTo spec seed delayTicks n).broken = false ∧
      upTo spec seed delayTicks spec.ticks = tick spec (upTo spec seed delayTicks n) n := by
  have hlast : (upTo spec seed delayTicks spec.ticks).broken = true := by
    obtain ⟨n, hn⟩ := Nat.exists_eq_succ_of_ne_zero spec.ticks_pos.ne'
    rw [hn, Nat.succ_eq_add_one, upTo_succ]
    split
    · assumption
    · obtain ⟨-, -, -, hbroken, -⟩ := tick_keeps spec (upTo spec seed delayTicks n) n
      have hreason : (reasonOf spec (upTo spec seed delayTicks n).pendingReason n).isSome = true := by
        unfold reasonOf
        cases (upTo spec seed delayTicks n).pendingReason with
        | some why => rfl
        | none => rw [hn]; simp
      rw [hbroken, hreason]
      rfl
  -- The first tick after which the loop is broken has broken it.
  have hex : ∃ n, (upTo spec seed delayTicks n).broken = true := ⟨_, hlast⟩
  obtain ⟨n, hn⟩ : ∃ n, Nat.find hex = n + 1 := by
    refine Nat.exists_eq_succ_of_ne_zero fun hzero => ?_
    have hbroken := Nat.find_spec hex
    rw [hzero] at hbroken
    nomatch hbroken
  have hbefore : (upTo spec seed delayTicks n).broken = false :=
    Bool.eq_false_of_not_eq_true (Nat.find_min hex (by omega))
  have hle : n + 1 ≤ spec.ticks := hn ▸ Nat.find_min' hex hlast
  refine ⟨n, hle, hbefore, ?_⟩
  rw [upTo_of_broken hle (hn ▸ Nat.find_spec hex), upTo_succ, if_neg (by rw [hbefore]; decide)]

end Tvc.Headless
