import Tvc.Episode.Chronicle
import Tvc.Freerun.Verdict
import Tvc.Freerun.VehicleEnd

/-!
# The reason of the vehicle

A vehicle that nothing stops ends the run by what it has admitted of the simulator's end, by the age of its sample, or at
its last scheduled cycle. The order is fixed: what it has seen of the simulator's end comes first.
-/

namespace Tvc.Freerun

variable [Arith F64]

/-- How a vehicle ends a run that nothing stops: by the simulator's loss of control, by a stale sample, or at the last
scheduled cycle or the simulator's horizon. -/
inductive Ruling (total : ℕ) (x : Loop) : Reason → Prop
  | lost (h : x.r.simSeen = some 2 ∨ x.r.simSeen = some 3) : Ruling total x .diverged
  | stale (hcontrol : x.r.simSeen ≠ some 2 ∧ x.r.simSeen ≠ some 3) (h : 21 ≤ x.r.admission.cycle.staleness) :
      Ruling total x .sensorLost
  | settled {reason : Reason} (hcontrol : x.r.simSeen ≠ some 2 ∧ x.r.simSeen ≠ some 3)
      (hfresh : x.r.admission.cycle.staleness < 21) (h : x.n = total ∨ x.r.simSeen = some 1)
      (hreason : reason = .stabilized ∨ reason = .notSettled) : Ruling total x reason

omit [Arith F64] in
/-- What does not touch the loop's sight of the simulator keeps its ruling. -/
theorem Ruling.congr {total : ℕ} {x y : Loop} {reason : Reason} (h : Ruling total x reason)
    (hseen : y.r.simSeen = x.r.simSeen) (hadmission : y.r.admission = x.r.admission) (hn : y.n = x.n) :
    Ruling total y reason := by
  cases h with
  | lost h => exact .lost (by rwa [hseen])
  | stale hcontrol h => exact .stale (by rwa [hseen]) (by rwa [hadmission])
  | settled hcontrol hfresh h hreason => exact .settled (by rwa [hseen]) (by rwa [hadmission]) (by rwa [hseen, hn]) hreason

/-- The reason that ends a cycle of a vehicle that nothing stops, on honest frames. -/
theorem terminalReason_ruled {total : ℕ} {y : Loop} {i : EpisodeInput F64} {count : ℕ} (hstop : i.stopReason = none)
    (hsim : i.simReason = y.r.simSeen.map BitVec.toNat)
    (hlegal : ∀ r ∈ y.r.simSeen, r = 1 ∨ r = 2 ∨ r = 3) (htilt : Episode.freshDiverged i = false)
    (hage : i.staleness = y.r.admission.cycle.staleness) (hhorizon : i.horizonReached = (y.n == total))
    (hends : Episode.terminalReason count i ≠ .none) : Ruling total y (Episode.terminalReason count i) := by
  unfold Episode.terminalReason at hends ⊢
  have hknown : (i.simReason.any fun sim => sim != 1 && sim != 2 && sim != 3) = false := by
    rw [hsim]
    cases hseen : y.r.simSeen with
    | none => rfl
    | some r => rcases hlegal r hseen with rfl | rfl | rfl <;> rfl
  have hlost : (i.simReason == some 2 || i.simReason == some 3) = true ↔
      y.r.simSeen = some 2 ∨ y.r.simSeen = some 3 := by
    rw [hsim]
    cases hseen : y.r.simSeen with
    | none => simp
    | some r => rcases hlegal r hseen with rfl | rfl | rfl <;> decide
  have hfirst : (i.simReason == some 1) = true → y.r.simSeen = some 1 := by
    rw [hsim]
    cases hseen : y.r.simSeen with
    | none => exact nofun
    | some r => rcases hlegal r hseen with rfl | rfl | rfl <;> decide
  rw [hstop, hknown, if_neg Bool.false_ne_true] at hends ⊢
  dsimp only at hends ⊢
  by_cases hcontrol : (i.simReason == some 2 || i.simReason == some 3) = true
  · rw [if_pos hcontrol]
    exact .lost (hlost.mp hcontrol)
  rw [if_neg hcontrol, if_neg (by rw [htilt]; exact Bool.false_ne_true)] at hends ⊢
  have hcontrol : y.r.simSeen ≠ some 2 ∧ y.r.simSeen ≠ some 3 := not_or.mp fun h => hcontrol (hlost.mpr h)
  by_cases hstale : 21 ≤ i.staleness
  · rw [if_pos hstale]
    exact .stale hcontrol (hage ▸ hstale)
  rw [if_neg hstale] at hends ⊢
  by_cases hover : (i.horizonReached || i.simReason == some 1) = true
  · rw [if_pos hover]
    refine .settled hcontrol (by omega) ?_ (by split <;> simp)
    rcases Bool.or_eq_true_iff.mp hover with hover | hover
    · rw [hhorizon] at hover
      exact .inl (beq_iff_eq.mp hover)
    · exact .inr (hfirst hover)
  · rw [if_neg hover] at hends
    exact absurd rfl hends

/-- An act of the vehicle in which it is not told to stop. -/
def VehicleAct.Unstopped : VehicleAct → Prop
  | .cycle _ stop _ _ => stop = false
  | _ => True

namespace VehicleSide

variable {cfg : RunConfig} {clock : ℕ → ℤ} {moment : ℕ} {v : VehicleSide}

/-- What a vehicle keeps that nothing stops: while its schedule runs nothing has failed and no command waits, and its end
is by the rules. -/
structure Ruled (cfg : RunConfig) (v : VehicleSide) : Prop where
  going : ∀ o x, v.flight = some (o, x) → x.running = true →
    x.r.failure = .none ∧ x.r.state.mode ≠ .terminated ∧ x.r.state.pending = none
  ended : ∀ o x, v.flight = some (o, x) → x.r.terminalCycle ≠ 0 →
    x.r.failure = .none ∧ ∃ t, x.r.state.terminal = some t ∧ Ruling cfg.total x t.reason

omit [Arith F64] in
/-- What leaves the flight keeps the rules. -/
theorem Ruled.of_flight {v' : VehicleSide} (h : Ruled cfg v) (hflight : v'.flight = v.flight) : Ruled cfg v' :=
  ⟨fun o x hsome => h.going o x (hflight.symm.trans hsome), fun o x hsome => h.ended o x (hflight.symm.trans hsome)⟩

/-- A cycle of the schedule that nothing stops, on honest frames. -/
theorem ruled_cycle {c : Config} {o : Origin} {x y : Loop} {moments : CycleMoments} {polled : Polled} {sent pushed : Bool}
    (hruns : x.Runs c (polled.event clock moments false sent pushed))
    (hbody : x.body c o.carry (polled.event clock moments false sent pushed) = y)
    (hfailure : x.r.failure = .none) (hlive : x.r.state.mode ≠ .terminated) (hpending : x.r.state.pending = none)
    (hzero : x.r.terminalCycle = 0) (hlegal : ∀ r ∈ y.r.simSeen, r = 1 ∨ r = 2 ∨ r = 3)
    (htilt : ∀ sample ∈ y.r.admission.held, Arith.lt 0.30 (Arith.abs sample.theta) = false) :
    y.r.failure = .none ∧
      (y.running = true → y.r.state.mode ≠ .terminated ∧ y.r.state.pending = none) ∧
      (y.r.terminalCycle ≠ 0 → ∃ t, y.r.state.terminal = some t ∧ Ruling c.total y t.reason) := by
  obtain ⟨errors, errno, refused, hcycled⟩ := Loop.body_eq o.carry hruns
  rw [hbody] at hcycled
  generalize hinput : x.input c o.carry (polled.event clock moments false sent pushed) = i
  have hcommand : i.command = none := by rw [← hinput]; rfl
  have hstop : i.stopReason = none := by rw [← hinput]; rfl
  have hsim : i.simReason = y.r.simSeen.map BitVec.toNat := by rw [← hinput, hcycled]; rfl
  have hage : i.staleness = y.r.admission.cycle.staleness := by rw [← hinput, hcycled]; rfl
  have hhorizon : i.horizonReached = (y.n == c.total) := by rw [← hinput, hcycled]; rfl
  have hstate : y.r.state = (Episode.step x.r.state i).state := by rw [← hinput, hcycled]; rfl
  have hrunning : y.running = !((Episode.step x.r.state i).state.mode == .terminated) := by
    rw [← hinput, hcycled]
    rfl
  have hcycle : y.r.terminalCycle = if (Episode.step x.r.state i).state.mode == .terminated then 1 else 0 := by
    rw [← hinput, hcycled, ← hzero]
    rfl
  have hdiverged : Episode.freshDiverged i = false := by
    have hheld : i.held = y.r.admission.held.map observation := by rw [← hinput, hcycled]; rfl
    unfold Episode.freshDiverged
    rw [hheld]
    cases hsample : y.r.admission.held with
    | none => exact Bool.and_false _
    | some sample =>
      have hwithin := htilt sample hsample
      show (i.fresh && Arith.lt 0.30 (Arith.abs sample.theta)) = false
      rw [hwithin]
      exact Bool.and_false _
  refine ⟨by rw [hcycled]; exact hfailure, ?_⟩
  rcases Episode.step_uncommanded hlive hpending hcommand with ⟨hgoes, hnone, -⟩ | ⟨hover, hends, hterminal⟩
  · rw [hstate, hcycle, if_neg (by simpa using hgoes)]
    exact ⟨fun _ => ⟨hgoes, hnone⟩, fun hne => absurd rfl hne⟩
  · rw [hrunning, hover]
    refine ⟨fun hfalse => absurd hfalse (by decide), fun _ => ⟨_, hstate ▸ hterminal, ?_⟩⟩
    exact terminalReason_ruled hstop hsim hlegal hdiverged hage hhorizon hends

/-- An act of the vehicle that is not told to stop, on honest frames. -/
theorem Ruled.act {a : VehicleAct} {out : Outcome VehicleSide} (h : Ruled cfg v) (hkept : Kept cfg clock v)
    (hheeds : out.side.Heeds Honest) (hstop : a.Unstopped) (hact : v.act cfg clock moment a = some out) :
    Ruled cfg out.side := by
  cases acted hact with
  | @listened opened arrival frame o hgrounded horigin horder hfits =>
    refine ⟨fun o' x hsome _ => ?_, fun o' x hsome hne => ?_⟩
    all_goals obtain ⟨rfl, rfl⟩ := Prod.mk.inj (Option.some.inj hsome)
    · exact ⟨rfl, nofun, rfl⟩
    · exact absurd rfl hne
  | @overslept sleepError o x hflight hidle hlater hgoes hsleep =>
    obtain ⟨hrunning, hn⟩ := Bool.and_eq_true_iff.mp hgoes
    have hfails : ¬(sleepError = 0 ∨ sleepError = EINTR) := by
      rw [← slept_iff, hsleep]
      exact Bool.false_ne_true
    have hbody := Loop.body_of_failed o.carry (e := Freerun.overslept sleepError) hrunning (of_decide_eq_true hn) hfails
    have hliving := (hkept.flown o x hflight).living hrunning
    refine ⟨fun o' y hsome hgoes => ?_, fun o' y hsome hne => ?_⟩
    all_goals obtain ⟨rfl, rfl⟩ := Prod.mk.inj (Option.some.inj hsome)
    · rw [hbody] at hgoes
      nomatch hgoes
    · rw [hbody] at hne
      exact absurd hliving hne
  | polled => exact h.of_flight rfl
  | @cycled moments stop sent pushed o x y polled hflight hpolled horder hruns hbody =>
    obtain rfl : stop = false := hstop
    obtain ⟨hfailure, hlive, hpending⟩ := h.going o x hflight hruns.1
    have hadmitted := hheeds.admitted o y rfl
    obtain ⟨hsound, hgoes, hends⟩ := ruled_cycle hruns hbody hfailure hlive hpending
      ((hkept.flown o x hflight).living hruns.1)
      (fun r hr => by
        obtain ⟨f, hf, hterminal, rfl⟩ := hheeds.seen r hr
        exact hf.2 hterminal)
      (fun sample hsample => by
        obtain ⟨f, hf, hordinary, -, rfl⟩ := hadmitted.held sample hsample
        exact hf.1 hordinary)
    refine ⟨fun o' x' hsome hrunning => ?_, fun o' x' hsome hne => ?_⟩
    all_goals obtain ⟨rfl, rfl⟩ := Prod.mk.inj (Option.some.inj hsome)
    · exact ⟨hsound, hgoes hrunning⟩
    · exact ⟨hsound, hends hne⟩
  | closed => exact h.of_flight rfl
  | @copied sent tx o x hflight horder hclosed hrunning hended hleft =>
    refine ⟨fun o' y hsome hgoes => ?_, fun o' y hsome hne => ?_⟩
    all_goals obtain ⟨rfl, rfl⟩ := Prod.mk.inj (Option.some.inj hsome)
    · exact h.going o x hflight hgoes
    · obtain ⟨hsound, t, hterminal, hruling⟩ := h.ended o x hflight hne
      exact ⟨hsound, t, hterminal, hruling.congr rfl rfl rfl⟩
  | quitted => exact h.of_flight rfl

end VehicleSide

end Tvc.Freerun
