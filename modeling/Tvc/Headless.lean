import Tvc.EpisodeRef
import Tvc.Simulator

/-!
# The headless reference of `sim/run_headless.py`

One process runs the scenario tick by tick: it draws both losses, observes, runs the episode
machine, pushes the command through the delay, moves the actuator, and steps the plant, until a
simulator reason or the end of the episode breaks the loop.
-/

namespace Tvc.Headless

variable {F : Type} [Arith F] [Classify F]

/-- `Row` of `sim/trace.py`. -/
structure Row (F : Type) where
  tick : ℕ
  truth : TruthState F
  observation : Observation F
  held : Option (Observation F)
  fresh : Bool
  staleness : ℕ
  command : Option Command
  episode : EpisodeOutput F
  arriving : Option F
  actuator : ActuatorState F
  upDrop : Bool
  downDrop : Bool

/-- The variables of the loop of `run_headless`, with the rows so far. -/
structure Loop (F : Type) where
  streamUp : U64
  streamDown : U64
  delay : List (Option F)
  truth : TruthState F
  act : ActuatorState F
  state : EpisodeState F
  held : Option (Observation F) := none
  pendingReason : Option SimReason := none
  commandSeq : U32 := 0
  rows : List (Row F) := []
  simReason : Option SimReason := none
  broken : Bool := false

/-- The loop before its first tick; `delay_ticks` is 0 or 1. -/
def initial (spec : Scenario F) (seed : U64) (delayTicks : Fin 2) : Loop F where
  streamUp := Rng.streamState seed .linkLossUp
  streamDown := Rng.streamState seed .linkLossDown
  delay := List.replicate delayTicks none
  truth := spec.initial
  act := Actuator.initial
  state := EpisodeRef.initial spec.autoArm

/-- The observation of a tick, blanked by an uplink drop. -/
def observation (tick : ℕ) (truth : TruthState F) (upDrop : Bool) : Observation F :=
  if upDrop then ⟨tick, 0.0, 0.0, false⟩ else observe tick truth

/-- The observation is usable. -/
def isFresh (o : Observation F) : Bool := o.valid && Classify.isFinite o.theta && Classify.isFinite o.omega

/-- The age of the held observation. -/
def ageOf (held : Option (Observation F)) (tick : ℕ) : ℕ :=
  min (match held with
    | some held => tick - held.tick
    | none => tick + 1) 0xffffffff

/-- The loss of a tick: forced by the scenario, or as drawn. -/
def dropOf (spec : Scenario F) (tick : ℕ) (direction : Direction) (raw : Bool) : Bool :=
  match spec.forcedDropAt tick direction with
  | none => raw
  | some forced => forced

/-- The simulator reason of a tick. -/
def reasonOf (spec : Scenario F) (pending : Option SimReason) (tick : ℕ) : Option SimReason :=
  if pending.isNone && tick == spec.ticks - 1 then some .horizon else pending

/-- `_Delay.push_pop`. -/
def pushPop (delay : List (Option F)) (arriving : Option F) : Option F × List (Option F) :=
  ((delay ++ [arriving]).headD none, (delay ++ [arriving]).tail)

/-- One tick of the loop. -/
def tick (spec : Scenario F) (s : Loop F) (tick : ℕ) : Loop F :=
  let (rawUp, streamUp) := drawDrop s.streamUp spec.lossUp
  let (rawDown, streamDown) := drawDrop s.streamDown spec.lossDown
  let upDrop := dropOf spec tick .up rawUp
  let downDrop := dropOf spec tick .down rawDown
  let disturbance := spec.disturbanceAt tick fixedEnvironment
  let observation := observation tick s.truth upDrop
  let fresh := isFresh observation
  let held := if fresh then some observation else s.held
  let age := ageOf held tick
  let opcode := spec.commandAt tick
  let commandSeq := if opcode.isSome then s.commandSeq + 1 else s.commandSeq
  let command := opcode.map fun opcode => Command.mk commandSeq opcode.toNat (tick + 50)
  let simReason := reasonOf spec s.pendingReason tick
  let output := EpisodeRef.step s.state
    ⟨tick, held, fresh, age, command, false, simReason.map SimReason.toNat, none⟩
  let (arriving, delay) := pushPop s.delay (if downDrop then none else some output.requestedDelta)
  let act := Actuator.step s.act arriving
  let row : Row F := ⟨tick, s.truth, observation, held, fresh, age, command, output, arriving, act, upDrop,
    downDrop⟩
  let s := { s with streamUp, streamDown, delay, act, state := output.state, held, commandSeq,
                    rows := s.rows ++ [row], simReason }
  if simReason.isSome then { s with broken := true }
  else if output.state.terminal.isSome then { s with simReason := some .vehicleTerminal, broken := true }
  else
    let truth := Plant.step s.truth act fixedEnvironment disturbance ControlRef.dt
    { s with truth, pendingReason := (Plant.lossOfControl truth).or s.pendingReason }

/-- The loop up to a tick; a broken loop stands still. -/
def upTo (spec : Scenario F) (seed : U64) (delayTicks : Fin 2) (n : ℕ) : Loop F :=
  (List.range n).foldl (fun s k => if s.broken then s else tick spec s k) (initial spec seed delayTicks)

/-- The rows of `run_headless`. -/
def rows (spec : Scenario F) (seed : U64) (delayTicks : Fin 2) : List (Row F) :=
  (upTo spec seed delayTicks spec.ticks).rows

end Tvc.Headless
