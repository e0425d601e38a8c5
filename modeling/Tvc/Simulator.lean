import Mathlib.Data.List.Pairwise
import Tvc.Episode

/-!
# The simulator's components, `sim/*.py`

The random streams and the loss draws, the sensor, the actuator and the plant, and the scenario
that a run resolves. Each function applies the operations of its file in the file's order. A
scenario carries the checks of `scenario.load`, so the components that repeat one of them on
each call cannot fail.
-/

namespace Tvc

/-! ## `sim/types.py` -/

/-- `TruthState`. -/
structure TruthState (F : Type) where
  theta : F
  omega : F
  deriving DecidableEq, Repr

/-- `ActuatorState`. -/
structure ActuatorState (F : Type) where
  applied : F
  deriving DecidableEq, Repr

/-- `Environment`. -/
structure Environment (F : Type) where
  kA : F
  deriving DecidableEq, Repr

/-- `Disturbance`. -/
structure Disturbance (F : Type) where
  tauD : F
  deriving DecidableEq, Repr

variable {F : Type}

/-! ## `sim/rng.py` -/

namespace Rng

/-- `GOLDEN`. -/
def golden : U64 := 0x9E3779B97F4A7C15
/-- `MIX1`. -/
def mix1 : U64 := 0xBF58476D1CE4E5B9
/-- `MIX2`. -/
def mix2 : U64 := 0x94D049BB133111EB

/-- `STREAMS`. -/
inductive Stream
  | linkLossUp | linkLossDown | sensorNoise | actuatorFault | environmentDisturbance
  | parameterSampling | scenario
  deriving DecidableEq, Repr

/-- The position of a stream in `STREAMS`. -/
def Stream.index : Stream → ℕ
  | .linkLossUp => 0
  | .linkLossDown => 1
  | .sensorNoise => 2
  | .actuatorFault => 3
  | .environmentDisturbance => 4
  | .parameterSampling => 5
  | .scenario => 6

/-- `_mix`. -/
def mix (value : U64) : U64 :=
  let value := (value ^^^ (value >>> 30)) * mix1
  let value := (value ^^^ (value >>> 27)) * mix2
  value ^^^ (value >>> 31)

/-- `stream_state`. -/
def streamState (master : U64) (name : Stream) : U64 :=
  mix (master + BitVec.ofNat 64 (name.index + 1) * golden)

/-- `SplitMix64.next_u64`: the word and the next state. -/
def nextU64 (state : U64) : U64 × U64 := (mix (state + golden), state + golden)

variable [Arith F]

/-- `TWO_M53`. -/
def twoM53 : F := 1.0 / 9007199254740992.0

/-- `SplitMix64.next_double`. -/
def nextDouble (state : U64) : F × U64 :=
  ((((nextU64 state).1 >>> 11).toNat : F) * twoM53, (nextU64 state).2)

end Rng

section Components

variable [Arith F]

/-- `link.draw_drop`, for a probability in range. -/
def drawDrop (stream : U64) (p : F) : Bool × U64 :=
  (Arith.lt (Rng.nextDouble stream : F × U64).1 p, (Rng.nextDouble stream : F × U64).2)

/-- `sensor.observe`. -/
def observe (tick : ℕ) (truth : TruthState F) : Observation F := ⟨tick, truth.theta, truth.omega, true⟩

/-- `environment.fixed`. -/
def fixedEnvironment : Environment F := ⟨9.0⟩

namespace Actuator

/-- `DELTA_MAX`. -/
def deltaMax : F := 0.12

/-- `actuator.initial`. -/
def initial : ActuatorState F := ⟨0.0⟩

/-- `actuator.step`. -/
def step (state : ActuatorState F) (arriving : Option F) : ActuatorState F :=
  match arriving with
  | none => state
  | some applied =>
    let applied := if Arith.lt deltaMax applied then deltaMax else applied
    let applied := if Arith.lt applied (-deltaMax) then -deltaMax else applied
    ⟨applied⟩

end Actuator

namespace Plant

/-- `fixmath.psin`. -/
def psin (x : F) : F :=
  let x2 := x * x
  x * (1.0 + x2 * (-1.0 / 6.0 + x2 * (1.0 / 120.0 + x2 * (-1.0 / 5040.0))))

/-- `FL`. -/
def fl : F := 27.0
/-- `J`. -/
def j : F := 0.36

/-- `plant.step`. -/
def step (truth : TruthState F) (actuator : ActuatorState F) (environment : Environment F)
    (disturbance : Disturbance F) (dt : F) : TruthState F :=
  let tau := environment.kA * truth.theta - fl * psin actuator.applied + disturbance.tauD
  let omegaNext := truth.omega + tau / j * dt
  let thetaNext := truth.theta + omegaNext * dt
  ⟨thetaNext, omegaNext⟩

/-- The reason the new truth gives to end the run, if any. -/
def lossOfControl [Classify F] (truth : TruthState F) : Option SimReason :=
  if !Classify.isFinite truth.theta || !Classify.isFinite truth.omega then some .locNonfinite
  else if Arith.lt 0.30 (Arith.abs truth.theta) then some .locAngle
  else none

end Plant

/-! ## `sim/scenario.py` -/

/-- The direction of a link. -/
inductive Direction
  | up | down
  deriving DecidableEq, Repr

/-- `_interval`: a nonempty range of ticks of the run. -/
def IsInterval (ticks start stop : ℕ) : Prop := start < stop ∧ stop ≤ ticks

/-- `_probability`: a number in the unit interval. -/
def IsProbability (p : F) : Prop := Arith.le 0.0 p = true ∧ Arith.le p 1.0 = true

/-- `Scenario`, with the checks that `load` makes. -/
structure Scenario (F : Type) [Arith F] [Classify F] where
  ticks : ℕ
  initial : TruthState F
  gusts : List (ℕ × ℕ × F)
  lossUp : F
  lossDown : F
  lossStartTick : ℕ
  blackoutUp : Option (ℕ × ℕ)
  blackoutDown : Option (ℕ × ℕ)
  commands : List (ℕ × Opcode)
  autoArm : Bool
  ticks_pos : 0 < ticks
  initial_finite : Classify.isFinite initial.theta = true ∧ Classify.isFinite initial.omega = true
  gusts_intervals : ∀ g ∈ gusts, IsInterval ticks g.1 g.2.1 ∧ Classify.isFinite g.2.2 = true
  gusts_ordered : gusts.Pairwise fun g h => g.2.1 ≤ h.1
  lossUp_probability : IsProbability lossUp
  lossDown_probability : IsProbability lossDown
  lossStartTick_le : lossStartTick ≤ ticks
  blackoutUp_interval : ∀ b ∈ blackoutUp, IsInterval ticks b.1 b.2
  blackoutDown_interval : ∀ b ∈ blackoutDown, IsInterval ticks b.1 b.2
  commands_ticks : ∀ c ∈ commands, c.1 < ticks
  commands_increasing : commands.Pairwise fun c d => c.1 < d.1

namespace Scenario

variable [Classify F]

/-- `disturbance_at`, for a tick of the run. -/
def disturbanceAt (spec : Scenario F) (tick : ℕ) (environment : Environment F) : Disturbance F :=
  match spec.gusts.find? fun g => g.1 ≤ tick && tick < g.2.1 with
  | some g => ⟨environment.kA * g.2.2⟩
  | none => ⟨0.0⟩

/-- `command_at`, for a tick of the run. -/
def commandAt (spec : Scenario F) (tick : ℕ) : Option Opcode :=
  (spec.commands.find? fun c => tick == c.1).map Prod.snd

/-- `forced_drop_at`, for a tick of the run. -/
def forcedDropAt (spec : Scenario F) (tick : ℕ) (direction : Direction) : Option Bool :=
  let blackout := if direction = .up then spec.blackoutUp else spec.blackoutDown
  if blackout.any fun b => b.1 ≤ tick && tick < b.2 then some true
  else if tick < spec.lossStartTick then some false
  else none

/-- A command of a tick is one of the scenario. -/
theorem mem_commands_of_commandAt {spec : Scenario F} {tick : ℕ} {opcode : Opcode}
    (h : spec.commandAt tick = some opcode) : (tick, opcode) ∈ spec.commands := by
  obtain ⟨c, hc, rfl⟩ := Option.map_eq_some_iff.mp h
  have hmem := List.mem_of_find?_eq_some hc
  have htick : tick = c.1 := by simpa using List.find?_some hc
  rwa [htick]

end Scenario

end Components

/-! ## A scenario at rest -/

section AtRest

attribute [local instance] ieee

/-- The rocket stands upright, and nothing is lost. -/
def Scenario.still (ticks : ℕ) (commands : List (ℕ × Opcode)) (autoArm : Bool) (hticks : 0 < ticks)
    (hcommands : ∀ c ∈ commands, c.1 < ticks) (hincreasing : commands.Pairwise fun c d => c.1 < d.1) :
    Scenario F64 where
  ticks
  initial := ⟨⟨0⟩, ⟨0⟩⟩
  gusts := []
  lossUp := ⟨0⟩
  lossDown := ⟨0⟩
  lossStartTick := ticks
  blackoutUp := none
  blackoutDown := none
  commands
  autoArm
  ticks_pos := hticks
  initial_finite := by decide
  gusts_intervals := nofun
  gusts_ordered := .nil
  lossUp_probability := ⟨by decide +kernel, by decide +kernel⟩
  lossDown_probability := ⟨by decide +kernel, by decide +kernel⟩
  lossStartTick_le := le_rfl
  blackoutUp_interval := nofun
  blackoutDown_interval := nofun
  commands_ticks := hcommands
  commands_increasing := hincreasing

/-- No commands are in order. -/
theorem increasing_nil : ([] : List (ℕ × Opcode)).Pairwise fun c d => c.1 < d.1 := .nil

end AtRest

end Tvc
