import Tvc.Floats

/-!
# The PID arithmetic of `src/control.cpp` and `sim/control_ref.py`

Both languages write the same expression tree over the same constants. The two functions are
kept apart, each as its own file writes it, and agree because they apply the same operations
to the same operands in the same order.
-/

namespace Tvc

/-- `Observation` of `src/model_types.hpp` and `sim/types.py`. -/
structure Observation (F : Type) where
  tick : ℕ
  theta : F
  omega : F
  valid : Bool
  deriving DecidableEq, Repr

/-- The controller state, `control::State` and `ControlState`. -/
structure ControlState (F : Type) where
  iState : F
  dPrev : F
  lastDelta : F
  deriving DecidableEq, Repr

variable {F : Type} [Arith F]

namespace Control

/-! The constants keep their construction, not just their decimal value. -/

def kp : F := 3.277
def ki : F := 7.68
def kd : F := 0.309
def dt : F := 1.0 / 500.0
def kiDt : F := ki * dt
def betaD : F := 1.0 / 3.0
def deltaMax : F := 0.12
def iMax : F := deltaMax
def thetaSp : F := 0.0
def negDeltaMax : F := -deltaMax
def negIMax : F := -iMax

/-- `control::initial`. -/
def initial : ControlState F := ⟨0.0, 0.0, 0.0⟩

/-- `control::step`: the command and the state it leaves. -/
def step (state : ControlState F) (obs : Observation F) : F × ControlState F :=
  let e : F := obs.theta - thetaSp
  let d : F := state.dPrev + betaD * (obs.omega - state.dPrev)
  let iUnclamped : F := state.iState + kiDt * e
  let iCand := if Arith.lt iMax iUnclamped then iMax else iUnclamped
  let iCand := if Arith.lt iCand negIMax then negIMax else iCand
  let u : F := (kp * e + iCand) + kd * d
  let satHi := Arith.lt deltaMax u
  let satLo := Arith.lt u negDeltaMax
  let delta := if satHi then deltaMax else if satLo then negDeltaMax else u
  let hold := (satHi && Arith.lt 0.0 e) || (satLo && Arith.lt e 0.0)
  let iNext := if hold then state.iState else iCand
  (delta, { iState := iNext, dPrev := d, lastDelta := delta })

end Control

namespace ControlRef

def kp : F := 3.277
def ki : F := 7.68
def kd : F := 0.309
def dt : F := 1.0 / 500.0
def kiDt : F := ki * dt
def betaD : F := 1.0 / 3.0
def deltaMax : F := 0.12
def iMax : F := deltaMax
def thetaSp : F := 0.0
def negDeltaMax : F := -deltaMax
def negIMax : F := -iMax

/-- `control_ref.initial`. -/
def initial : ControlState F := ⟨0.0, 0.0, 0.0⟩

/-- `control_ref.step`. -/
def step (state : ControlState F) (observation : Observation F) : F × ControlState F :=
  let e : F := observation.theta - thetaSp
  let d : F := state.dPrev + betaD * (observation.omega - state.dPrev)
  let iUnclamped : F := state.iState + kiDt * e
  let iCand := if Arith.lt iMax iUnclamped then iMax else iUnclamped
  let iCand := if Arith.lt iCand negIMax then negIMax else iCand
  let u : F := (kp * e + iCand) + kd * d
  let satHi := Arith.lt deltaMax u
  let satLo := Arith.lt u negDeltaMax
  let delta := if satHi then deltaMax else if satLo then negDeltaMax else u
  let hold := (satHi && Arith.lt 0.0 e) || (satLo && Arith.lt e 0.0)
  let iNext := if hold then state.iState else iCand
  (delta, ⟨iNext, d, delta⟩)

/-- The two initial controller states are the same. -/
theorem initial_eq : (initial : ControlState F) = Control.initial := rfl

/-- The two controllers apply the same operations in the same order. -/
theorem step_eq (state : ControlState F) (obs : Observation F) :
    step state obs = Control.step state obs := rfl

end ControlRef

end Tvc
