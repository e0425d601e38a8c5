import Tvc.Freerun.Process
import Tvc.Lib.Checked

/-!
# The command line of `src/main.cpp`

`parse` reads one argument after another into a configuration and then checks it as a whole. An argument is given
with the value that its conversion made of its text, or none if the conversion failed. Options that neither another
check nor the schedule of a free run reads are one kind of argument.

The bound on the cycles of a free run is computed in 64 bits, where an overflow is no error message but undefined:
it is an outcome of its own.
-/

namespace Tvc.Freerun

open Checked (Signed Fits result)

/-- `std::int64_t`. -/
abbrev I64 := Signed 63

/-- An argument with its converted value. -/
inductive Argument
  | help
  | mode (value : String)
  | autoArm
  | ground (value : Option (String × ℕ))
  | sensorPort (value : Option I64)
  | phaseUs (value : Option I64)
  | skewMaxTicks (value : Option I64)
  | terminalCopies (value : Option I64)
  | label (value : String)
  | rate (value : Option F64)
  | cycles (value : Option I64)
  | warmup (value : Option I64)
  | telemetry
  | record (control : Option Bool)
  | setting (accepted : Bool)
  | unknown

/-- Why `parse` does not return a configuration. -/
inductive ParseFailure
  | help
  | error
  | overflow
  deriving DecidableEq, Repr

/-- `Config` of `src/main.cpp`, as far as a check or the schedule of a free run reads it. The values of the free-run
options are in their ranges from the start. -/
structure MainConfig where
  mode : String := "harness"
  autoArm : Bool := false
  seenCycles : Bool := false
  seenWarmup : Bool := false
  seenSensor : Bool := false
  seenFree : Bool := false
  phaseUs : { v : ℤ // 0 < v ∧ v < 2000 } := ⟨400, by decide⟩
  skewMax : { v : ℤ // 0 ≤ v ∧ v ≤ 64 } := ⟨4, by decide⟩
  terminalCopies : { v : ℤ // 1 ≤ v ∧ v ≤ 64 } := ⟨12, by decide⟩
  groundHost : String := ""
  label : String := "run"
  rateHz : F64
  cycles : I64 := ⟨300000, by decide⟩
  warmup : I64 := ⟨5000, by decide⟩
  telemetry : Bool := false
  recordControl : Bool := false

/-- `label_ok`. -/
def labelOk (s : String) : Bool := !s.isEmpty && s.toList.all fun c => c.isAlphanum || c == '.' || c == '_' || c == '-'

/-- A converted value with a property. -/
def within (p : ℤ → Prop) [DecidablePred p] : Option I64 → Except ParseFailure { v : ℤ // p v }
  | none => .error .error
  | some v => if h : p v.1 then .ok ⟨v.1, h⟩ else .error .error

/-- A converted value. -/
def converted {α : Type} : Option α → Except ParseFailure α
  | none => .error .error
  | some v => .ok v

/-- The loop of `parse` on one argument. -/
def MainConfig.take (c : MainConfig) : Argument → Except ParseFailure MainConfig
  | .help => .error .help
  | .mode value => .ok { c with mode := value }
  | .autoArm => .ok { c with autoArm := true }
  | .ground value => do
    let ground ← converted value
    return { c with seenFree := true, groundHost := ground.1 }
  | .sensorPort value => do
    let _ ← within (fun port => 0 ≤ port ∧ port ≤ 65535) value
    return { c with seenSensor := true }
  | .phaseUs value => do
    let phaseUs ← within _ value
    return { c with seenFree := true, phaseUs }
  | .skewMaxTicks value => do
    let skewMax ← within _ value
    return { c with seenFree := true, skewMax }
  | .terminalCopies value => do
    let terminalCopies ← within _ value
    return { c with seenFree := true, terminalCopies }
  | .label value => .ok { c with label := value }
  | .rate value => do
    let rateHz ← converted value
    return { c with rateHz }
  | .cycles value => do
    let cycles ← converted value
    return { c with seenCycles := true, cycles }
  | .warmup value => do
    let warmup ← converted value
    return { c with seenWarmup := true, warmup }
  | .telemetry => .ok { c with telemetry := true }
  | .record control => do
    let recordControl ← converted control
    return { c with recordControl }
  | .setting accepted => if accepted then .ok c else .error .error
  | .unknown => .error .error

/-- The most cycles that a free run may have after a warmup, computed step by step. -/
def cycleBound (warmup : I64) : Option I64 := do
  let quotient ← result 63 (INT64_MAX / 2000000)
  let room ← result 63 (quotient.1 - 64)
  result 63 (room.1 - warmup.1)

variable [Arith F64]

/-- The doubles differ. -/
def differ (x y : F64) : Bool := !(Arith.le x y && Arith.le y x)

/-- An error if the condition holds. -/
def refuseIf (condition : Bool) : Except ParseFailure Unit := if condition then .error .error else .ok ()

/-- The check of a free run: the bound is computed only when the warmup is not negative. -/
def MainConfig.checkFreerun (c : MainConfig) : Except ParseFailure Unit :=
  if c.cycles.1 < 1000 || c.warmup.1 < 0 || !c.telemetry || differ c.rateHz 500.0 then .error .error
  else
    match cycleBound c.warmup with
    | none => .error .overflow
    | some bound => refuseIf (decide (bound.1 < c.cycles.1))

/-- The check of the mode. -/
def MainConfig.checkMode (c : MainConfig) : Except ParseFailure Unit :=
  if c.mode == "freerun" then c.checkFreerun
  else if c.mode == "lockstep" then
    refuseIf (c.seenCycles || (c.seenWarmup && c.warmup.1 != 0) || !c.telemetry || differ c.rateHz 500.0)
  else refuseIf (c.autoArm || c.seenSensor)

/-- The checks of `parse` after its loop. -/
def MainConfig.check (c : MainConfig) : Except ParseFailure Unit := do
  refuseIf (c.mode != "harness" && c.mode != "lockstep" && c.mode != "freerun")
  refuseIf (c.seenFree && c.mode != "freerun")
  c.checkMode
  refuseIf (!labelOk c.label)
  refuseIf (Arith.le c.rateHz 0.0)
  refuseIf (decide (c.cycles.1 ≤ 0))
  refuseIf (decide (c.warmup.1 < 0))
  refuseIf (c.recordControl && !c.telemetry)

/-- `parse`. -/
def parse (args : List Argument) : Except ParseFailure MainConfig := do
  let c ← args.foldlM MainConfig.take { rateHz := 500.0 }
  c.check
  return c

end Tvc.Freerun
