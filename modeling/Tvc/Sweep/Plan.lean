import Tvc.Harness.CommandLine

/-!
# The campaign of `scripts/sweep.py`

`plan_levels` and `plan_runs`: which runs a campaign makes, with the flags, the label and the numbers of each. Every
level has the flags of the levels below it.

How `int` reads a text is left open.
-/

namespace Tvc.Sweep

open Harness (Text text)

attribute [local instance] ieee

/-- A flag of a level; the CPU is filled in later. -/
inductive Flag
  | fixed (flag : Text)
  | cpu
  deriving DecidableEq

/-- `format`. -/
def Flag.format (cpu : Text) : Flag → Text
  | .fixed flag => flag
  | .cpu => text "--cpu=" ++ cpu

/-- A row of `LEVELS`. -/
structure Level where
  label : Text
  description : String
  add : List Flag
  peer : Option String

/-- `LEVELS`. -/
def LEVELS : List Level := [
  ⟨text "L0", "baseline: sleep_for, allocating telemetry path", [], none⟩,
  ⟨text "L1", "absolute deadlines (clock_nanosleep TIMER_ABSTIME)", [.fixed (text "--abs-deadline")], none⟩,
  ⟨text "L2", "+ mlockall and pre-faulted stack and heap", [.fixed (text "--mlock")], none⟩,
  ⟨text "L3", "+ SCHED_FIFO priority 80", [.fixed (text "--fifo=80")], none⟩,
  ⟨text "L4", "+ pinned to an isolated core", [.cpu], none⟩,
  ⟨text "L5", "+ allocation-free hot path",
    [.fixed (text "--no-naive-log"), .fixed (text "--alloc-guard=abort")], none⟩,
  ⟨text "L6", "+ telemetry ring + drain thread", [.fixed (text "--telemetry")], none⟩,
  ⟨text "L7", "+ control record (128 B)",
    [.fixed (text "--telemetry"), .fixed (text "--record=control")], none⟩,
  ⟨text "L8", "+ sensor and actuator sockets, PID, episode machine",
    [.fixed (text "--mode=freerun"), .fixed (text "--auto-arm"), .fixed (text "--telemetry"),
      .fixed (text "--record=control")], some "S1-hold"⟩]

/-- `QUALIFIED_CYCLES`. -/
def QUALIFIED_CYCLES : ℤ := 300000

/-- `plan_levels`: the levels that can run, and why the campaign stops. -/
def planLevels (cpu : Option ℤ) : List Level → Except String (List Level × Option String)
  | [] => .ok ([], none)
  | level :: rest =>
    if level.add.contains (.fixed (text "--mode=lockstep")) then .error "lockstep is not a sweep workload"
    else if level.add.contains .cpu && cpu.isNone then
      .ok ([], some (String.ofList level.label ++ " needs --cpu; campaign stops here"))
    else (planLevels cpu rest).map fun planned => (level :: planned.1, planned.2)

/-- The arguments of the campaign that `plan_runs` reads. -/
structure Args where
  cycles : ℤ
  warmup : ℤ
  repeats : ℤ
  rate : F64
  cpu : Option ℤ
  only : List Text
  phaseUs : Text
  peerCpu : Option ℤ
  interleave : Bool

/-- A run of the campaign. `peer_cpu` belongs to the runs of L8. -/
structure Run where
  level : Text
  description : String
  flags : List Text
  phaseUs : Option ℤ
  cycles : ℤ
  warmup : ℤ
  rate : F64
  peerCpu : Option ℤ
  number : ℕ
  label : Text
  deriving DecidableEq

/-- A `ValueError` if the condition holds. -/
def refuseIf (condition : Bool) (message : String) : Except String Unit :=
  if condition then .error message else .ok ()

/-- A refusal that did not happen. -/
theorem refuseIf_ok {condition : Bool} {message : String} {u : Unit} (h : refuseIf condition message = .ok u) :
    condition = false := by
  cases condition with
  | false => rfl
  | true => cases h

/-- A computation that went through did each of its parts. -/
theorem bind_ok {α β : Type} {x : Except String α} {f : α → Except String β} {b : β} (h : x >>= f = .ok b) :
    ∃ a, x = .ok a ∧ f a = .ok b := by
  cases x with
  | error e => cases h
  | ok a => exact ⟨a, rfl, h⟩

/-- A check that passes. -/
theorem refuse_pass {α : Type} {condition : Bool} (h : condition = false) (message : String)
    (f : Unit → Except String α) : (refuseIf condition message >>= f) = f () := by
  rw [h]
  rfl

/-- A value that is there. -/
theorem ok_bind {α β : Type} (a : α) (f : α → Except String β) : (Except.ok a >>= f) = f a := rfl

/-- The text of the CPU. -/
def cpuText (cpu : Option ℤ) : Text := cpu.elim (text "None") Text.integer

/-- The last deadline fits into 64 bits for this many cycles. -/
def MAX_CYCLES : ℤ := (2 ^ 63 - 1) / 2000000 - 64

/-- The check of `plan_runs` for a run of L8. -/
def refuseL8 (args : Args) (level : Level) : Except String Unit :=
  refuseIf (level.label == text "L8" &&
      (Freerun.differ args.rate 500.0 || args.cycles < 1000 || MAX_CYCLES < args.cycles + args.warmup))
    "L8 requires rate 500 and cycles >= 1000 within scheduling range"

/-- The runs of one level, before they are repeated. -/
def levelPlans (args : Args) (phases : List ℤ) (flags : List Text) (level : Level) : List Run :=
  (if level.label == text "L8" then phases.map some else [none]).map fun phase => {
    level := level.label, description := level.description, flags, phaseUs := phase, cycles := args.cycles
    warmup := args.warmup, rate := args.rate, peerCpu := if level.label == text "L8" then args.peerCpu else none
    number := 0, label := [] }

/-- The loop of `plan_runs` over the levels; `flags` are those of the levels before. -/
def plansOf (args : Args) (phases : List ℤ) : List Text → List Level → Except String (List Run)
  | _, [] => .ok []
  | flags, level :: rest =>
    let flags := flags ++ level.add.map (Flag.format (cpuText args.cpu))
    if !args.only.isEmpty && !args.only.contains level.label then plansOf args phases flags rest
    else do
      refuseL8 args level
      let plans ← plansOf args phases flags rest
      return levelPlans args phases flags level ++ plans

/-- A run with its number and its label. -/
def Run.numbered (plan : Run) (grid : Bool) (repeats : ℤ) (number : ℕ) : Run :=
  { plan with
    number
    label := plan.level ++ (if grid then text ".phase" ++ cpuText plan.phaseUs else []) ++
      (if 1 < repeats then text ".r" ++ Text.decimal number else []) }

/-- The runs in their order. -/
def ordered (args : Args) (grid : Bool) (plans : List Run) : List Run :=
  let numbers := (List.range args.repeats.toNat).map (· + 1)
  if args.interleave then numbers.flatMap fun number => plans.map fun plan => plan.numbered grid args.repeats number
  else plans.flatMap fun plan => numbers.map fun number => plan.numbered grid args.repeats number

/-- `plan_runs`: the runs, and why the campaign stops before its last level. -/
def planRuns (int : Text → Option ℤ) (args : Args) : Except String (List Run × Option String) := do
  refuseIf (args.cycles ≤ 0 || args.warmup < 0 || args.repeats ≤ 0 || !args.rate.isFinite || Arith.le args.rate 0.0)
    "invalid cycles, warmup, repeats or rate"
  refuseIf (args.cpu.any fun cpu => cpu < 0) "invalid CPU"
  refuseIf (!args.only.isEmpty &&
      !(decide args.only.Nodup && args.only.all fun label => (LEVELS.map Level.label).contains label))
    "unknown or duplicate level"
  let phases ← ((args.phaseUs.splitOn ',').mapM int).elim (.error "invalid phase") .ok
  refuseIf (phases.any fun phase => phase ≤ 0 || 2000 ≤ phase) "phase outside scheduling range"
  let grid := 1 < phases.length
  refuseIf (grid && (phases != [200, 400, 800] || args.only != [text "L8"] || args.repeats != 3 || !args.interleave))
    "phase grid requires 200,400,800, only L8, repeat 3 and interleave"
  refuseIf (args.peerCpu.any fun cpu => cpu < 0) "invalid peer CPU"
  let runnable ← planLevels args.cpu LEVELS
  let plans ← plansOf args phases [] runnable.1
  let plannedL8 := plans.any fun plan => plan.level == text "L8"
  refuseIf (args.peerCpu.isNone && plannedL8 && (grid || QUALIFIED_CYCLES ≤ args.cycles))
    "qualified L8 requires --peer-cpu"
  refuseIf (args.peerCpu.isSome && !plannedL8) "--peer-cpu applies only to L8"
  return (ordered args grid plans, runnable.2)

end Tvc.Sweep
