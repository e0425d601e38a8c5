import Tvc.Sweep.Invocation
import Tvc.Sweep.Roster

/-!
# One run of a campaign

`run_row` of `scripts/sweep.py`: it starts the vehicle and, for a run of L8, the peer, waits for both and judges the
summary with `row_problem`. What it leaves is the row of the run and, for a run of L8, the replay. The processes, the
machine and the files they write are given.

The message about an unknown mode is without the mode.
-/

namespace Tvc.Sweep

open Harness (Text text)

attribute [local instance] ieee

/-! ## The judgement of a summary -/

/-- `summary_mode`: the mode, or what is wrong with it. -/
def summaryMode (summary : Json) : Except String Text :=
  if summary.fields?.isNone then .error "summary is not an object"
  else
    match summary.get? "mode" with
    | none => .error "summary has no mode field"
    | some mode =>
      orError (mode.text?.filter fun m => [text "harness", text "lockstep", text "freerun"].contains m) "unknown mode"

/-- A truth value. -/
def boolOf : Json → Option Bool
  | .bool b => some b
  | _ => none

/-- `ground_problem`. -/
def groundProblem (summary : Json) : Option String :=
  let requested := boolOf ((summary.get "ground").get "requested")
  let applied := boolOf ((summary.get "applied").get "ground")
  if requested.isNone || applied.isNone || requested != applied then
    some "ground requested/applied mismatch or missing status"
  else none

/-- The check of what was applied to a free run. -/
def freerunApplied (summary applied : Json) : Except String Unit := do
  let fields ← configFields summary
  let mismatch (key : String) : Bool := boolOf (applied.get key) != some (fields.lookup (text key)).isSome
  refuseIf (mismatch "mlock") "config was not applied: mlock"
  refuseIf (mismatch "fifo") "config was not applied: fifo"
  refuseIf (mismatch "cpu") "config was not applied: cpu"
  refuseIf (!(applied.get "telemetry").isTrue || !(applied.get "link").isTrue) "config was not applied: telemetry/link"
  (groundProblem summary).elim (.ok ()) .error

/-- `row_problem`: an error is the problem. -/
def rowProblem (summary : Json) : Except String Unit := do
  let mode ← summaryMode summary
  refuseIf (mode == text "lockstep") "lockstep has no timing evidence"
  let applied := summary.get "applied"
  refuseIf applied.fields?.isNone "config was not applied"
  if mode == text "freerun" then freerunApplied summary applied
  else
    refuseIf (["mlock", "fifo", "cpu"].any (fun key => !(applied.get key).isTrue) ||
      (applied.get? "telemetry").any fun telemetry => !telemetry.isTrue) "config was not applied"
  refuseIf (!((summary.get "cycles_requested").int?.any fun requested => 0 < requested &&
      (summary.get "cycles").int? == some requested)) "incomplete run or pre-integrity summary format"

/-! ## The CPU of the peer -/

/-- What the machine says of its CPUs. -/
structure Machine where
  online : List ℤ
  isolated : List ℤ
  affinity : List ℤ
  siblings : ℤ → Option (List ℤ)
  idleStates : ℤ → List (Text × ℤ)

/-- The text of a number in a message. -/
def shown (n : ℤ) : String := .ofList (Text.integer n)

/-- The text of some numbers in a message. -/
def shownList (ns : List ℤ) : String := "[" ++ ", ".intercalate ((ns.mergeSort (· ≤ ·)).map shown) ++ "]"

/-- `peer_cpu_problem`: an error is the problem. -/
def Machine.admit (m : Machine) (cpu : ℤ) (vehicle : Option ℤ) : Except String Unit := do
  refuseIf (cpu < 0) "invalid peer CPU"
  refuseIf (!m.online.contains cpu) ("peer CPU " ++ shown cpu ++ " is not online")
  refuseIf (!m.affinity.contains cpu)
    ("peer CPU " ++ shown cpu ++ " is outside the inherited affinity " ++ shownList m.affinity)
  let vehicle ← orError vehicle "a peer CPU requires a pinned vehicle CPU (--cpu)"
  refuseIf (cpu == vehicle) ("peer CPU " ++ shown cpu ++ " is the vehicle CPU")
  let siblings ← orError (m.siblings vehicle) ("cannot read the SMT siblings of vehicle CPU " ++ shown vehicle)
  refuseIf (siblings.contains cpu) ("peer CPU " ++ shown cpu ++ " is an SMT sibling of vehicle CPU " ++ shown vehicle)
  refuseIf (m.isolated.contains cpu) ("peer CPU " ++ shown cpu ++ " is isolated")
  refuseIf (m.idleStates cpu).isEmpty ("no cpuidle states visible for peer CPU " ++ shown cpu)
  ((m.idleStates cpu).find? fun state => state.2 != 1).elim (.ok ()) fun state =>
    .error ("idle state " ++ String.ofList state.1 ++ " of peer CPU " ++ shown cpu ++
      " is enabled; disable every state with cpupower -c " ++ shown cpu ++ " idle-set -D 0")

/-- Idle states as they are recorded. -/
def idleJson (states : List (Text × ℤ)) : Json :=
  .arr (states.map fun state => .obj [("name", .str state.1), ("disable", .int state.2)])

/-- The record of the peer: `peer_provenance` and what `launch_peer` verified. -/
def Machine.record (m : Machine) (cpu : ℤ) : Except String Json := do
  let siblings ← orError (m.siblings cpu) ("cannot read the SMT siblings of peer CPU " ++ shown cpu)
  return .obj [("cpu", .int cpu), ("siblings", .arr ((siblings.mergeSort (· ≤ ·)).map .int)),
    ("idle_states", idleJson (m.idleStates cpu)), ("affinity", .arr [.int cpu]), ("policy", .str (text "SCHED_OTHER"))]

/-! ## The row -/

/-- Texts as a list. -/
def texts (ts : List Text) : Json := .arr (ts.map .str)

/-- A number that may be missing. -/
def optionalInt (n : Option ℤ) : Json := n.elim .null .int

/-- The plan of a run as it is written. -/
def Run.fields (run : Run) : List (String × Json) :=
  [("level", .str run.level), ("description", .str run.description.toList), ("flags", texts run.flags),
    ("phase_us", optionalInt run.phaseUs), ("cycles", .int run.cycles), ("warmup", .int run.warmup),
    ("rate", .float run.rate.bits), ("repeat", .int run.number), ("label", .str run.label)] ++
  (if run.level == text "L8" then [("peer_cpu", optionalInt run.peerCpu)] else [])

/-- Where and with what a campaign runs. -/
structure Setup where
  binary : Text
  outdir : Text
  python : Text
  scenario : Text
  str : F64 → Text

/-- The `argv` that `run_row` starts the peer with. -/
def Run.simArgv (run : Run) (s : Setup) (port : Text) : List Text :=
  [s.python, text "-B", text "-m", text "sim.run_sim", text "--mode=freerun", text "--scenario=" ++ s.scenario,
    text "--seed=1", text "--loss=0.0", text "--delay-ticks=1",
    text "--ticks=" ++ Text.integer (peerTicks run.cycles run.warmup), text "--vehicle=127.0.0.1:" ++ port,
    text "--bind-port=0", text "--terminal-copies=12", text "--out=" ++ s.outdir, text "--label=" ++ run.label]

/-- A dictionary updated with the keys of another. -/
def update (fields more : List (String × Json)) : List (String × Json) :=
  fields.filter (fun field => !(more.map Prod.fst).contains field.1) ++ more

/-! ## The ready line -/

/-- What `lockstep::ready` prints, up to the end of the line. -/
def readyText (mode : Text) (port pid : ℕ) (bin consts : Text) : Text :=
  text "ready mode=" ++ mode ++ text " sensor_port=" ++ Text.decimal port ++ text " command_port=0 pid=" ++
    Text.decimal pid ++ text " bin=" ++ bin ++ text " consts=" ++ consts

/-- The fields of a ready line. -/
abbrev Ready := List (String × Text)

/-- A word of the ready line in the dictionary of its fields. -/
def addReady (fields : Ready) (word : Text) : Except String Ready :=
  let parts := Text.cut '=' word
  (orError parts.2 "dictionary update sequence element has length 1; 2 is required").map fun value =>
    fields.filter (fun field => field.1 != String.ofList parts.1) ++ [(String.ofList parts.1, value)]

/-- `ready_line`, on the first line that the vehicle prints. -/
def readyLine (mode : Text) (pid : ℕ) (line : Text) : Except String Ready := do
  refuseIf (!(text "ready ").isPrefixOf line) "invalid ready line"
  let fields ← ((Text.words isBlank line).drop 1).foldlM addReady []
  refuseIf (!(["mode", "sensor_port", "command_port", "pid", "bin", "consts"].all fun key => (fields.lookup key).isSome))
    "incomplete ready line"
  let number ← orError (Text.digits ((fields.lookup "pid").getD [])) "invalid literal for int()"
  refuseIf (fields.lookup "mode" != some mode || fields.lookup "command_port" != some (text "0") || number != pid)
    "invalid ready identity"
  let port ← orError (Text.digits ((fields.lookup "sensor_port").getD [])) "invalid literal for int()"
  refuseIf (!(0 < port && port ≤ 65535)) "invalid bound sensor port"
  return fields

/-- What a run meets with: `line` is the ready line of the vehicle, `audit` is what `audit_freerun` made of the
files. -/
structure Meeting where
  names : List Text
  pid : ℕ
  line : Text
  machine : Machine
  idleAfter : List (Text × ℤ)
  vehicleExit : ℤ
  simExit : ℤ
  expired : Bool
  report : Option (List (String × Json))
  ticksDeclared : ℤ
  audit : Except String Unit
  summary : Option Json

/-- The judgement at the end of a run. -/
def judge (summary : Json) (mode level : Text) : Except String Unit := do
  refuseIf (!(summary.get "mode").same (.str mode)) (String.ofList (text "mode does not match level " ++ level))
  rowProblem summary

/-- The values that a run of L8 adds to its row, and the replay. -/
structure Peered where
  ready : Ready
  port : Text
  peer : Json
  replay : Json

/-- The CPU of the vehicle in its command line. -/
def vehicleCpu (argv : List Text) : Except String (Option ℤ) := do
  let options ← argvOptions (texts argv) 1
  let cpu := options.value (text "--cpu")
  if cpu.isEmpty then return none
  let n ← orError (Text.digits cpu) "invalid literal for int()"
  return some (n : ℤ)

/-- The peer of a run: it is verified right before it is started, if it has a CPU of its own. -/
def Run.peer (run : Run) (s : Setup) (met : Meeting) : Except String Json :=
  run.peerCpu.elim (.ok .null) fun cpu => do
    let vehicle ← vehicleCpu (run.vehicleArgv s.binary s.outdir s.str)
    met.machine.admit cpu vehicle
    met.machine.record cpu

/-- The body of `run_row` for a run of L8. -/
def Run.attemptL8 (run : Run) (s : Setup) (met : Meeting) : Except String Peered := do
  let ready ← readyLine (text "freerun") met.pid met.line
  refuseIf ((ready.lookup "consts") != some (text "0xe77201ca")) "controller constants mismatch"
  let port ← orError (ready.lookup "sensor_port") "KeyError: sensor_port"
  let peer ← run.peer s met
  refuseIf (met.vehicleExit != 0 || met.simExit != 0)
    ("process failure: vehicle=" ++ shown met.vehicleExit ++ " peer=" ++ shown met.simExit)
  refuseIf met.expired "process deadline expired"
  refuseIf (run.peerCpu.any fun cpu => met.idleAfter != met.machine.idleStates cpu)
    "peer CPU idle states changed during the run"
  let report ← orError met.report "No such file or directory"
  let ticks := peerTicks run.cycles run.warmup
  let replay := Json.obj (update report [("vehicle_argv", texts (run.vehicleArgv s.binary s.outdir s.str)),
    ("sim_argv", texts (run.simArgv s port)), ("ticks_declared", .int met.ticksDeclared), ("ticks_resolved", .int ticks),
    ("loss", .obj [("p_up", .float 0), ("p_down", .float 0)]), ("scenario", .str (text "S1-hold")),
    ("peer_cpu", optionalInt run.peerCpu), ("peer", peer)])
  met.audit
  let summary ← orError met.summary "No such file or directory"
  judge summary (text "freerun") run.level
  return { ready, port, peer, replay }

/-- The body of `run_row` for a run of the harness. -/
def Run.attemptHarness (run : Run) (met : Meeting) : Except String Unit := do
  refuseIf (met.vehicleExit != 0) ("process failure: vehicle=" ++ shown met.vehicleExit ++ " peer=0")
  let summary ← orError met.summary "No such file or directory"
  judge summary (text "harness") run.level

/-- What `run_row` adds to the row of a complete run. -/
def completed (vehicleArgv simArgv : List Text) (simExit : Json) : List (String × Json) :=
  [("complete", .bool true), ("error", .null), ("vehicle_exit", .int 0), ("sim_exit", simExit),
    ("sim_argv", texts simArgv), ("vehicle_argv", texts vehicleArgv)]

/-- `run_row`: the row of a complete run and its replay, or the error. -/
def Run.row (run : Run) (s : Setup) (met : Meeting) : Except String (Json × Option Json) := do
  refuseIf (taken run.label met.names) "output label already exists"
  let argv := run.vehicleArgv s.binary s.outdir s.str
  if run.level == text "L8" then
    let peered ← run.attemptL8 s met
    return (.obj (run.fields ++ completed argv (run.simArgv s peered.port) (.int 0) ++
      [("peer", peered.peer), ("ready", .obj (peered.ready.map fun field => (field.1, .str field.2)))]),
      some peered.replay)
  else
    run.attemptHarness met
    return (.obj (run.fields ++ completed argv [] .null), none)

end Tvc.Sweep
