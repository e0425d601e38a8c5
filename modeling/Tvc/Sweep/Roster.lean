import Tvc.Lib.Json
import Tvc.Sweep.Plan

/-!
# The audit of a campaign in `scripts/sweep.py`

`roster_row` reads the roster of a campaign and holds every run of it against the files it left: its label, its
command lines, what the summary says the vehicle was configured with and, for a run of L8, what the peer was started
with and what the replay says of it.

How a double is written is left open. A document that cannot be read is one that is not there. An index or an
attribute that is not there is an error like the others; its text is Python's own.
-/

namespace Tvc.Sweep

open Harness (Text text)

attribute [local instance] ieee

/-! ## Command lines -/

/-- The options of a command line and their values. -/
abbrev Options := List (Text × Option Text)

/-- The texts of an `argv`: a list of texts that are not empty. -/
def argvTexts (argv : Json) : Option (List Text) :=
  argv.items?.bind fun items => items.mapM fun item => item.text?.filter fun s => !s.isEmpty

/-- An argument of `argv_options`. -/
def optionOf (arg : Text) : Except String (Text × Option Text) :=
  let parts := Text.cut '=' arg
  if !(text "--").isPrefixOf parts.1 || parts.2 == some [] then .error "invalid resolved argument" else .ok parts

/-- An option is noted, unless it is known with another value. -/
def Options.note (options : Options) (o : Text × Option Text) : Except String Options :=
  match options.lookup o.1 with
  | none => .ok (options ++ [o])
  | some value =>
    if value = o.2 then .ok options else .error ("conflicting resolved argument " ++ String.ofList o.1)

/-- The options of some arguments. -/
def optionsOf (args : List Text) : Except String Options :=
  args.foldlM (fun options arg => optionOf arg >>= options.note) []

/-- `argv_options`. -/
def argvOptions (argv : Json) (start : ℕ) : Except String Options :=
  match argvTexts argv with
  | none => .error "missing or invalid resolved argv"
  | some texts =>
    if texts.length ≤ start then .error "missing or invalid resolved argv" else optionsOf (texts.drop start)

/-! ## Configurations -/

/-- `str.isspace`. -/
def isBlank (c : Char) : Bool :=
  let n := c.toNat
  (0x09 ≤ n && n ≤ 0x0D) || (0x1C ≤ n && n ≤ 0x20) || n == 0x85 || n == 0xA0 || n == 0x1680 ||
    (0x2000 ≤ n && n ≤ 0x200A) || n == 0x2028 || n == 0x2029 || n == 0x202F || n == 0x205F || n == 0x3000

/-- The fields of a configuration. -/
abbrev Fields := List (Text × Text)

/-- A token of a configuration. -/
def addField (fields : Fields) (token : Text) : Except String Fields :=
  let parts := Text.cut ':' token
  if (fields.lookup parts.1).isSome then .error ("duplicate config " ++ String.ofList parts.1)
  else .ok (fields ++ [(parts.1, parts.2.getD [])])

/-- `0|[1-9][0-9]*`. -/
def canonical (s : Text) : Bool := s == text "0" || (!s.isEmpty && s.all Char.isDigit && s.head? != some '0')

/-- `config_fields`. -/
def configFields (summary : Json) : Except String Fields :=
  match (summary.get "config").text? with
  | none => .error "missing config"
  | some config =>
    let tokens := Text.words isBlank config
    if tokens.isEmpty then .error "missing config"
    else do
      let fields ← tokens.foldlM addField []
      refuseIf ((fields.lookup (text "cpu")).any fun v => !canonical v) "invalid config cpu"
      refuseIf ((fields.lookup (text "fifo")).any fun v => !canonical v) "invalid config fifo"
      return fields

/-! ## Runs of the harness -/

/-- An expected option. -/
def expect (options : Options) (o : Text × Option Text) : Options := options.filter (fun p => p.1 != o.1) ++ [o]

/-- The value, or an error. -/
def orError {α : Type} (x : Option α) (message : String) : Except String α := x.elim (.error message) .ok

/-- What `str` makes of the rate and of the rate as a double, if it is a positive finite number. -/
def rateTexts (str : F64 → Text) : Json → Except String (List Text)
  | .int n =>
    if n ≤ 0 then .error "invalid harness rate"
    else if !Binary64.isFinite (Binary64.ofNat n.toNat) then .error "int too large to convert to float"
    else .ok [Text.integer n, str ⟨Binary64.ofNat n.toNat⟩]
  | .float x =>
    if !Binary64.isFinite x || Binary64.le x 0 then .error "invalid harness rate" else .ok [str ⟨x⟩, str ⟨x⟩]
  | _ => .error "invalid harness rate"

/-- The options that a run of the harness is expected to have, besides its rate and its directory. -/
def expectedOptions (fields : Fields) (label : Text) (number : ℕ) (cycles warmup : ℤ) : Options :=
  let numbers : Options := [(text "--label", some label), (text "--cycles", some (Text.integer cycles)),
    (text "--warmup", some (Text.integer warmup))]
  let cpu := (fields.lookup (text "cpu")).getD (text "None")
  ((LEVELS.take (number + 1)).flatMap fun level => level.add.map fun flag => Text.cut '=' (flag.format cpu)).foldl
    expect numbers

/-- The options are the expected ones, and only the others beside them. -/
def Options.agree (options expected : Options) (others : List Text) : Bool :=
  (options.all fun o => (expected.lookup o.1).isSome || others.contains o.1) &&
    (others.all fun key => (options.lookup key).isSome) &&
    expected.all fun e => options.lookup e.1 == some e.2

/-- `harness_configuration`. -/
def harnessConfiguration (str : F64 → Text) (row summary : Json) : Except String Unit := do
  let options ← argvOptions (row.get "vehicle_argv") 1
  let fields ← configFields summary
  let cycles ← orError ((row.get "cycles").int?.filter fun n => 1 ≤ n) "invalid harness run cycles"
  let warmup ← orError ((row.get "warmup").int?.filter fun n => 0 ≤ n) "invalid harness run warmup"
  let _ ← orError ((row.get "repeat").int?.filter fun n => 1 ≤ n) "invalid harness run repeat"
  let rates ← rateTexts str (row.get "rate")
  let label ← orError (row.get "label").text? "KeyError: label"
  let level ← orError (row.get "level").text? "KeyError: level"
  let number ← orError (Text.digits (level.drop 1)) "invalid literal for int()"
  refuseIf (!options.agree (expectedOptions fields label number cycles warmup) [text "--rate", text "--out"] ||
      (options.lookup (text "--out") == some none) ||
      !(rates.any fun rate => options.lookup (text "--rate") == some (some rate)) ||
      !(summary.get "cycles_requested").same (.int cycles) || !(summary.get "label").same (.str label))
    "harness invocation does not match experiment configuration"

/-! ## Runs of L8 -/

/-- The kinds of values that `type` tells apart. -/
def kind : Json → ℕ
  | .null => 0
  | .bool _ => 1
  | .int _ => 2
  | .float _ => 3
  | .str _ => 4
  | .arr _ => 5
  | .obj _ => 6

/-- Both objects have the key, with the same value. -/
def sameUnder (key : String) (a b : Json) : Bool :=
  match a.get? key, b.get? key with
  | some x, some y => x.same y
  | _, _ => false

/-- `peer_record_problem`. -/
def peerRecordProblem (cpu record : Json) : Option String :=
  if !(cpu.int?.any fun n => 0 ≤ n) || record.fields?.isNone then some "invalid peer provenance"
  else if !(record.get "cpu").same cpu || !(record.get "affinity").same (.arr [cpu]) ||
      !(record.get "policy").same (.str (text "SCHED_OTHER")) ||
      !((record.get "idle_states").items?.any fun states => !states.isEmpty && states.all fun state =>
        state.fields?.isSome && (state.get "name").text?.isSome && (state.get "disable").same (.int 1)) then
    some "peer CPU discipline not verified"
  else if !((record.get "siblings").items?.any fun siblings => siblings.all fun cpu => cpu.int?.isSome) then
    some "invalid peer siblings"
  else none

/-- `peer_discipline`. -/
def peerDiscipline (row replay : Json) (cycles : ℤ) (vehicleCpu : Option Text) : Except String Unit := do
  refuseIf ((row.get? "peer_cpu").isNone || (row.get? "peer").isNone) "missing peer provenance"
  refuseIf (!sameUnder "peer_cpu" replay row || !sameUnder "peer" replay row) "peer provenance does not match replay"
  let cpu := row.get "peer_cpu"
  let record := row.get "peer"
  if cpu.isNull then
    refuseIf (!record.isNull) "peer provenance without a declared peer CPU"
    refuseIf (QUALIFIED_CYCLES ≤ cycles) "qualified L8 run without a declared peer CPU"
  else
    (peerRecordProblem cpu record).elim (.ok ()) .error
    let vehicle := vehicleCpu.bind Text.digits
    refuseIf (vehicle.any fun (n : ℕ) =>
        cpu.same (.int n) || ((record.get "siblings").items?.getD []).any fun s => s.same (.int n))
      "peer CPU shares the vehicle core"

/-- The mitigations that a summary of L8 names, as options. -/
def mitigationOptions (fields : Fields) : Options :=
  ((fields.lookup (text "mlock")).elim [] fun _ => [(text "--mlock", none)]) ++
    ((fields.lookup (text "cpu")).elim [] fun v => [(text "--cpu", some v)]) ++
    ((fields.lookup (text "fifo")).elim [] fun v => [(text "--fifo", some v)])

/-- The options that the vehicle of L8 is expected to have. -/
def expectedVehicle (fields : Fields) (label : Text) (cycles warmup phase : ℤ) : Options :=
  [(text "--mode", some (text "freerun")), (text "--auto-arm", none), (text "--abs-deadline", none),
    (text "--telemetry", none), (text "--record", some (text "control")), (text "--alloc-guard", some (text "abort")),
    (text "--cycles", some (Text.integer cycles)), (text "--warmup", some (Text.integer warmup)),
    (text "--phase-us", some (Text.integer phase)), (text "--sensor-port", some (text "0")),
    (text "--skew-max-ticks", some (text "4")), (text "--terminal-copies", some (text "12")),
    (text "--label", some label)] ++ mitigationOptions fields

/-- The ticks of a run of L8. -/
def peerTicks (cycles warmup : ℤ) : ℤ := cycles + warmup + 33

/-- The options that the peer of L8 is expected to have, besides its scenario and the vehicle. -/
def expectedPeer (label out : Text) (ticks : ℤ) : Options :=
  [(text "--mode", some (text "freerun")), (text "--seed", some (text "1")), (text "--loss", some (text "0.0")),
    (text "--delay-ticks", some (text "1")), (text "--ticks", some (Text.integer ticks)),
    (text "--bind-port", some (text "0")), (text "--terminal-copies", some (text "12")), (text "--label", some label),
    (text "--out", some out)]

/-- What the replay of L8 is expected to say. -/
def expectedReplay (ticks : ℤ) : List (String × Json) :=
  [("seed", .int 1), ("delay_ticks", .int 1), ("ticks", .int ticks), ("ticks_declared", .int 10000),
    ("ticks_resolved", .int ticks), ("scenario", .str (text "S1-hold")), ("rate_hz", .int 500),
    ("period_ns", .int 2000000), ("loss", .obj [("p_up", .float 0), ("p_down", .float 0)])]

/-- `pathlib.Path(path).name`. -/
def pathName (path : Text) : Text :=
  ((Text.words (· == '/') path).filter fun part => part != ['.']).getLast?.getD []

/-- The port of an endpoint `127.0.0.1:([1-9][0-9]*)`. -/
def endpointPort (endpoint : Text) : Option Text :=
  if (text "127.0.0.1:").isPrefixOf endpoint && canonical (endpoint.drop 10) && endpoint.drop 10 != text "0" then
    some (endpoint.drop 10)
  else none

/-- The value of an option as a text, or none. -/
def Options.value (options : Options) (key : Text) : Text := ((options.lookup key).join).getD []

/-- `l8_configuration`. -/
def l8Configuration (row summary replay : Json) : Except String Unit := do
  refuseIf replay.fields?.isNone "invalid replay metadata"
  refuseIf (!sameUnder "vehicle_argv" replay row) "missing or mismatched vehicle_argv"
  refuseIf (!sameUnder "sim_argv" replay row) "missing or mismatched sim_argv"
  let vehicle ← argvOptions (row.get "vehicle_argv") 1
  let peer ← argvOptions (row.get "sim_argv") 4
  refuseIf (!(Json.arr ((((row.get "sim_argv").items?.getD []).take 4).drop 1)).same
    (.arr [.str (text "-B"), .str (text "-m"), .str (text "sim.run_sim")])) "unexpected simulator invocation"
  let cycles ← orError (row.get "cycles").int? "missing or invalid run cycles"
  let warmup ← orError (row.get "warmup").int? "missing or invalid run warmup"
  let phase ← orError (row.get "phase_us").int? "missing or invalid run phase_us"
  let number ← orError (row.get "repeat").int? "missing or invalid run repeat"
  refuseIf (cycles < 1000 || warmup < 0 || number < 1 || !(0 < phase && phase < 2000) ||
      !(kind (row.get "rate") == 2 || kind (row.get "rate") == 3) || !(row.get "rate").same (.int 500))
    "invalid L8 run configuration"
  let label ← orError (row.get "label").text? "KeyError: label"
  refuseIf (!(summary.get "label").same (.str label) || !(summary.get "cycles_requested").same (.int cycles) ||
      !(summary.get "warmup").same (.int warmup) || !(summary.get "phase_us").same (.int phase) ||
      !(summary.get "period_us").same (.int 2000)) "run configuration does not match summary"
  let fields ← configFields summary
  refuseIf ([text "mlock", text "cpu", text "fifo"].any fun key =>
    (fields.lookup key).isNone && (vehicle.lookup (text "--" ++ key)).isSome) "argv mitigation absent from summary"
  let expected := expectedVehicle fields label cycles warmup phase
  let others := [text "--rate", text "--out", text "--no-naive-log"]
  refuseIf (!(vehicle.all fun o => (expected.lookup o.1).isSome || others.contains o.1) ||
      !(expected.all fun e => vehicle.lookup e.1 == some e.2)) "unexpected L8 vehicle argv"
  refuseIf (!([text "500", text "500.0"].contains (vehicle.value (text "--rate"))) ||
      (vehicle.value (text "--out")).isEmpty) "missing L8 rate/output argv"
  let ticks := peerTicks cycles warmup
  let expectedPeer := expectedPeer label (vehicle.value (text "--out")) ticks
  refuseIf (!peer.agree expectedPeer [text "--scenario", text "--vehicle"]) "unexpected L8 peer argv"
  let endpoint := endpointPort (peer.value (text "--vehicle"))
  refuseIf (!((endpoint.bind Text.digits).any fun port => port ≤ 65535) ||
      pathName (peer.value (text "--scenario")) != text "S1-hold.json") "invalid resolved peer endpoint/scenario"
  let ready := row.get "ready"
  refuseIf (ready.fields?.isNone || !(ready.get "mode").same (.str (text "freerun")) ||
      !(ready.get "command_port").same (.str (text "0")) || !(ready.get "consts").same (.str (text "0xe77201ca")) ||
      !(ready.get "sensor_port").same (.str (endpoint.getD []))) "peer endpoint does not match bound ready state"
  refuseIf (!(expectedReplay ticks).all fun e =>
      (replay.get? e.1).any fun found => kind found == kind e.2 && found.same e.2)
    "resolved peer configuration does not match replay"
  peerDiscipline row replay cycles (fields.lookup (text "cpu"))

/-! ## The roster -/

/-- The end of a label: `(?:\.r[1-9][0-9]*)?`. -/
def numberEnd (s : Text) : Bool :=
  s.isEmpty || ((text ".r").isPrefixOf s && canonical (s.drop 2) && s.drop 2 != text "0")

/-- The rest of a label behind its level: `(?:\.phase(?:200|400|800))?(?:\.r[1-9][0-9]*)?`. -/
def labelRest (rest : Text) : Bool :=
  numberEnd rest || [text ".phase200", text ".phase400", text ".phase800"].any fun phase =>
    phase.isPrefixOf rest && numberEnd (rest.drop phase.length)

/-- A label that the roster accepts. -/
def labelPattern : Text → Bool
  | 'L' :: level :: rest => '0' ≤ level && level ≤ '8' && labelRest rest
  | _ => false

/-- The files of a directory that can be read. -/
abbrev Directory := Text → Option Json

/-- A document of a run. -/
def Directory.read (files : Directory) (name : Text) : Except String Json := orError (files name) "No such file or directory"

/-- The check of one row in `roster_row`; `seen` are the labels of the rows before it. -/
def checkRow (str : F64 → Text) (files : Directory) (seen : List Text) (row : Json) : Except String Text := do
  refuseIf (row.fields?.isNone || !(row.get "complete").isTrue) "incomplete roster row"
  let label ← orError ((row.get "label").text?.filter fun label => labelPattern label && !seen.contains label)
    "invalid or duplicate roster label"
  refuseIf (!(row.get "level").same (.str (Text.cut '.' label).1)) "roster level/label mismatch"
  let number ← (Text.afterLast (text ".r") label).elim (.ok 1) fun rest =>
    orError (Text.digits rest) "invalid literal for int()"
  refuseIf (!((row.get "repeat").int?.any fun n => n == (number : ℤ))) "roster repeat/label mismatch"
  let phase ← (Text.after (text ".phase") label).elim (.ok none) fun rest =>
    (orError (Text.digits (Text.cut '.' rest).1) "invalid literal for int()").map some
  refuseIf (phase.any fun phase => !(row.get "phase_us").same (.int (phase : ℕ))) "roster phase/label mismatch"
  refuseIf (files (label ++ text ".summary.json")).isNone ("missing roster summary: " ++ String.ofList label)
  let result ← files.read (label ++ text ".result.json")
  refuseIf (!row.same result) ("roster does not match process result: " ++ String.ofList label)
  refuseIf (!((row.get "vehicle_exit").int?.any fun code => code == 0)) "failed vehicle in roster"
  let summary ← files.read (label ++ text ".summary.json")
  if (row.get "level").same (.str (text "L8")) then
    refuseIf (!((row.get "sim_exit").int?.any fun code => code == 0)) "failed peer in roster"
    let replay ← files.read (label ++ text ".replay.json")
    l8Configuration row summary replay
  else harnessConfiguration str row summary
  return label

/-- The loop of `roster_row`: the labels seen, and the row of the name. -/
def rosterStep (str : F64 → Text) (files : Directory) (name : Text) (state : List Text × Option Json) (row : Json) :
    Except String (List Text × Option Json) :=
  (checkRow str files state.1 row).map fun label => (label :: state.1, if label = name then some row else state.2)

/-- `roster_row`. -/
def rosterRow (str : F64 → Text) (files : Directory) (name : Text) : Except String Json := do
  let roster ← files.read (text "sweep.json")
  refuseIf (roster.fields?.isNone || !(roster.get "format").same (.str (text "tvc-sweep-1")) ||
    !(roster.get "complete").isTrue) "incomplete sweep roster"
  let rows ← orError ((roster.get "runs").items?.filter fun rows => !rows.isEmpty) "empty sweep roster"
  let final ← rows.foldlM (rosterStep str files name) ([], none)
  orError final.2 "summary absent from sweep roster"

end Tvc.Sweep
