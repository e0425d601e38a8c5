import Tvc.Freerun.CommandLine
import Tvc.Harness.AllocGuard
import Tvc.Lib.Settings
import Tvc.Lib.Text

/-!
# The texts of the command line

`parse` of `src/main.cpp` on the texts of its arguments. An argument is told apart by the name in front of its value,
and the value is converted and checked: that gives a setting, which is put into the configuration. `strtod` is left
open.

Settings of different options go into different fields. What a command line makes of the configuration depends
therefore on the settings it holds, not on their order or on how often each is given, as long as no option is given
with two values.
-/

namespace Tvc.Harness

open Checked (Signed result)
open Freerun (I64 Argument MainConfig ParseFailure converted within)

/-- A C string. -/
abbrev Text := List Char

/-- The text of a literal. -/
abbrev text (s : String) : Text := s.toList

/-! ## Conversions -/

/-- `starts_with`: what follows the name, if the text starts with it. -/
def startsWith (s : Text) (name : String) : Option Text :=
  if name.toList.isPrefixOf s then some (s.drop name.toList.length) else none

/-- `std::isspace`. -/
def isSpace (c : Char) : Bool := c == ' ' || (9 ≤ c.toNat && c.toNat ≤ 13)

/-- `to_i64`. -/
def toI64 (s : Text) : Option I64 :=
  match s.dropWhile isSpace with
  | '-' :: rest => (Text.digits rest).bind fun n => result 63 (-n)
  | '+' :: rest => (Text.digits rest).bind fun n => result 63 n
  | rest => (Text.digits rest).bind fun n => result 63 n

/-- A number is converted from its decimal, if it fits. -/
theorem toI64_decimal (n : ℕ) : toI64 (Text.decimal n) = result 63 n := by
  have hdigits := Text.digits_decimal n
  have hmem : ∀ c ∈ Text.decimal n, c.isDigit = true := fun c hc => Text.isDigit_decimal hc
  unfold toI64
  cases hdecimal : Text.decimal n with
  | nil => exact absurd hdecimal (Text.decimal_ne_nil n)
  | cons c rest =>
    rw [hdecimal] at hdigits hmem
    have hc := hmem c List.mem_cons_self
    have hblank : isSpace c = false := by
      have hlow : 48 ≤ c.toNat := (Char.isDigit_iff_toNat.mp hc).1
      rw [isSpace, decide_eq_false (show ¬c.toNat ≤ 13 by omega), Bool.and_false, Bool.or_false, beq_eq_false_iff_ne]
      rintro rfl
      exact absurd hlow (by decide)
    rw [List.dropWhile_cons_of_neg (by rw [hblank]; decide)]
    split
    · rename_i heq
      rw [(List.cons.inj heq).1] at hc
      exact absurd hc (by decide)
    · rename_i heq
      rw [(List.cons.inj heq).1] at hc
      exact absurd hc (by decide)
    · rw [hdigits, Option.bind_some]

/-- A number in a range. -/
def inRange (low high : ℤ) (v : Text) : Option ℤ :=
  (toI64 v).bind fun n => if low ≤ n.1 ∧ n.1 ≤ high then some n.1 else none

/-- The destination of `--ground`. -/
def groundOf (v : Text) : Option (Text × ℕ) :=
  match Text.cut ':' v with
  | (_, none) => none
  | (host, some port) =>
    if host.isEmpty || port.isEmpty || port.contains ':' || !port.all Char.isDigit then none
    else (inRange 1 65535 port).map fun n => (host, n.toNat)

/-- `INT_MAX`. -/
def INT_MAX : ℤ := 2 ^ 31 - 1

/-- The mode of `--alloc-guard`. -/
def guardMode (v : Text) : Option Guard.Mode :=
  if v == text "off" then some .off
  else if v == text "count" then some .count
  else if v == text "abort" then some .abort
  else none

/-- The type of `--record`: whether it is `control`. -/
def recordType (v : Text) : Option Bool :=
  if v == text "v1" then some false else if v == text "control" then some true else none

/-! ## Options -/

/-- An argument, told apart by its name. -/
inductive Opt
  | help
  | mode (v : Text)
  | autoArm
  | ground (v : Text)
  | sensorPort (v : Text)
  | phaseUs (v : Text)
  | skewMaxTicks (v : Text)
  | terminalCopies (v : Text)
  | label (v : Text)
  | out (v : Text)
  | rate (v : Text)
  | cycles (v : Text)
  | warmup (v : Text)
  | absDeadline
  | mlock
  | noNaiveLog
  | fifo (v : Text)
  | cpu (v : Text)
  | allocGuard (v : Text)
  | telemetry
  | record (v : Text)
  | unknown
  deriving DecidableEq, Repr

/-- The option of a text: the comparisons of `parse`, in their order. -/
def Opt.of (a : Text) : Opt :=
  if a == text "--help" || a == text "-h" then .help
  else if let some v := startsWith a "--mode=" then .mode v
  else if a == text "--auto-arm" then .autoArm
  else if let some v := startsWith a "--ground=" then .ground v
  else if let some v := startsWith a "--sensor-port=" then .sensorPort v
  else if let some v := startsWith a "--phase-us=" then .phaseUs v
  else if let some v := startsWith a "--skew-max-ticks=" then .skewMaxTicks v
  else if let some v := startsWith a "--terminal-copies=" then .terminalCopies v
  else if let some v := startsWith a "--label=" then .label v
  else if let some v := startsWith a "--out=" then .out v
  else if let some v := startsWith a "--rate=" then .rate v
  else if let some v := startsWith a "--cycles=" then .cycles v
  else if let some v := startsWith a "--warmup=" then .warmup v
  else if a == text "--abs-deadline" then .absDeadline
  else if a == text "--mlock" then .mlock
  else if a == text "--no-naive-log" then .noNaiveLog
  else if let some v := startsWith a "--fifo=" then .fifo v
  else if let some v := startsWith a "--cpu=" then .cpu v
  else if let some v := startsWith a "--alloc-guard=" then .allocGuard v
  else if a == text "--telemetry" then .telemetry
  else if let some v := startsWith a "--record=" then .record v
  else .unknown

/-- The text of an option. -/
def Opt.written : Opt → Text
  | .help => text "--help"
  | .mode v => text "--mode=" ++ v
  | .autoArm => text "--auto-arm"
  | .ground v => text "--ground=" ++ v
  | .sensorPort v => text "--sensor-port=" ++ v
  | .phaseUs v => text "--phase-us=" ++ v
  | .skewMaxTicks v => text "--skew-max-ticks=" ++ v
  | .terminalCopies v => text "--terminal-copies=" ++ v
  | .label v => text "--label=" ++ v
  | .out v => text "--out=" ++ v
  | .rate v => text "--rate=" ++ v
  | .cycles v => text "--cycles=" ++ v
  | .warmup v => text "--warmup=" ++ v
  | .absDeadline => text "--abs-deadline"
  | .mlock => text "--mlock"
  | .noNaiveLog => text "--no-naive-log"
  | .fifo v => text "--fifo=" ++ v
  | .cpu v => text "--cpu=" ++ v
  | .allocGuard v => text "--alloc-guard=" ++ v
  | .telemetry => text "--telemetry"
  | .record v => text "--record=" ++ v
  | .unknown => []

/-- An option is recognised by its text. -/
@[simp] theorem Opt.of_written (o : Opt) : Opt.of o.written = o := by cases o <;> rfl


/-! ## Settings -/

/-- An option with the value that its text was converted to. -/
inductive Setting
  | mode (value : Text)
  | autoArm
  | ground (host : Text) (port : ℕ)
  | sensorPort (port : ℕ)
  | phaseUs (value : { v : ℤ // 0 < v ∧ v < 2000 })
  | skewMax (value : { v : ℤ // 0 ≤ v ∧ v ≤ 64 })
  | terminalCopies (value : { v : ℤ // 1 ≤ v ∧ v ≤ 64 })
  | label (value : Text)
  | out (value : Text)
  | rate (value : F64)
  | cycles (value : I64)
  | warmup (value : I64)
  | absDeadline
  | mlock
  | noNaiveLog
  | fifo (priority : ℕ)
  | cpu (value : ℤ)
  | allocGuard (mode : Guard.Mode)
  | telemetry
  | record (control : Bool)
  deriving DecidableEq

/-- The number of the option that a setting is of. -/
def Setting.option : Setting → ℕ
  | .mode _ => 0
  | .autoArm => 1
  | .ground _ _ => 2
  | .sensorPort _ => 3
  | .phaseUs _ => 4
  | .skewMax _ => 5
  | .terminalCopies _ => 6
  | .label _ => 7
  | .out _ => 8
  | .rate _ => 9
  | .cycles _ => 10
  | .warmup _ => 11
  | .absDeadline => 12
  | .mlock => 13
  | .noNaiveLog => 14
  | .fifo _ => 15
  | .cpu _ => 16
  | .allocGuard _ => 17
  | .telemetry => 18
  | .record _ => 19

/-- The setting of an option: its value converted and checked. -/
def Opt.setting (strtod : Text → Option F64) : Opt → Except ParseFailure Setting
  | .help => .error .help
  | .mode v => .ok (.mode v)
  | .autoArm => .ok .autoArm
  | .ground v => (converted (groundOf v)).map fun g => .ground g.1 g.2
  | .sensorPort v => (converted (inRange 0 65535 v)).map fun n => .sensorPort n.toNat
  | .phaseUs v => (within _ (toI64 v)).map .phaseUs
  | .skewMaxTicks v => (within _ (toI64 v)).map .skewMax
  | .terminalCopies v => (within _ (toI64 v)).map .terminalCopies
  | .label v => .ok (.label v)
  | .out v => .ok (.out v)
  | .rate v => (converted (strtod v)).map .rate
  | .cycles v => (converted (toI64 v)).map .cycles
  | .warmup v => (converted (toI64 v)).map .warmup
  | .absDeadline => .ok .absDeadline
  | .mlock => .ok .mlock
  | .noNaiveLog => .ok .noNaiveLog
  | .fifo v => (converted (inRange 0 99 v)).map fun n => .fifo n.toNat
  | .cpu v => (converted (inRange (-1) INT_MAX v)).map .cpu
  | .allocGuard v => (converted (guardMode v)).map .allocGuard
  | .telemetry => .ok .telemetry
  | .record v => (converted (recordType v)).map .record
  | .unknown => .error .error

/-- `Config` of `src/main.cpp`. -/
structure Config extends MainConfig where
  sensorPort : ℕ := 24000
  groundPort : ℕ := 0
  outdir : Text := text "results"
  absDeadline : Bool := false
  mlock : Bool := false
  fifoPrio : ℕ := 0
  cpu : ℤ := -1
  naiveLog : Bool := true
  allocGuard : Guard.Mode := .off

/-- A setting is put into the configuration. -/
def Config.put (c : Config) : Setting → Config
  | .mode value => { c with mode := .ofList value }
  | .autoArm => { c with autoArm := true }
  | .ground host port => { c with seenFree := true, groundHost := .ofList host, groundPort := port }
  | .sensorPort port => { c with sensorPort := port, seenSensor := true }
  | .phaseUs value => { c with seenFree := true, phaseUs := value }
  | .skewMax value => { c with seenFree := true, skewMax := value }
  | .terminalCopies value => { c with seenFree := true, terminalCopies := value }
  | .label value => { c with label := .ofList value }
  | .out value => { c with outdir := value }
  | .rate value => { c with rateHz := value }
  | .cycles value => { c with seenCycles := true, cycles := value }
  | .warmup value => { c with seenWarmup := true, warmup := value }
  | .absDeadline => { c with absDeadline := true }
  | .mlock => { c with mlock := true }
  | .noNaiveLog => { c with naiveLog := false }
  | .fifo priority => { c with fifoPrio := priority }
  | .cpu value => { c with cpu := value }
  | .allocGuard mode => { c with allocGuard := mode }
  | .telemetry => { c with telemetry := true }
  | .record control => { c with recordControl := control }

/-- The loop of `parse` on one argument. -/
def Config.take (strtod : Text → Option F64) (c : Config) (a : Text) : Except ParseFailure Config :=
  ((Opt.of a).setting strtod).map c.put

section

variable [Arith F64]

/-- The phase without its option is in its range. -/
theorem phase_default : 0 < (400 : ℤ) ∧ (400 : ℤ) < 2000 := by decide

/-- The skew without its option is in its range. -/
theorem skew_default : 0 ≤ (4 : ℤ) ∧ (4 : ℤ) ≤ 64 := by decide

/-- The copies without their option are in their range. -/
theorem copies_default : 1 ≤ (12 : ℤ) ∧ (12 : ℤ) ≤ 64 := by decide

/-- The cycles without their option fit. -/
theorem cycles_default : Checked.Fits 63 300000 := by decide

/-- The warmup without its option fits. -/
theorem warmup_default : Checked.Fits 63 5000 := by decide

/-- The configuration before the first argument. -/
def Config.default : Config where
  rateHz := 500.0
  phaseUs := ⟨400, phase_default⟩
  skewMax := ⟨4, skew_default⟩
  terminalCopies := ⟨12, copies_default⟩
  cycles := ⟨300000, cycles_default⟩
  warmup := ⟨5000, warmup_default⟩

/-- `parse`, on the arguments after the name of the program. -/
def parse (strtod : Text → Option F64) (args : List Text) : Except ParseFailure Config := do
  let c ← args.foldlM (Config.take strtod) .default
  c.check
  return c

end


/-! ## Settings in any order -/

/-- No option is given with two values. -/
def Unambiguous (settings : List Setting) : Prop := ∀ a ∈ settings, ∀ b ∈ settings, a.option = b.option → a = b

/-- Settings of different options go into different fields. -/
theorem Config.put_comm {a b : Setting} (h : a.option = b.option → a = b) (c : Config) :
    (c.put a).put b = (c.put b).put a := by
  by_cases heq : a.option = b.option
  · rw [h heq]
  · cases a <;> cases b <;> first | rfl | exact absurd rfl heq

/-- A setting that is given twice is put once. -/
theorem Config.put_put (c : Config) (a : Setting) : (c.put a).put a = c.put a := by cases a <;> rfl

/-- Unambiguous settings are put in any order. -/
theorem Unambiguous.consistent {settings : List Setting} (h : Unambiguous settings) :
    Settings.Consistent Config.put settings where
  comm := fun a ha b hb c => c.put_comm (h a ha b hb)
  idem := fun a _ c => c.put_put a

/-- The settings of a command line. -/
def settings (strtod : Text → Option F64) (args : List Text) : Except ParseFailure (List Setting) :=
  args.mapM fun a => (Opt.of a).setting strtod

/-- `parse` reads the settings of all arguments, puts them into the configuration and checks it. -/
theorem parse_eq [Arith F64] (strtod : Text → Option F64) (args : List Text) :
    parse strtod args = do
      let given ← settings strtod args
      let c := given.foldl Config.put .default
      c.check
      return c := by
  have hread := Settings.foldlM_eq_map (fun a => (Opt.of a).setting strtod) Config.put .default args
  unfold parse
  change (args.foldlM (fun c a => ((Opt.of a).setting strtod).map c.put) Config.default >>= _) = _
  rw [hread, settings]
  cases args.mapM fun a => (Opt.of a).setting strtod <;> rfl

/-- Command lines with the same arguments give the same configuration. -/
theorem parse_congr [Arith F64] {strtod : Text → Option F64} {args args' : List Text} {given : List Setting}
    (hread : settings strtod args = .ok given) (hunambiguous : Unambiguous given) (hmem : ∀ a, a ∈ args' ↔ a ∈ args) :
    parse strtod args' = parse strtod args := by
  obtain ⟨given', hread', hgiven⟩ := Settings.mapM_of_same_members hread hmem
  have hfold := hunambiguous.consistent.foldl_eq (fun a => (hgiven a).symm) .default
  rw [parse_eq, parse_eq, hread]
  change (settings strtod args' >>= _) = _
  rw [show settings strtod args' = .ok given' from hread']
  change (do
    (given'.foldl Config.put .default).check
    return given'.foldl Config.put .default : Except ParseFailure Config) = _
  rw [← hfold]
  rfl

/-! ## The converted command line -/

/-- What the conversions make of an option. -/
def Opt.argument (strtod : Text → Option F64) : Opt → Argument
  | .help => .help
  | .mode v => .mode (.ofList v)
  | .autoArm => .autoArm
  | .ground v => .ground ((groundOf v).map fun g => (.ofList g.1, g.2))
  | .sensorPort v => .sensorPort (toI64 v)
  | .phaseUs v => .phaseUs (toI64 v)
  | .skewMaxTicks v => .skewMaxTicks (toI64 v)
  | .terminalCopies v => .terminalCopies (toI64 v)
  | .label v => .label (.ofList v)
  | .out _ => .setting true
  | .rate v => .rate (strtod v)
  | .cycles v => .cycles (toI64 v)
  | .warmup v => .warmup (toI64 v)
  | .absDeadline => .setting true
  | .mlock => .setting true
  | .noNaiveLog => .setting true
  | .fifo v => .setting (inRange 0 99 v).isSome
  | .cpu v => .setting (inRange (-1) INT_MAX v).isSome
  | .allocGuard v => .setting (guardMode v).isSome
  | .telemetry => .telemetry
  | .record v => .record (recordType v)
  | .unknown => .unknown

/-- A setting and the converted argument do the same to the checked fields. -/
theorem Opt.setting_argument (strtod : Text → Option F64) (o : Opt) (c : Config) :
    ((o.setting strtod).map c.put).map Config.toMainConfig = c.toMainConfig.take (o.argument strtod) := by
  cases o with
  | ground v => cases h : groundOf v <;> simp only [Opt.setting, Opt.argument, h] <;> rfl
  | sensorPort v =>
    simp only [Opt.setting, Opt.argument, inRange]
    cases toI64 v with
    | none => rfl
    | some n =>
      by_cases h : 0 ≤ n.1 ∧ n.1 ≤ 65535
      · simp only [Option.bind_some, if_pos h, MainConfig.take, within, dif_pos h]
        rfl
      · simp only [Option.bind_some, if_neg h, MainConfig.take, within, dif_neg h]
        rfl
  | phaseUs v => cases h : within (fun v => 0 < v ∧ v < 2000) (toI64 v) <;> simp only [Opt.setting, Opt.argument, MainConfig.take, h] <;> rfl
  | skewMaxTicks v => cases h : within (fun v => 0 ≤ v ∧ v ≤ 64) (toI64 v) <;> simp only [Opt.setting, Opt.argument, MainConfig.take, h] <;> rfl
  | terminalCopies v => cases h : within (fun v => 1 ≤ v ∧ v ≤ 64) (toI64 v) <;> simp only [Opt.setting, Opt.argument, MainConfig.take, h] <;> rfl
  | rate v => cases h : strtod v <;> simp only [Opt.setting, Opt.argument, h] <;> rfl
  | cycles v => cases h : toI64 v <;> simp only [Opt.setting, Opt.argument, h] <;> rfl
  | warmup v => cases h : toI64 v <;> simp only [Opt.setting, Opt.argument, h] <;> rfl
  | fifo v => cases h : inRange 0 99 v <;> simp only [Opt.setting, Opt.argument, h] <;> rfl
  | cpu v => cases h : inRange (-1) INT_MAX v <;> simp only [Opt.setting, Opt.argument, h] <;> rfl
  | allocGuard v => cases h : guardMode v <;> simp only [Opt.setting, Opt.argument, h] <;> rfl
  | record v => cases h : recordType v <;> simp only [Opt.setting, Opt.argument, h] <;> rfl
  | _ => rfl


/-- The loop and its loop over converted arguments do the same to the checked fields. -/
theorem foldlM_argument (strtod : Text → Option F64) (args : List Text) (c : Config) :
    (args.foldlM (Config.take strtod) c).map Config.toMainConfig =
      (args.map fun a => (Opt.of a).argument strtod).foldlM MainConfig.take c.toMainConfig := by
  induction args generalizing c with
  | nil => rfl
  | cons a rest ih =>
    have hstep := (Opt.of a).setting_argument strtod c
    rw [List.map_cons, List.foldlM_cons, List.foldlM_cons, ← hstep, Config.take]
    cases (Opt.of a).setting strtod with
    | error e => rfl
    | ok s => exact ih (c.put s)

/-- The texts are accepted as what they are converted to. -/
theorem parse_argument [Arith F64] (strtod : Text → Option F64) (args : List Text) :
    (parse strtod args).map Config.toMainConfig =
      Freerun.parse (args.map fun a => (Opt.of a).argument strtod) := by
  have hloop := foldlM_argument strtod args .default
  unfold parse Freerun.parse
  change _ = ((args.map fun a => (Opt.of a).argument strtod).foldlM MainConfig.take
    Config.default.toMainConfig >>= _)
  rw [← hloop]
  cases args.foldlM (Config.take strtod) Config.default with
  | error e => rfl
  | ok c =>
    change (do
      c.check
      return c : Except ParseFailure Config).map Config.toMainConfig = (do
      c.check
      return c.toMainConfig : Except ParseFailure MainConfig)
    cases c.check <;> rfl

end Tvc.Harness
