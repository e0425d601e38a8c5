import Mathlib.Tactic.IntervalCases
import Tvc.Sweep.Labels

/-!
# The vehicle of a run

`run_row` starts the vehicle with the arguments of the run. They are accepted by `parse` of `src/main.cpp`, and the
vehicle is configured with what the campaign says of the level: the mitigations of all levels up to it and no other.

The text of a double is left open, as is the reading of it.
-/

namespace Tvc.Sweep

open Checked (Fits)
open Freerun (I64 ParseFailure differ cycleBound)
open Harness

attribute [local instance] ieee

/-- The arguments behind the flags of a run of L8. -/
def Run.portArgs (run : Run) : List Text :=
  if run.level == text "L8" then
    [text "--sensor-port=0", text "--phase-us=" ++ cpuText run.phaseUs, text "--skew-max-ticks=4",
      text "--terminal-copies=12"]
  else []

/-- The `argv` that `run_row` starts the vehicle with. -/
def Run.vehicleArgv (binary outdir : Text) (str : F64 → Text) (run : Run) : List Text :=
  [binary, text "--label=" ++ run.label, text "--out=" ++ outdir, text "--rate=" ++ str run.rate,
    text "--cycles=" ++ Text.integer run.cycles, text "--warmup=" ++ Text.integer run.warmup] ++
  run.flags ++ run.portArgs

/-! ## What a level asks for -/

/-- What the levels are about. -/
structure Mitigations where
  absDeadline : Bool
  mlock : Bool
  fifoPrio : ℕ
  cpu : ℤ
  naiveLog : Bool
  allocGuard : Guard.Mode
  telemetry : Bool
  recordControl : Bool
  mode : String
  autoArm : Bool
  deriving DecidableEq

/-- The mitigations of a configuration. -/
def mitigations (c : Config) : Mitigations where
  absDeadline := c.absDeadline
  mlock := c.mlock
  fifoPrio := c.fifoPrio
  cpu := c.cpu
  naiveLog := c.naiveLog
  allocGuard := c.allocGuard
  telemetry := c.telemetry
  recordControl := c.recordControl
  mode := c.mode
  autoArm := c.autoArm

/-- What level `k` asks for. -/
def Mitigations.upTo (k : ℕ) (cpu : ℤ) : Mitigations where
  absDeadline := decide (1 ≤ k)
  mlock := decide (2 ≤ k)
  fifoPrio := if 3 ≤ k then 80 else 0
  cpu := if 4 ≤ k then cpu else -1
  naiveLog := decide (k < 5)
  allocGuard := if 5 ≤ k then .abort else .off
  telemetry := decide (6 ≤ k)
  recordControl := decide (7 ≤ k)
  mode := if 8 ≤ k then "freerun" else "harness"
  autoArm := decide (8 ≤ k)

/-! ## Settings -/

/-- The settings of the flags that each level adds. -/
def levelSettings (cpu : ℤ) : List (List Setting) := [
  [], [.absDeadline], [.mlock], [.fifo 80], [.cpu cpu], [.noNaiveLog, .allocGuard .abort], [.telemetry],
  [.telemetry, .record true], [.mode (text "freerun"), .autoArm, .telemetry, .record true]]

/-- An argument is read as a setting. -/
def ReadAs (strtod : Text → Option F64) (a : Text) (s : Setting) : Prop := (Opt.of a).setting strtod = .ok s

variable {strtod : Text → Option F64}

/-- An option with a converted value is read as its setting. -/
theorem readAs_of_converted {α : Type} {x : Option α} {value : α} {f : α → Setting} {a : Text} (h : x = some value)
    (ha : (Opt.of a).setting strtod = (Freerun.converted x).map f) : ReadAs strtod a (f value) := by
  rw [ReadAs, ha, h]
  rfl

/-- The CPU is read. -/
theorem readAs_cpu {cpu : ℕ} (h : (cpu : ℤ) ≤ INT_MAX) : ReadAs strtod (text "--cpu=" ++ Text.decimal cpu) (.cpu cpu) := by
  have hfits : Fits 63 cpu := by
    unfold INT_MAX at h
    exact ⟨by omega, by omega⟩
  refine readAs_of_converted (x := inRange (-1) INT_MAX (Text.decimal cpu)) ?_ rfl
  rw [inRange, toI64_decimal, Checked.result_of_fits hfits, Option.bind_some, if_pos ⟨by change -1 ≤ (cpu : ℤ); omega, h⟩]

/-- The flags of all levels are read. -/
theorem readAs_levels {cpu : ℕ} (h : (cpu : ℤ) ≤ INT_MAX) :
    List.Forall₂ (List.Forall₂ (ReadAs strtod))
      (LEVELS.map fun level => level.add.map (Flag.format (cpuText (some cpu)))) (levelSettings cpu) := by
  have hcpu : cpuText (some (cpu : ℤ)) = Text.decimal cpu := Text.integer_natCast cpu
  rw [hcpu]
  exact .cons .nil (.cons (.cons rfl .nil) (.cons (.cons rfl .nil) (.cons (.cons rfl .nil)
    (.cons (.cons (readAs_cpu h) .nil) (.cons (.cons rfl (.cons rfl .nil)) (.cons (.cons rfl .nil)
    (.cons (.cons rfl (.cons rfl .nil)) (.cons (.cons rfl (.cons rfl (.cons rfl (.cons rfl .nil)))) .nil))))))))

/-! ## What is asked of the vehicle -/

/-- What a run asks of the vehicle, in values that `parse` reads. -/
structure Request where
  level : ℕ
  cpu : ℕ
  label : Text
  outdir : Text
  rate : F64
  cycles : ℕ
  warmup : ℕ
  phase : ℕ
  level_lt : level < 9
  cpu_le : (cpu : ℤ) ≤ INT_MAX
  cycles_fits : Fits 63 cycles
  warmup_fits : Fits 63 warmup
  phase_range : 0 < (phase : ℤ) ∧ (phase : ℤ) < 2000

/-- The request passes the checks of `parse`. -/
structure Request.Admitted (r : Request) : Prop where
  label : Freerun.labelOk (.ofList r.label) = true
  rate : Arith.le r.rate 0.0 = false
  cycles : 0 < r.cycles
  limits : r.level = 8 → differ r.rate 500.0 = false ∧ 1000 ≤ r.cycles ∧ (r.cycles + r.warmup : ℤ) ≤ MAX_CYCLES

/-- The configuration is what was asked for. -/
structure Configured (c : Config) (r : Request) : Prop where
  mitigations : mitigations c = .upTo r.level r.cpu
  label : c.label = .ofList r.label
  outdir : c.outdir = r.outdir
  rate : c.rateHz = r.rate
  cycles : c.cycles.1 = r.cycles
  warmup : c.warmup.1 = r.warmup
  ground : c.groundHost = ""
  last : r.level = 8 → c.sensorPort = 0 ∧ c.phaseUs.1 = r.phase ∧ c.skewMax.1 = 4 ∧ c.terminalCopies.1 = 12

/-- The configuration of a harness run passes the checks. -/
theorem check_harness {c : Freerun.MainConfig} (hmode : c.mode = "harness") (hfree : c.seenFree = false)
    (harm : c.autoArm = false) (hsensor : c.seenSensor = false) (hlabel : Freerun.labelOk c.label = true)
    (hrate : Arith.le c.rateHz 0.0 = false) (hcycles : 0 < c.cycles.1) (hwarmup : 0 ≤ c.warmup.1)
    (hrecord : (c.recordControl && !c.telemetry) = false) : c.check = .ok () := by
  unfold Freerun.MainConfig.check Freerun.MainConfig.checkMode
  rw [hmode, hfree, harm, hsensor, hlabel, hrate, hrecord, decide_eq_false (by omega : ¬c.cycles.1 ≤ 0),
    decide_eq_false (by omega : ¬c.warmup.1 < 0)]
  rfl

/-- The bound on the cycles of a free run. -/
theorem cycleBound_eq {warmup : I64} (h : 0 ≤ warmup.1) :
    ∃ bound, cycleBound warmup = some bound ∧ bound.1 = MAX_CYCLES - warmup.1 := by
  have hwarmup := warmup.2
  have hfits : Fits 63 (MAX_CYCLES - warmup.1) := by
    unfold Fits at hwarmup
    unfold MAX_CYCLES
    exact ⟨by omega, by omega⟩
  exact ⟨⟨_, hfits⟩, Checked.result_of_fits hfits, rfl⟩

/-- The configuration of a free run passes the checks. -/
theorem check_freerun {c : Freerun.MainConfig} (hmode : c.mode = "freerun") (htelemetry : c.telemetry = true)
    (hdiffer : differ c.rateHz 500.0 = false) (hlong : 1000 ≤ c.cycles.1) (hwarmup : 0 ≤ c.warmup.1)
    (hbound : c.cycles.1 + c.warmup.1 ≤ MAX_CYCLES) (hlabel : Freerun.labelOk c.label = true)
    (hrate : Arith.le c.rateHz 0.0 = false) : c.check = .ok () := by
  obtain ⟨bound, hcycle, heq⟩ := cycleBound_eq hwarmup
  unfold Freerun.MainConfig.check Freerun.MainConfig.checkMode Freerun.MainConfig.checkFreerun
  rw [hmode, htelemetry, hdiffer, hlabel, hrate, hcycle, decide_eq_false (by omega : ¬c.cycles.1 < 1000),
    decide_eq_false (by omega : ¬c.warmup.1 < 0), decide_eq_false (by omega : ¬c.cycles.1 ≤ 0), Bool.not_true,
    Bool.and_false]
  change (do
    Freerun.refuseIf (c.seenFree && false)
    Freerun.refuseIf (decide (bound.1 < c.cycles.1))
    return () : Except ParseFailure Unit) = _
  rw [Bool.and_false, decide_eq_false (by omega : ¬bound.1 < c.cycles.1)]
  rfl

namespace Request

/-- The arguments. -/
def args (str : F64 → Text) (r : Request) : List Text :=
  [text "--label=" ++ r.label, text "--out=" ++ r.outdir, text "--rate=" ++ str r.rate,
    text "--cycles=" ++ Text.decimal r.cycles, text "--warmup=" ++ Text.decimal r.warmup] ++
  flagsOf (some r.cpu) (LEVELS.take (r.level + 1)) ++
  (if r.level = 8 then
    [text "--sensor-port=0", text "--phase-us=" ++ Text.decimal r.phase, text "--skew-max-ticks=4",
      text "--terminal-copies=12"]
  else [])

/-- The settings of the arguments. -/
def given (r : Request) : List Setting :=
  [.label r.label, .out r.outdir, .rate r.rate, .cycles ⟨r.cycles, r.cycles_fits⟩, .warmup ⟨r.warmup, r.warmup_fits⟩] ++
  ((levelSettings r.cpu).take (r.level + 1)).flatten ++
  (if r.level = 8 then
    [.sensorPort 0, .phaseUs ⟨r.phase, r.phase_range⟩, .skewMax ⟨4, skew_default⟩, .terminalCopies ⟨12, copies_default⟩]
  else [])

/-- The arguments are read. -/
theorem readAs {str : F64 → Text} (r : Request) (hrate : strtod (str r.rate) = some r.rate) :
    List.Forall₂ (ReadAs strtod) (r.args str) r.given := by
  have hphase : Fits 63 r.phase := by
    have hrange := r.phase_range
    exact ⟨by omega, by omega⟩
  refine List.rel_append (List.rel_append ?_ ?_) ?_
  · refine .cons rfl (.cons rfl (.cons (readAs_of_converted hrate rfl) (.cons ?_ (.cons ?_ .nil))))
    · exact readAs_of_converted ((toI64_decimal _).trans (Checked.result_of_fits r.cycles_fits)) rfl
    · exact readAs_of_converted ((toI64_decimal _).trans (Checked.result_of_fits r.warmup_fits)) rfl
  · have hlevels := List.forall₂_take (r.level + 1) (@readAs_levels strtod _ r.cpu_le)
    rw [flagsOf, List.flatMap_def, List.map_take]
    exact List.rel_flatten hlevels
  · by_cases hlevel : r.level = 8
    · rw [if_pos hlevel, if_pos hlevel]
      refine .cons rfl (.cons ?_ (.cons rfl (.cons rfl .nil)))
      change (Freerun.within _ (toI64 (Text.decimal r.phase))).map Setting.phaseUs = _
      rw [toI64_decimal, Checked.result_of_fits hphase, Freerun.within, dif_pos r.phase_range]
      rfl
    · rw [if_neg hlevel, if_neg hlevel]
      exact .nil

/-- The one setting of an option. -/
def setting (r : Request) : ℕ → Setting
  | 0 => .mode (text "freerun")
  | 1 => .autoArm
  | 3 => .sensorPort 0
  | 4 => .phaseUs ⟨r.phase, r.phase_range⟩
  | 5 => .skewMax ⟨4, skew_default⟩
  | 6 => .terminalCopies ⟨12, copies_default⟩
  | 7 => .label r.label
  | 8 => .out r.outdir
  | 9 => .rate r.rate
  | 10 => .cycles ⟨r.cycles, r.cycles_fits⟩
  | 11 => .warmup ⟨r.warmup, r.warmup_fits⟩
  | 12 => .absDeadline
  | 13 => .mlock
  | 14 => .noNaiveLog
  | 15 => .fifo 80
  | 16 => .cpu r.cpu
  | 17 => .allocGuard .abort
  | 18 => .telemetry
  | _ => .record true

/-- No option is given with two values. -/
theorem unambiguous (r : Request) : Unambiguous r.given := by
  have hlevels : ∀ a ∈ (levelSettings r.cpu).flatten, a = r.setting a.option := by
    simp [levelSettings, setting, Setting.option]
  have hall : ∀ a ∈ r.given, a = r.setting a.option := by
    rw [given, List.forall_mem_append, List.forall_mem_append]
    refine ⟨⟨?_, fun a ha => hlevels a ((List.take_sublist _ _).flatten.subset ha)⟩, ?_⟩
    · simp [setting, Setting.option]
    · by_cases hlevel : r.level = 8
      · rw [if_pos hlevel]
        simp [setting, Setting.option]
      · rw [if_neg hlevel]
        exact List.forall_mem_nil _
  intro a ha b hb h
  rw [hall a ha, hall b hb, h]

/-- The configuration of the vehicle. -/
def config (r : Request) : Config := r.given.foldl Config.put .default

/-- The vehicle is configured with what was asked for. -/
theorem configured (r : Request) : Configured r.config r := by
  have hlevel := r.level_lt
  obtain ⟨level, cpu, label, outdir, rate, cycles, warmup, phase, _, _, _, _, _⟩ := r
  change level < 9 at hlevel
  interval_cases level <;>
    exact ⟨rfl, rfl, rfl, rfl, rfl, rfl, rfl, fun h => by first | exact ⟨rfl, rfl, rfl, rfl⟩ | cases h⟩

/-- The configuration passes the checks. -/
theorem check_config {r : Request} (h : r.Admitted) : r.config.check = .ok () := by
  have hlevel := r.level_lt
  obtain ⟨hlabel, hrate, hcycles, hlimits⟩ := h
  obtain ⟨level, cpu, label, outdir, rate, cycles, warmup, phase, _, _, _, _, _⟩ := r
  change level < 9 at hlevel
  change 0 < cycles at hcycles
  have hpos : 0 < (cycles : ℤ) := by omega
  have hwarmup : 0 ≤ (warmup : ℤ) := by omega
  interval_cases level
  case «8» =>
    obtain ⟨hdiffer, hlong, hbound⟩ := hlimits rfl
    change 1000 ≤ cycles at hlong
    exact check_freerun rfl rfl hdiffer (by change 1000 ≤ (cycles : ℤ); omega) hwarmup hbound hlabel hrate
  all_goals exact check_harness rfl rfl rfl rfl hlabel hrate hpos hwarmup rfl

/-- The vehicle accepts its arguments. -/
theorem parse_args {str : F64 → Text} {r : Request} (h : r.Admitted) (hrate : strtod (str r.rate) = some r.rate) :
    parse strtod (r.args str) = .ok r.config := by
  rw [parse_eq]
  rw [show settings strtod (r.args str) = .ok r.given from Settings.mapM_eq_ok_iff.mpr (r.readAs hrate)]
  change (do
    r.config.check
    return r.config : Except ParseFailure Config) = _
  rw [check_config h]
  rfl

end Request

/-! ## The requests of a campaign -/

/-- Letters, digits and the signs of a label. -/
def labelChar (c : Char) : Bool := c.isAlphanum || c == '.' || c == '_' || c == '-'

/-- A label of such characters is accepted. -/
theorem labelOk_ofList {label : Text} (hne : label ≠ []) (h : ∀ c ∈ label, labelChar c = true) :
    Freerun.labelOk (.ofList label) = true := by
  rw [Freerun.labelOk, String.toList_ofList, Bool.and_eq_true, Bool.not_eq_true', List.all_eq_true]
  refine ⟨?_, h⟩
  rw [String.isEmpty_eq_false_iff]
  exact fun heq => hne (String.toList_ofList.symm.trans (congrArg String.toList heq))

/-- Digits are such characters. -/
theorem labelChar_decimal {n : ℕ} {c : Char} (h : c ∈ Text.decimal n) : labelChar c = true := by
  rw [labelChar, Char.isAlphanum, Text.isDigit_decimal h]
  simp

/-- The label of a planned run is accepted. -/
theorem Run.Planned.labelOk {args : Args} {phases : List ℤ} {run : Run} {k : ℕ} (h : run.Planned args phases k) :
    Freerun.labelOk (.ofList run.label) = true := by
  refine labelOk_ofList ?_ ?_
  · rw [h.label, h.level, levelText]
    exact List.cons_ne_nil _ _
  · rw [h.label, h.level, levelText, List.cons_append, List.cons_append, List.forall_mem_cons, List.forall_mem_append,
      List.forall_mem_append]
    refine ⟨rfl, ⟨fun c hc => labelChar_decimal hc, ?_⟩, ?_⟩
    · cases hgrid : isGrid phases with
      | false => exact List.forall_mem_nil _
      | true =>
        rw [if_pos rfl, List.forall_mem_append]
        refine ⟨List.all_eq_true.mp (by decide), ?_⟩
        obtain ⟨hk, hphases⟩ := h.grid hgrid
        obtain ⟨phase, hmem, hphase, _⟩ := h.phase hk
        have hall : ∀ phase ∈ ([200, 400, 800] : List ℤ), (cpuText (some phase)).all labelChar = true := by decide
        rw [hphase]
        exact List.all_eq_true.mp (hall phase (hphases ▸ hmem))
    · by_cases hrepeats : 1 < args.repeats
      · rw [if_pos hrepeats, List.forall_mem_append]
        exact ⟨List.all_eq_true.mp (by decide), fun c hc => labelChar_decimal hc⟩
      · rw [if_neg hrepeats]
        exact List.forall_mem_nil _

/-- A count without a sign. -/
theorem integer_toNat {n : ℤ} (h : 0 ≤ n) : Text.integer n = Text.decimal n.toNat := by
  conv_lhs => rw [← Int.toNat_of_nonneg h]
  exact Text.integer_natCast _

/-- Levels without a CPU have the same flags for every CPU. -/
theorem flagsOf_none {k : ℕ} (h : k < 4) (cpu : Option ℤ) :
    flagsOf none (LEVELS.take (k + 1)) = flagsOf cpu (LEVELS.take (k + 1)) := by
  interval_cases k <;> rfl

/-- What the command line of the vehicle can hold. -/
structure Args.Fits (args : Args) : Prop where
  cpu : ∀ cpu ∈ args.cpu, cpu ≤ INT_MAX
  cycles : args.cycles < 2 ^ 63
  warmup : args.warmup < 2 ^ 63

/-- A request is made by a run. -/
structure Request.By (r : Request) (args : Args) (run : Run) (k : ℕ) (dir : Text) : Prop where
  level : r.level = k
  cpu : 4 ≤ k → args.cpu = some (r.cpu : ℤ)
  label : r.label = run.label
  outdir : r.outdir = dir
  rate : r.rate = run.rate
  cycles : (r.cycles : ℤ) = run.cycles
  warmup : (r.warmup : ℤ) = run.warmup
  phase : k = 8 → run.phaseUs = some (r.phase : ℤ)
  admitted : r.Admitted
  args : ∀ binary str, (run.vehicleArgv binary dir str).drop 1 = r.args str

/-- A planned run makes a request. -/
theorem Run.Planned.request {args : Args} {phases : List ℤ} {run : Run} {k : ℕ} (h : run.Planned args phases k)
    (hchecked : args.Checked) (hfits : args.Fits) (outdir : Text) : ∃ r : Request, r.By args run k outdir := by
  have hcycles := hchecked.cycles
  have hwarmup := hchecked.warmup
  obtain ⟨cpu, hcpu, hflags, hle⟩ : ∃ cpu : ℕ, (4 ≤ k → args.cpu = some (cpu : ℤ)) ∧
      flagsOf args.cpu (LEVELS.take (k + 1)) = flagsOf (some cpu) (LEVELS.take (k + 1)) ∧ (cpu : ℤ) ≤ INT_MAX := by
    cases hargs : args.cpu with
    | none =>
      have hk : ¬4 ≤ k := fun h4 => by
        have hpinned := h.pinned h4
        rw [hargs] at hpinned
        cases hpinned
      exact ⟨0, fun h4 => absurd h4 hk, flagsOf_none (Nat.lt_of_not_le hk) _, by decide⟩
    | some cpu =>
      have hnat : (cpu.toNat : ℤ) = cpu := Int.toNat_of_nonneg (hchecked.cpu cpu hargs)
      exact ⟨cpu.toNat, fun _ => by rw [hnat], by rw [hnat], hnat.trans_le (hfits.cpu cpu hargs)⟩
  obtain ⟨phase, hphase, hrange⟩ : ∃ phase : ℕ, (k = 8 → run.phaseUs = some (phase : ℤ)) ∧
      0 < (phase : ℤ) ∧ (phase : ℤ) < 2000 := by
    by_cases hk : k = 8
    · obtain ⟨phase, _, hphase, hlow, hhigh⟩ := h.phase hk
      have hnat : (phase.toNat : ℤ) = phase := Int.toNat_of_nonneg hlow.le
      exact ⟨phase.toNat, fun _ => hnat ▸ hphase, hnat.symm ▸ hlow, hnat.symm ▸ hhigh⟩
    · exact ⟨1, fun h8 => absurd h8 hk, by decide⟩
  have hcyclesNat : (run.cycles.toNat : ℤ) = args.cycles := by rw [h.cycles]; exact Int.toNat_of_nonneg hcycles.le
  have hwarmupNat : (run.warmup.toNat : ℤ) = args.warmup := by rw [h.warmup]; exact Int.toNat_of_nonneg hwarmup
  refine ⟨{
    level := k, cpu, label := run.label, outdir, rate := run.rate, cycles := run.cycles.toNat
    warmup := run.warmup.toNat, phase
    level_lt := h.bound, cpu_le := hle
    cycles_fits := ⟨by omega, by have := hfits.cycles; omega⟩
    warmup_fits := ⟨by omega, by have := hfits.warmup; omega⟩
    phase_range := hrange }, {
    level := rfl, cpu := hcpu, label := rfl, outdir := rfl, rate := rfl
    cycles := hcyclesNat.trans h.cycles.symm, warmup := hwarmupNat.trans h.warmup.symm
    phase := hphase
    admitted := ⟨h.labelOk, h.rate ▸ hchecked.rate, ?_, fun hk => ?_⟩
    args := fun binary str => ?_ }⟩
  · change 0 < run.cycles.toNat
    omega
  · obtain ⟨hdiffer, hlong, hbound⟩ := h.limits hk
    refine ⟨h.rate ▸ hdiffer, ?_, ?_⟩
    · change 1000 ≤ run.cycles.toNat
      omega
    · change (run.cycles.toNat : ℤ) + (run.warmup.toNat : ℤ) ≤ MAX_CYCLES
      omega
  · have hlast := levelText_eq_last h.bound
    rw [← h.level] at hlast
    rw [Run.vehicleArgv, Run.portArgs, hlast, h.flags, hflags, integer_toNat (by rw [h.cycles]; omega),
      integer_toNat (by rw [h.warmup]; exact hwarmup), Request.args]
    by_cases hk : k = 8
    · rw [hphase hk, cpuText, Option.elim_some, Text.integer_natCast]
      simp only [hk, decide_true, if_true]
      rfl
    · simp only [hk, decide_false]
      rfl

/-- The campaign of one run. -/
theorem trial_planned : planRuns trialInt (trialArgs 1) = .ok ([trialRun 1 (text "L8")], none) := by decide +kernel

/-- The command line can hold it. -/
theorem trial_fits : (trialArgs 1).Fits := ⟨by decide, by decide, by decide⟩

end Tvc.Sweep
