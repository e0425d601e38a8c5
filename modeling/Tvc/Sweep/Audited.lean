import Tvc.Sweep.Invocation
import Tvc.Sweep.Options

/-!
# What an audited run was

`harness_configuration` compares options as texts, in any order. Where it accepts a run and the vehicle accepted the
command line of the run, the vehicle was configured with the mitigations of the level and with the numbers of the
run: there is no other command line that passes for it.
-/

namespace Tvc.Sweep

open Checked (Fits)
open Freerun (ParseFailure)
open Harness

attribute [local instance] ieee

/-! ## The expected options -/

/-- The options of the flags that each level adds. -/
def levelOptions (cpu : Text) : List (List (Text × Option Text)) := [
  [], [(text "--abs-deadline", none)], [(text "--mlock", none)], [(text "--fifo", some (text "80"))],
  [(text "--cpu", some cpu)], [(text "--no-naive-log", none), (text "--alloc-guard", some (text "abort"))],
  [(text "--telemetry", none)], [(text "--telemetry", none), (text "--record", some (text "control"))],
  [(text "--mode", some (text "freerun")), (text "--auto-arm", none), (text "--telemetry", none),
    (text "--record", some (text "control"))]]

/-- The options of all flags up to a level. -/
def flagOptions (cpu : Text) (k : ℕ) : List (Text × Option Text) := ((levelOptions cpu).take (k + 1)).flatten

/-- The options of the numbers of a run. -/
def numberOptions (label cycles warmup : Text) : List (Text × Option Text) :=
  [(text "--label", some label), (text "--cycles", some cycles), (text "--warmup", some warmup)]

/-- The value of an option. -/
def optionValue (label out rate cycles warmup cpu : Text) (key : Text) : Option Text :=
  if key = text "--label" then some label
  else if key = text "--out" then some out
  else if key = text "--rate" then some rate
  else if key = text "--cycles" then some cycles
  else if key = text "--warmup" then some warmup
  else if key = text "--fifo" then some (text "80")
  else if key = text "--cpu" then some cpu
  else if key = text "--alloc-guard" then some (text "abort")
  else if key = text "--record" then some (text "control")
  else if key = text "--mode" then some (text "freerun")
  else none

/-- Every flag has the value of its option. -/
theorem flagOptions_value (label out rate cycles warmup cpu : Text) (k : ℕ) :
    ∀ o ∈ flagOptions cpu k, o.2 = optionValue label out rate cycles warmup cpu o.1 := by
  have hall : ∀ o ∈ (levelOptions cpu).flatten, o.2 = optionValue label out rate cycles warmup cpu o.1 := by
    change ∀ o ∈ [_, _, _, _, _, _, _, _, _, _, _, _, _], _
    simp only [List.forall_mem_cons]
    exact ⟨rfl, rfl, rfl, rfl, rfl, rfl, rfl, rfl, rfl, rfl, rfl, rfl, rfl, List.forall_mem_nil _⟩
  exact fun o ho => hall o ((List.take_sublist _ _).flatten.subset ho)

/-- Options that each have the value of their option have one value for each key. -/
theorem functional_of_value {os : List (Text × Option Text)} {value : Text → Option Text}
    (h : ∀ o ∈ os, o.2 = value o.1) : Functional os := by
  intro o ho p hp heq
  rw [h o ho, h p hp, heq]

/-- The options of the flags are cut from their texts. -/
theorem flagOptions_eq (cpu : Text) (k : ℕ) : flagOptions cpu k =
    (LEVELS.take (k + 1)).flatMap fun level => level.add.map fun flag => Text.cut '=' (flag.format cpu) := by
  rw [List.flatMap_def, List.map_take]
  rfl

/-- The texts of the options are the flags. -/
theorem map_flagOptions (cpu k : ℕ) :
    (flagOptions (Text.decimal cpu) k).map optionText = flagsOf (some (cpu : ℤ)) (LEVELS.take (k + 1)) := by
  have htext (flag : Flag) : optionText (Text.cut '=' (flag.format (Text.decimal cpu))) =
      flag.format (cpuText (some (cpu : ℤ))) := by
    rw [optionText, Text.joined_cut, cpuText, Option.elim_some, Text.integer_natCast]
  rw [flagOptions_eq, List.map_flatMap, flagsOf]
  simp only [List.map_map, Function.comp_def, htext]

/-- The expected options of a run of the harness are its numbers and its flags. -/
theorem mem_expectedOptions {fields : Fields} {label : Text} {k : ℕ} {cycles warmup : ℤ} {e : Text × Option Text} :
    e ∈ expectedOptions fields label k cycles warmup ↔
      e ∈ numberOptions label (Text.integer cycles) (Text.integer warmup) ++
        flagOptions ((fields.lookup (text "cpu")).getD (text "None")) k := by
  unfold expectedOptions
  generalize (fields.lookup (text "cpu")).getD (text "None") = cpu
  dsimp only
  rw [← flagOptions_eq]
  refine mem_foldl_expect
    (@functional_of_value _ (optionValue label [] [] (Text.integer cycles) (Text.integer warmup) cpu) ?_)
  rw [List.forall_mem_append]
  refine ⟨?_, flagOptions_value _ _ _ _ _ _ _⟩
  simp only [List.forall_mem_cons]
  exact ⟨rfl, rfl, rfl, List.forall_mem_nil _⟩

/-! ## The command line of an audited run -/

/-- All options of a run of the harness. -/
def runOptions (label out rate cycles warmup cpu : Text) (k : ℕ) : List (Text × Option Text) :=
  (text "--out", some out) :: (text "--rate", some rate) :: (numberOptions label cycles warmup ++ flagOptions cpu k)

/-- What `harness_configuration` found. -/
structure Found (str : F64 → Text) (row summary : Json) (args : List Text) (k : ℕ) where
  fields : Fields
  label : Text
  out : Text
  rate : Text
  rates : List Text
  cycles : ℤ
  warmup : ℤ
  configFields : configFields summary = .ok fields
  rowLabel : (row.get "label").text? = some label
  rowCycles : (row.get "cycles").int? = some cycles
  rowWarmup : (row.get "warmup").int? = some warmup
  cycles_pos : 1 ≤ cycles
  warmup_nonneg : 0 ≤ warmup
  rateTexts : rateTexts str (row.get "rate") = .ok rates
  rate_mem : rate ∈ rates
  cyclesRequested : (summary.get "cycles_requested").same (.int cycles) = true
  summaryLabel : (summary.get "label").same (.str label) = true
  mem_args : ∀ a, a ∈ args ↔ a ∈ (runOptions label out rate (Text.integer cycles) (Text.integer warmup)
    ((fields.lookup (text "cpu")).getD (text "None")) k).map optionText

/-- A value that was not an error. -/
theorem orError_ok {α : Type} {x : Option α} {message : String} {a : α} (h : orError x message = .ok a) : x = some a := by
  cases x with
  | none => cases h
  | some b => exact congrArg some (Except.ok.inj h)

/-- The number of a level is read off its label. -/
theorem digits_levelText (k : ℕ) : Text.digits ((levelText k).drop 1) = some k := Text.digits_decimal k

/-- An accepted run has the command line of its level. -/
theorem harnessConfiguration_found {str : F64 → Text} {row summary : Json} {binary : Text} {args : List Text} {k : ℕ}
    (hlevel : (row.get "level").text? = some (levelText k))
    (hargv : argvTexts (row.get "vehicle_argv") = some (binary :: args))
    (h : harnessConfiguration str row summary = .ok ()) : Nonempty (Found str row summary args k) := by
  obtain ⟨options, hoptions, h⟩ := bind_ok h
  obtain ⟨fields, hfields, h⟩ := bind_ok h
  obtain ⟨cycles, hcycles, h⟩ := bind_ok h
  obtain ⟨warmup, hwarmup, h⟩ := bind_ok h
  obtain ⟨number, hnumber, h⟩ := bind_ok h
  obtain ⟨rates, hrates, h⟩ := bind_ok h
  obtain ⟨label, hlabel, h⟩ := bind_ok h
  obtain ⟨level, hlevel', h⟩ := bind_ok h
  obtain ⟨k', hk', h⟩ := bind_ok h
  have hcycles := orError_ok hcycles
  have hwarmup := orError_ok hwarmup
  have hlabel := orError_ok hlabel
  have hk : k' = k := by
    have hsame := hlevel.symm.trans (orError_ok hlevel')
    have hdigits := orError_ok hk'
    rw [← Option.some.inj hsame, digits_levelText] at hdigits
    exact (Option.some.inj hdigits).symm
  subst hk
  have hfinal := refuseIf_ok h
  simp only [Bool.or_eq_false_iff, Bool.not_eq_false'] at hfinal
  obtain ⟨⟨⟨⟨hagree, hout⟩, hrate⟩, hrequested⟩, hsummaryLabel⟩ := hfinal
  have hargs : optionsOf args = .ok options := by
    unfold argvOptions at hoptions
    rw [hargv] at hoptions
    dsimp only at hoptions
    split at hoptions
    · cases hoptions
    · exact hoptions
  obtain ⟨os, hread, hof⟩ := optionsOf_eq_ok hargs
  obtain ⟨hknown, hothers, hexpected⟩ := (Options.agree_iff hof).mp hagree
  obtain ⟨rate, hmem, hrate⟩ := List.any_eq_true.mp hrate
  have hrate : (text "--rate", some rate) ∈ os :=
    (hof.mem _).mp ((Options.lookup_eq_some hof.nodup).mp (beq_iff_eq.mp hrate))
  obtain ⟨out, hout⟩ : ∃ out, (text "--out", some out) ∈ os := by
    obtain ⟨value, hvalue⟩ := hothers (text "--out") (by simp)
    cases value with
    | none =>
      have hlookup := (Options.lookup_eq_some hof.nodup).mpr ((hof.mem _).mpr hvalue)
      rw [hlookup] at hout
      cases hout
    | some out => exact ⟨out, hvalue⟩
  have hsame : ∀ o, o ∈ os ↔ o ∈ runOptions label out rate (Text.integer cycles) (Text.integer warmup)
      ((fields.lookup (text "cpu")).getD (text "None")) k' := by
    intro o
    unfold runOptions
    rw [List.mem_cons, List.mem_cons, ← mem_expectedOptions]
    constructor
    · intro ho
      rcases hknown o ho with ⟨value, hvalue⟩ | hother
      · have hvalue' : value = o.2 := hof.functional (o.1, value) (hexpected _ hvalue) o ho rfl
        rw [hvalue'] at hvalue
        exact .inr (.inr hvalue)
      · simp only [List.mem_cons, List.not_mem_nil, or_false] at hother
        rcases hother with hother | hother
        · exact .inr (.inl (Prod.ext hother (hof.functional o ho _ hrate hother)))
        · exact .inl (Prod.ext hother (hof.functional o ho _ hout hother))
    · rintro (rfl | rfl | ho)
      · exact hout
      · exact hrate
      · exact hexpected o ho
  exact ⟨{
    fields, label, out, rate, rates, cycles, warmup
    configFields := hfields
    rowLabel := hlabel
    rowCycles := (Option.filter_eq_some_iff.mp hcycles).1
    rowWarmup := (Option.filter_eq_some_iff.mp hwarmup).1
    cycles_pos := of_decide_eq_true (Option.filter_eq_some_iff.mp hcycles).2
    warmup_nonneg := of_decide_eq_true (Option.filter_eq_some_iff.mp hwarmup).2
    rateTexts := hrates
    rate_mem := hmem
    cyclesRequested := hrequested
    summaryLabel := hsummaryLabel
    mem_args := fun a => by
      rw [map_optionText hread, List.mem_map, List.mem_map]
      exact exists_congr fun o => and_congr_left fun _ => hsame o }⟩

/-! ## The vehicle of an audited run -/

/-- An accepted command line is read argument by argument. -/
theorem reads_of_parse {strtod : Text → Option F64} {args : List Text} {c : Config} (h : parse strtod args = .ok c) :
    ∃ given, settings strtod args = .ok given ∧ c = given.foldl Config.put .default := by
  rw [parse_eq] at h
  cases hread : settings strtod args with
  | error e =>
    rw [hread] at h
    cases h
  | ok given =>
    refine ⟨given, rfl, ?_⟩
    rw [hread] at h
    change (do
      (given.foldl Config.put .default).check
      return given.foldl Config.put .default : Except ParseFailure Config) = .ok c at h
    cases hcheck : (given.foldl Config.put .default).check with
    | error e =>
      rw [hcheck] at h
      cases h
    | ok u =>
      rw [hcheck] at h
      exact (Except.ok.inj h).symm

/-- Every argument of an accepted command line is read. -/
theorem exists_readAs {strtod : Text → Option F64} {args : List Text} {given : List Setting}
    (h : settings strtod args = .ok given) {a : Text} (ha : a ∈ args) : ∃ s, ReadAs strtod a s := by
  have hread := Settings.mapM_eq_ok_iff.mp h
  obtain ⟨i, hi, rfl⟩ := List.mem_iff_getElem.mp ha
  exact ⟨_, hread.get hi (hread.length_eq ▸ hi)⟩

/-- A value that was converted. -/
theorem exists_of_readAs {strtod : Text → Option F64} {α : Type} {x : Option α} {f : α → Setting} {a : Text} {s : Setting}
    (h : ReadAs strtod a s) (ha : (Opt.of a).setting strtod = (Freerun.converted x).map f) : ∃ value, x = some value := by
  rw [ReadAs, ha] at h
  cases x with
  | none => cases h
  | some value => exact ⟨value, rfl⟩

/-- A count that was converted fits. -/
theorem fits_of_toI64 {n : ℕ} {v : Freerun.I64} (h : toI64 (Text.decimal n) = some v) : Fits 63 n := by
  rw [toI64_decimal] at h
  exact Checked.result_eq_some.mp h ▸ v.2

/-- The CPU of a configuration is written as a number. -/
theorem cpu_of_fields {summary : Json} {fields : Fields} (h : configFields summary = .ok fields) {cpu : Text}
    (hcpu : fields.lookup (text "cpu") = some cpu) : ∃ n, cpu = Text.decimal n := by
  have hcanonical : canonical cpu = true := by
    unfold configFields at h
    cases hconfig : (summary.get "config").text? with
    | none =>
      rw [hconfig] at h
      cases h
    | some config =>
      rw [hconfig] at h
      dsimp only at h
      split at h
      · cases h
      · obtain ⟨known, _, h⟩ := bind_ok h
        obtain ⟨_, hfirst, h⟩ := bind_ok h
        obtain ⟨_, _, h⟩ := bind_ok h
        cases h
        have hany := refuseIf_ok hfirst
        rw [hcpu, Option.any_some, Bool.not_eq_false'] at hany
        exact hany
  rw [canonical, Bool.or_eq_true] at hcanonical
  rcases hcanonical with hzero | hdigits
  · exact ⟨0, beq_iff_eq.mp hzero⟩
  · simp only [Bool.and_eq_true, Bool.not_eq_true', List.all_eq_true, bne_iff_ne, List.isEmpty_eq_false_iff] at hdigits
    obtain ⟨n, _, hn⟩ := Text.exists_decimal hdigits.1.1 hdigits.1.2 hdigits.2
    exact ⟨n, hn⟩

variable {str : F64 → Text} {strtod : Text → Option F64} {row summary : Json} {args : List Text} {k : ℕ} {c : Config}

/-- The order of the first five members does not matter. -/
theorem mem_front {α : Type} {a p q r s t : α} {l : List α} :
    a ∈ q :: r :: p :: s :: t :: l ↔ a ∈ [p, q, r, s, t] ++ l := by
  simp only [List.cons_append, List.nil_append, List.mem_cons]
  tauto

/-- Every option of the run is read. -/
theorem Found.exists_readAs (f : Found str row summary args k) (hparse : parse strtod args = .ok c)
    {o : Text × Option Text} (ho : o ∈ runOptions f.label f.out f.rate (Text.integer f.cycles) (Text.integer f.warmup)
      ((f.fields.lookup (text "cpu")).getD (text "None")) k) : ∃ s, ReadAs strtod (optionText o) s := by
  obtain ⟨given, hgiven, _⟩ := reads_of_parse hparse
  exact Sweep.exists_readAs hgiven ((f.mem_args _).mpr (List.mem_map_of_mem ho))

/-- The cycles of the run fit. -/
theorem Found.cycles_fits (f : Found str row summary args k) (hparse : parse strtod args = .ok c) :
    Fits 63 f.cycles.toNat := by
  have hpos := f.cycles_pos
  obtain ⟨s, hs⟩ := f.exists_readAs hparse (o := (text "--cycles", some (Text.integer f.cycles)))
    (by simp [runOptions, numberOptions])
  rw [integer_toNat (by omega)] at hs
  obtain ⟨v, hv⟩ := exists_of_readAs (x := toI64 (Text.decimal f.cycles.toNat)) hs rfl
  exact fits_of_toI64 hv

/-- The warmup of the run fits. -/
theorem Found.warmup_fits (f : Found str row summary args k) (hparse : parse strtod args = .ok c) :
    Fits 63 f.warmup.toNat := by
  obtain ⟨s, hs⟩ := f.exists_readAs hparse (o := (text "--warmup", some (Text.integer f.warmup)))
    (by simp [runOptions, numberOptions])
  rw [integer_toNat f.warmup_nonneg] at hs
  obtain ⟨v, hv⟩ := exists_of_readAs (x := toI64 (Text.decimal f.warmup.toNat)) hs rfl
  exact fits_of_toI64 hv

/-- The CPU of the run is a number. -/
theorem Found.cpu_number (f : Found str row summary args k) (hk : k < 8) (hparse : parse strtod args = .ok c) :
    ∃ cpu : ℕ, (cpu : ℤ) ≤ INT_MAX ∧
      flagOptions ((f.fields.lookup (text "cpu")).getD (text "None")) k = flagOptions (Text.decimal cpu) k := by
  by_cases h4 : 4 ≤ k
  · have hmem (cpu : Text) : (text "--cpu", some cpu) ∈ flagOptions cpu k := by
      interval_cases k <;> simp [flagOptions, levelOptions]
    obtain ⟨s, hs⟩ := f.exists_readAs hparse
      (o := (text "--cpu", some ((f.fields.lookup (text "cpu")).getD (text "None"))))
      (List.mem_cons_of_mem _ (List.mem_cons_of_mem _ (List.mem_append_right _ (hmem _))))
    obtain ⟨v, hv⟩ := exists_of_readAs
      (x := inRange (-1) INT_MAX ((f.fields.lookup (text "cpu")).getD (text "None"))) hs rfl
    cases hcpu : f.fields.lookup (text "cpu") with
    | none =>
      -- the word None is no number
      rw [hcpu] at hv
      cases hv
    | some value =>
      obtain ⟨n, rfl⟩ := cpu_of_fields f.configFields hcpu
      rw [hcpu, Option.getD_some, inRange, toI64_decimal] at hv
      cases hresult : Checked.result 63 (n : ℤ) with
      | none =>
        rw [hresult] at hv
        cases hv
      | some w =>
        rw [hresult, Option.bind_some] at hv
        have hw := Checked.result_eq_some.mp hresult
        split at hv
        · rename_i hrange
          exact ⟨n, hw ▸ hrange.2, rfl⟩
        · cases hv
  · refine ⟨0, by decide, ?_⟩
    interval_cases k <;> rfl

/-- The request with the options of a run has the arguments of the run. -/
theorem mem_request {r : Request} (hr : r.level < 8) {rate cpu : Text}
    (hflags : flagOptions cpu r.level = flagOptions (Text.decimal r.cpu) r.level) (a : Text) :
    a ∈ (runOptions r.label r.outdir rate (Text.decimal r.cycles) (Text.decimal r.warmup) cpu r.level).map optionText ↔
      a ∈ r.args fun _ => rate := by
  rw [runOptions, hflags, List.map_cons, List.map_cons, List.map_append, map_flagOptions, Request.args,
    if_neg (by omega : ¬r.level = 8), List.append_nil]
  exact mem_front

/-- The vehicle of a run with the command line of its level. -/
theorem Found.configured (f : Found str row summary args k) (hk : k < 8) (hparse : parse strtod args = .ok c) :
    ∃ r : Request, r.level = k ∧ r.label = f.label ∧ (r.cycles : ℤ) = f.cycles ∧ (r.warmup : ℤ) = f.warmup ∧
      strtod f.rate = some r.rate ∧ Configured c r := by
  have hcycles : 0 ≤ f.cycles := by
    have hpos := f.cycles_pos
    omega
  obtain ⟨rate, hrate⟩ : ∃ rate, strtod f.rate = some rate := by
    obtain ⟨s, hs⟩ := f.exists_readAs hparse (o := (text "--rate", some f.rate)) (by simp [runOptions])
    exact exists_of_readAs (x := strtod f.rate) hs rfl
  obtain ⟨cpu, hle, hflags⟩ := f.cpu_number hk hparse
  let r : Request := {
    level := k, cpu, label := f.label, outdir := f.out, rate, cycles := f.cycles.toNat, warmup := f.warmup.toNat
    phase := 1, level_lt := by omega, cpu_le := hle
    cycles_fits := f.cycles_fits hparse, warmup_fits := f.warmup_fits hparse, phase_range := by decide }
  have hargs : ∀ a, a ∈ args ↔ a ∈ r.args fun _ => f.rate := by
    intro a
    rw [f.mem_args, integer_toNat hcycles, integer_toNat f.warmup_nonneg]
    exact mem_request (r := r) hk hflags a
  have hreads : settings strtod (r.args fun _ => f.rate) = .ok r.given :=
    Settings.mapM_eq_ok_iff.mpr (r.readAs hrate)
  rw [parse_congr hreads r.unambiguous hargs] at hparse
  obtain ⟨given, hgiven, hc⟩ := reads_of_parse hparse
  rw [← Except.ok.inj (hreads.symm.trans hgiven)] at hc
  rw [hc]
  exact ⟨r, rfl, rfl, Int.toNat_of_nonneg hcycles, Int.toNat_of_nonneg f.warmup_nonneg, hrate, r.configured⟩

/-- Where the audit accepts a run of the harness and the vehicle accepted its command line, the vehicle was configured
with the mitigations of the levels up to that of the run, with no other, and with the numbers in the roster. -/
theorem harness_audited (hlevel : (row.get "level").text? = some (levelText k)) (hk : k < 8) {binary : Text}
    (hargv : argvTexts (row.get "vehicle_argv") = some (binary :: args)) (hparse : parse strtod args = .ok c)
    (haudit : harnessConfiguration str row summary = .ok ()) :
    mitigations c = .upTo k c.cpu ∧ (4 ≤ k → 0 ≤ c.cpu) ∧ c.groundHost = "" ∧
      (row.get "cycles").int? = some c.cycles.1 ∧ (row.get "warmup").int? = some c.warmup.1 ∧
      (row.get "label").text?.map String.ofList = some c.label ∧
      (summary.get "cycles_requested").same (.int c.cycles.1) = true ∧
      ∃ rates, rateTexts str (row.get "rate") = .ok rates ∧ ∃ rate ∈ rates, strtod rate = some c.rateHz := by
  obtain ⟨f⟩ := harnessConfiguration_found hlevel hargv haudit
  obtain ⟨r, hr, hlabel, hcycles, hwarmup, hrate, hc⟩ := f.configured hk hparse
  have hmitigations := hc.mitigations
  rw [hr] at hmitigations
  have hcpu : c.cpu = if 4 ≤ k then (r.cpu : ℤ) else -1 := congrArg Mitigations.cpu hmitigations
  refine ⟨?_, fun h4 => ?_, hc.ground, ?_, ?_, ?_, ?_, f.rates, f.rateTexts, f.rate, f.rate_mem, ?_⟩
  · rw [hmitigations]
    by_cases h4 : 4 ≤ k
    · rw [hcpu, if_pos h4]
    · simp only [Mitigations.upTo, if_neg h4]
  · rw [hcpu, if_pos h4]
    exact Int.natCast_nonneg _
  · rw [f.rowCycles, hc.cycles, hcycles]
  · rw [f.rowWarmup, hc.warmup, hwarmup]
  · rw [f.rowLabel, hc.label, hlabel]
    rfl
  · rw [hc.cycles, hcycles]
    exact f.cyclesRequested
  · rw [hrate, hc.rate]

/-- The arguments of a run of L1. -/
def trialArgv : List Text :=
  [text "--label=L1", text "--out=out", text "--rate=500", text "--cycles=1000", text "--warmup=0", text "--abs-deadline"]

/-- The row of this run. -/
def trialRow : Json :=
  .obj [("level", .str (text "L1")), ("label", .str (text "L1")), ("cycles", .int 1000), ("warmup", .int 0),
    ("repeat", .int 1), ("rate", .int 500), ("vehicle_argv", .arr ((text "tvc" :: trialArgv).map .str))]

/-- The summary of this run. -/
def trialSummary : Json :=
  .obj [("label", .str (text "L1")), ("config", .str (text "abs-deadline naive-log")), ("cycles_requested", .int 1000)]

/-- The vehicle of a run of L1 waits for absolute deadlines and does nothing else of what the levels are about. -/
theorem harness_audited_trial : ∃ c, parse (fun _ => some 500.0) trialArgv = .ok c ∧ mitigations c = .upTo 1 c.cpu := by
  have hok : (parse (fun _ => some 500.0) trialArgv).isOk = true := by decide +kernel
  cases hparse : parse (fun _ => some 500.0) trialArgv with
  | error e =>
    rw [hparse] at hok
    cases hok
  | ok c =>
    have haudit : harnessConfiguration (fun _ => text "500") trialRow trialSummary = .ok () := by decide +kernel
    have hargv : argvTexts (trialRow.get "vehicle_argv") = some (text "tvc" :: trialArgv) := by decide
    have haudited := @harness_audited (fun _ => text "500") (fun _ => some 500.0) trialRow trialSummary trialArgv 1 c rfl
      (by decide) _ hargv hparse haudit
    exact ⟨c, rfl, haudited.1⟩

end Tvc.Sweep
