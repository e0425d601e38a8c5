import Tvc.Sweep.Plan
import Mathlib.Data.List.Nodup

/-!
# The runs of a campaign

What a planned run is: the level, with the flags of all levels up to it, and the numbers of the campaign.
-/

namespace Tvc.Sweep

open Harness (Text text)

attribute [local instance] ieee

/-- The flags of some levels. -/
def flagsOf (cpu : Option ℤ) (levels : List Level) : List Text :=
  levels.flatMap fun level => level.add.map (Flag.format (cpuText cpu))

/-- The levels that can run are the first ones, and those that need a CPU have one. -/
theorem planLevels_spec {cpu : Option ℤ} {levels : List Level} {planned : List Level × Option String}
    (h : planLevels cpu levels = .ok planned) :
    planned.1 <+: levels ∧ ∀ level ∈ planned.1, Flag.cpu ∈ level.add → cpu.isSome = true := by
  induction levels generalizing planned with
  | nil =>
    cases h
    exact ⟨List.prefix_rfl, fun _ hmem => absurd hmem List.not_mem_nil⟩
  | cons level rest ih =>
    unfold planLevels at h
    by_cases hlockstep : level.add.contains (.fixed (text "--mode=lockstep")) = true
    · rw [if_pos hlockstep] at h
      cases h
    by_cases hcpu : (level.add.contains .cpu && cpu.isNone) = true
    · rw [if_neg hlockstep, if_pos hcpu] at h
      cases h
      exact ⟨List.nil_prefix, fun _ hmem => absurd hmem List.not_mem_nil⟩
    · rw [if_neg hlockstep, if_neg hcpu] at h
      cases hrest : planLevels cpu rest with
      | error e =>
        rw [hrest] at h
        cases h
      | ok below =>
        rw [hrest] at h
        cases h
        obtain ⟨hstarts, hneeds⟩ := ih hrest
        refine ⟨List.cons_prefix_cons.mpr ⟨rfl, hstarts⟩, fun other hmem hflag => ?_⟩
        rcases List.mem_cons.mp hmem with rfl | hmem
        · rw [List.contains_iff_mem.mpr hflag, Bool.true_and, Option.isNone_iff_eq_none] at hcpu
          exact Option.isSome_iff_ne_none.mpr hcpu
        · exact hneeds other hmem hflag

/-- A plan is one of the plans of a level, with the flags of the levels up to it. -/
theorem plansOf_spec {args : Args} {phases : List ℤ} {before levels : List Level} {plans : List Run}
    (h : plansOf args phases (flagsOf args.cpu before) levels = .ok plans) {plan : Run} (hmem : plan ∈ plans) :
    ∃ below level rest, levels = below ++ level :: rest ∧ (args.only = [] ∨ level.label ∈ args.only) ∧
      refuseL8 args level = .ok () ∧
      plan ∈ levelPlans args phases (flagsOf args.cpu (before ++ below ++ [level])) level := by
  induction levels generalizing before plans with
  | nil =>
    cases h
    exact absurd hmem List.not_mem_nil
  | cons level rest ih =>
    have hflags : flagsOf args.cpu before ++ level.add.map (Flag.format (cpuText args.cpu)) =
        flagsOf args.cpu (before ++ [level]) := by
      rw [flagsOf, flagsOf, List.flatMap_append, List.flatMap_singleton]
    have hlater {plans : List Run} (hrest : plansOf args phases (flagsOf args.cpu (before ++ [level])) rest = .ok plans)
        (hmem : plan ∈ plans) :
        ∃ below level' rest', level :: rest = below ++ level' :: rest' ∧
          (args.only = [] ∨ level'.label ∈ args.only) ∧ refuseL8 args level' = .ok () ∧
          plan ∈ levelPlans args phases (flagsOf args.cpu (before ++ below ++ [level'])) level' := by
      obtain ⟨below, level', rest', rfl, honly, hok, hplan⟩ := ih hrest hmem
      refine ⟨level :: below, level', rest', rfl, honly, hok, ?_⟩
      rwa [List.append_assoc before, List.singleton_append] at hplan
    rw [plansOf, hflags] at h
    by_cases hskip : (!args.only.isEmpty && !args.only.contains level.label) = true
    · rw [if_pos hskip] at h
      exact hlater h hmem
    · rw [if_neg hskip] at h
      obtain ⟨u, hok, h⟩ := bind_ok h
      obtain ⟨plans', hrest, h⟩ := bind_ok h
      cases h
      rcases List.mem_append.mp hmem with hhere | hthere
      · have honly : args.only = [] ∨ level.label ∈ args.only := by
          rw [Bool.and_eq_true, not_and_or, Bool.not_eq_true', Bool.not_eq_true', Bool.not_eq_false, Bool.not_eq_false,
            List.isEmpty_iff, List.contains_iff_mem] at hskip
          exact hskip
        refine ⟨[], level, rest, rfl, honly, hok, ?_⟩
        rwa [List.append_nil]
      · exact hlater hrest hthere

/-- Plans are told by their levels and phases. -/
theorem plansOf_nodup {args : Args} {phases : List ℤ} (hphases : phases.Nodup) {flags : List Text}
    {levels : List Level} (hlevels : (levels.map Level.label).Nodup) {plans : List Run}
    (h : plansOf args phases flags levels = .ok plans) :
    (plans.map fun plan => (plan.level, plan.phaseUs)).Nodup ∧
      ∀ plan ∈ plans, plan.level ∈ levels.map Level.label := by
  induction levels generalizing flags plans with
  | nil =>
    cases h
    exact ⟨List.nodup_nil, fun _ hmem => absurd hmem List.not_mem_nil⟩
  | cons level rest ih =>
    obtain ⟨hfresh, hrest⟩ := List.nodup_cons.mp hlevels
    rw [plansOf] at h
    by_cases hskip : (!args.only.isEmpty && !args.only.contains level.label) = true
    · rw [if_pos hskip] at h
      obtain ⟨hnodup, hmem⟩ := ih hrest h
      exact ⟨hnodup, fun plan hplan => List.mem_cons_of_mem _ (hmem plan hplan)⟩
    · rw [if_neg hskip] at h
      obtain ⟨u, hok, h⟩ := bind_ok h
      obtain ⟨plans', hplans', h⟩ := bind_ok h
      cases h
      obtain ⟨hnodup, hmem⟩ := ih hrest hplans'
      have hlevel {flags : List Text} {plan : Run} (hplan : plan ∈ levelPlans args phases flags level) :
          plan.level = level.label := by
        obtain ⟨phase, _, rfl⟩ := List.mem_map.mp hplan
        rfl
      refine ⟨?_, fun plan hplan => ?_⟩
      · rw [List.map_append]
        refine List.Nodup.append ?_ hnodup fun key hhere hthere => ?_
        · rw [levelPlans, List.map_map]
          refine List.Nodup.map (fun p q heq => congrArg Prod.snd heq) ?_
          split
          · exact hphases.map (Option.some_injective ℤ)
          · exact List.nodup_singleton none
        · obtain ⟨plan, hplan, rfl⟩ := List.mem_map.mp hhere
          obtain ⟨other, hother, heq⟩ := List.mem_map.mp hthere
          refine hfresh ?_
          have hsame : other.level = level.label := (congrArg Prod.fst heq).trans (hlevel hplan)
          exact hsame ▸ hmem other hother
      · rcases List.mem_append.mp hplan with hhere | hthere
        · rw [hlevel hhere]
          exact List.mem_cons_self
        · exact List.mem_cons_of_mem _ (hmem plan hthere)

/-! ## What is planned -/

/-- The label of a level. -/
def levelText (k : ℕ) : Text := 'L' :: Text.decimal k

/-- What the checks of `plan_runs` leave of its arguments. -/
structure Args.Checked (args : Args) : Prop where
  cycles : 0 < args.cycles
  warmup : 0 ≤ args.warmup
  repeats : 0 < args.repeats
  finite : args.rate.isFinite = true
  rate : Arith.le args.rate 0.0 = false
  cpu : ∀ cpu ∈ args.cpu, 0 ≤ cpu
  peerCpu : ∀ cpu ∈ args.peerCpu, 0 ≤ cpu

/-- More than one phase makes a grid. -/
def isGrid (phases : List ℤ) : Bool := decide (1 < phases.length)

/-- What is planned for a run of level `k`. -/
structure Run.Planned (args : Args) (phases : List ℤ) (run : Run) (k : ℕ) : Prop where
  bound : k < 9
  grid : isGrid phases = true → k = 8 ∧ phases = [200, 400, 800]
  level : run.level = levelText k
  flags : run.flags = flagsOf args.cpu (LEVELS.take (k + 1))
  pinned : 4 ≤ k → args.cpu.isSome = true
  cycles : run.cycles = args.cycles
  warmup : run.warmup = args.warmup
  rate : run.rate = args.rate
  number : 1 ≤ run.number ∧ (run.number : ℤ) ≤ args.repeats
  noPhase : k ≠ 8 → run.phaseUs = none
  phase : k = 8 → ∃ phase ∈ phases, run.phaseUs = some phase ∧ 0 < phase ∧ phase < 2000
  peerCpu : k = 8 → run.peerCpu = args.peerCpu
  limits : k = 8 → Freerun.differ args.rate 500.0 = false ∧ 1000 ≤ args.cycles ∧ args.cycles + args.warmup ≤ MAX_CYCLES
  qualified : k = 8 → QUALIFIED_CYCLES ≤ args.cycles → args.peerCpu.isSome = true
  label : run.label = run.level ++ (if isGrid phases then text ".phase" ++ cpuText run.phaseUs else []) ++
    (if 1 < args.repeats then text ".r" ++ Text.decimal run.number else [])

/-- The levels are numbered. -/
theorem levels_label {k : ℕ} {level : Level} (h : LEVELS[k]? = some level) : k < 9 ∧ level.label = levelText k := by
  have hk : k < LEVELS.length := (List.getElem?_eq_some_iff.mp h).1
  have hall : ∀ k < 9, LEVELS[k]?.map Level.label = some (levelText k) := by decide
  have hlabel := hall k hk
  rw [h] at hlabel
  exact ⟨hk, Option.some.inj hlabel⟩

/-- The labels of the levels differ. -/
theorem levels_nodup : (LEVELS.map Level.label).Nodup := by decide

/-- The fourth level needs a CPU. -/
theorem levels_cpu {level : Level} (h : LEVELS[4]? = some level) : Flag.cpu ∈ level.add := by
  cases h
  exact List.mem_cons_self

/-- A level is the last one by its label. -/
theorem levelText_eq_last {k : ℕ} (h : k < 9) : (levelText k == text "L8") = decide (k = 8) := by
  have hall : ∀ k < 9, (levelText k == text "L8") = decide (k = 8) := by decide
  exact hall k h

/-- What was planned, before it was numbered. -/
structure Outcome (int : Text → Option ℤ) (args : Args) (runs : List Run) where
  phases : List ℤ
  runnable : List Level
  plans : List Run
  checked : args.Checked
  read : (args.phaseUs.splitOn ',').mapM int = some phases
  range : ∀ phase ∈ phases, 0 < phase ∧ phase < 2000
  grid : isGrid phases = true → args.only = [text "L8"] ∧ phases = [200, 400, 800]
  isPrefix : runnable <+: LEVELS
  pinned : ∀ level ∈ runnable, Flag.cpu ∈ level.add → args.cpu.isSome = true
  plansOf : plansOf args phases [] runnable = .ok plans
  qualified : args.peerCpu = none → (∃ plan ∈ plans, plan.level = text "L8") → args.cycles < QUALIFIED_CYCLES
  ordered : runs = ordered args (isGrid phases) plans

/-- What `plan_runs` returns was planned. -/
theorem planRuns_outcome {int : Text → Option ℤ} {args : Args} {planned : List Run × Option String}
    (h : planRuns int args = .ok planned) : Nonempty (Outcome int args planned.1) := by
  obtain ⟨_, hargs, h⟩ := bind_ok h
  obtain ⟨_, hcpu, h⟩ := bind_ok h
  obtain ⟨_, honly, h⟩ := bind_ok h
  obtain ⟨phases, hphases, h⟩ := bind_ok h
  obtain ⟨_, hrange, h⟩ := bind_ok h
  obtain ⟨_, hgrid, h⟩ := bind_ok h
  obtain ⟨_, hpeer, h⟩ := bind_ok h
  obtain ⟨runnable, hrunnable, h⟩ := bind_ok h
  obtain ⟨plans, hplans, h⟩ := bind_ok h
  obtain ⟨_, hqualified, h⟩ := bind_ok h
  obtain ⟨_, happlies, h⟩ := bind_ok h
  cases h
  obtain ⟨hstarts, hpinned⟩ := planLevels_spec hrunnable
  have hargs := refuseIf_ok hargs
  simp only [Bool.or_eq_false_iff, decide_eq_false_iff_not, Bool.not_eq_false', not_le, not_lt] at hargs
  obtain ⟨⟨⟨⟨hcycles, hwarmup⟩, hrepeats⟩, hfinite⟩, hrate⟩ := hargs
  have hneg {cpu : Option ℤ} (hany : (cpu.any fun c => decide (c < 0)) = false) : ∀ c ∈ cpu, 0 ≤ c := by
    rintro c rfl
    simpa using hany
  refine ⟨{
    phases, runnable := runnable.1, plans
    checked := ⟨hcycles, hwarmup, hrepeats, hfinite, hrate, hneg (refuseIf_ok hcpu), hneg (refuseIf_ok hpeer)⟩
    read := ?_
    range := fun phase hmem => ?_
    grid := fun hlong => ?_
    isPrefix := hstarts, pinned := hpinned, plansOf := hplans
    qualified := fun hnone hlast => ?_
    ordered := rfl }⟩
  · cases hread : (args.phaseUs.splitOn ',').mapM int with
    | none =>
      rw [hread] at hphases
      cases hphases
    | some read =>
      rw [hread] at hphases
      cases hphases
      rfl
  · have hout := List.any_eq_false.mp (refuseIf_ok hrange) phase hmem
    simp only [Bool.or_eq_true, decide_eq_true_eq] at hout
    omega
  · have hsame := refuseIf_ok hgrid
    rw [show decide (1 < phases.length) = true from hlong, Bool.true_and] at hsame
    simp only [Bool.or_eq_false_iff, bne_eq_false_iff_eq] at hsame
    exact ⟨hsame.1.1.2, hsame.1.1.1⟩
  · obtain ⟨plan, hplan, hlevel⟩ := hlast
    have hany : (plans.any fun plan => plan.level == text "L8") = true :=
      List.any_eq_true.mpr ⟨plan, hplan, beq_iff_eq.mpr hlevel⟩
    have hshort := refuseIf_ok hqualified
    rw [hnone, hany] at hshort
    simp only [Option.isNone_none, Bool.and_self, Bool.true_and, Bool.or_eq_false_iff, decide_eq_false_iff_not,
      not_le] at hshort
    exact hshort.2

variable {int : Text → Option ℤ} {args : Args} {runs : List Run}

/-- A run is a plan with its number. -/
theorem mem_ordered {grid : Bool} {plans : List Run} {run : Run} (h : run ∈ ordered args grid plans) :
    ∃ plan ∈ plans, ∃ number : ℕ, 1 ≤ number ∧ (number : ℤ) ≤ args.repeats ∧
      run = plan.numbered grid args.repeats number := by
  have hnumber {number : ℕ} (hmem : number ∈ (List.range args.repeats.toNat).map (· + 1)) :
      1 ≤ number ∧ (number : ℤ) ≤ args.repeats := by
    obtain ⟨i, hi, rfl⟩ := List.mem_map.mp hmem
    have hlt := List.mem_range.mp hi
    omega
  unfold ordered at h
  by_cases hinterleave : args.interleave = true
  · rw [if_pos hinterleave] at h
    obtain ⟨number, hmem, hrun⟩ := List.mem_flatMap.mp h
    obtain ⟨plan, hplan, rfl⟩ := List.mem_map.mp hrun
    exact ⟨plan, hplan, number, (hnumber hmem).1, (hnumber hmem).2, rfl⟩
  · rw [if_neg hinterleave] at h
    obtain ⟨plan, hplan, hrun⟩ := List.mem_flatMap.mp h
    obtain ⟨number, hmem, rfl⟩ := List.mem_map.mp hrun
    exact ⟨plan, hplan, number, (hnumber hmem).1, (hnumber hmem).2, rfl⟩

/-- Every run is planned for one of the levels. -/
theorem Outcome.planned (o : Outcome int args runs) {run : Run} (hmem : run ∈ runs) :
    ∃ k, run.Planned args o.phases k := by
  rw [o.ordered] at hmem
  obtain ⟨plan, hplan, number, hlow, hhigh, rfl⟩ := mem_ordered hmem
  obtain ⟨below, level, rest, hsplit, honly, hok, hhere⟩ := @plansOf_spec _ _ [] _ _ o.plansOf _ hplan
  rw [List.nil_append] at hhere
  obtain ⟨after, hlevels⟩ := o.isPrefix
  rw [hsplit, List.append_assoc, List.cons_append] at hlevels
  obtain ⟨phase, hphase, rfl⟩ := List.mem_map.mp hhere
  have hget : LEVELS[below.length]? = some level := by
    rw [← hlevels, List.getElem?_append_right (Nat.le_refl _), Nat.sub_self]
    rfl
  obtain ⟨hbound, hlabel⟩ := levels_label hget
  have hlast := levelText_eq_last hbound
  rw [← hlabel] at hlast
  have htake : below ++ [level] = LEVELS.take (below.length + 1) := by
    rw [← hlevels, List.take_length_add_append]
    rfl
  have hpinned (h4 : 4 ≤ below.length) : args.cpu.isSome = true := by
    have hfour : (below ++ [level])[4]? = LEVELS[4]? := by
      rw [htake, List.getElem?_take_of_lt (by omega)]
    obtain ⟨pin, hpin⟩ : ∃ pin, LEVELS[4]? = some pin := ⟨_, rfl⟩
    have hmem := List.mem_of_getElem? (hfour.trans hpin)
    refine o.pinned pin ?_ (levels_cpu hpin)
    rw [hsplit, List.append_cons]
    exact List.mem_append_left _ hmem
  have hlimits := refuseIf_ok hok
  rw [hlast] at hlimits hphase
  refine ⟨below.length, {
    bound := hbound
    grid := fun hgrid => ⟨?_, (o.grid hgrid).2⟩
    level := hlabel
    flags := congrArg (flagsOf args.cpu) htake
    pinned := hpinned
    cycles := rfl, warmup := rfl, rate := rfl
    number := ⟨hlow, hhigh⟩
    noPhase := fun hk => ?_
    phase := fun hk => ?_
    peerCpu := fun hk => ?_
    limits := fun hk => ?_
    qualified := fun hk hlong => ?_
    label := rfl }⟩
  · rw [(o.grid hgrid).1] at honly
    rcases honly with hnone | hmem
    · cases hnone
    · rw [List.mem_singleton.mp hmem, beq_self_eq_true] at hlast
      exact of_decide_eq_true hlast.symm
  · rw [decide_eq_false hk] at hphase
    exact List.mem_singleton.mp hphase
  · rw [decide_eq_true hk] at hphase
    obtain ⟨p, hp, rfl⟩ := List.mem_map.mp hphase
    exact ⟨p, hp, rfl, o.range p hp⟩
  · change (if level.label == text "L8" then args.peerCpu else none) = args.peerCpu
    rw [hlast, decide_eq_true hk]
    rfl
  · rw [decide_eq_true hk, Bool.true_and] at hlimits
    simp only [Bool.or_eq_false_iff, decide_eq_false_iff_not, not_lt] at hlimits
    exact ⟨hlimits.1.1, hlimits.1.2, hlimits.2⟩
  · refine Option.isSome_iff_ne_none.mpr fun hnone => ?_
    have hshort := o.qualified hnone ⟨_, hplan, ?_⟩
    · omega
    · change level.label = text "L8"
      rw [← beq_iff_eq, hlast]
      exact decide_eq_true hk

/-- No run is planned twice. -/
theorem Outcome.nodup (o : Outcome int args runs) :
    (runs.map fun run => ((run.level, run.phaseUs), run.number)).Nodup := by
  have hphases : o.phases.Nodup := by
    by_cases hlong : 1 < o.phases.length
    · rw [(o.grid (decide_eq_true hlong)).2]
      decide
    · exact List.nodup_iff_injective_get.mpr fun i j _ => Fin.ext (by omega)
  have hrunnable : (o.runnable.map Level.label).Nodup :=
    levels_nodup.sublist (o.isPrefix.sublist.map Level.label)
  have hplans := (plansOf_nodup hphases hrunnable o.plansOf).1
  have hnumbers : ((List.range args.repeats.toNat).map (· + 1)).Nodup :=
    List.nodup_range.map fun _ _ h => Nat.succ.inj h
  rw [o.ordered, Sweep.ordered]
  by_cases hinterleave : args.interleave = true
  · have hproduct := (hnumbers.product hplans).map Prod.swap_injective
    rw [if_pos hinterleave]
    convert hproduct using 1
    simp only [SProd.sprod, List.product, List.map_flatMap, List.map_map]
    rfl
  · have hproduct := hplans.product hnumbers
    rw [if_neg hinterleave]
    convert hproduct using 1
    simp only [SProd.sprod, List.product, List.map_flatMap, List.flatMap_map, List.map_map]
    rfl

end Tvc.Sweep
