import Tvc.Sweep.Planned

/-!
# The labels of a campaign

A run writes its files under its label, and `run_row` refuses to start where a file of that label exists. The labels
of a campaign keep its runs apart: no file of one of them is in the way of another.
-/

namespace Tvc.Sweep

open Harness (Text text)

attribute [local instance] ieee

/-- `outdir.glob(label + '.*')` finds something. -/
def taken (label : Text) (names : List Text) : Bool := names.any fun name => (label ++ ['.']).isPrefixOf name

/-- The parts of a label. -/
def Run.parts (run : Run) (grid : Bool) (repeats : ℤ) : List Text :=
  run.level :: (if grid then [text "phase" ++ cpuText run.phaseUs] else []) ++
    (if 1 < repeats then [text "r" ++ Text.decimal run.number] else [])

variable {int : Text → Option ℤ} {args : Args} {runs : List Run} {run other : Run} {phases : List ℤ} {k l : ℕ}

/-- A label is made of its parts. -/
theorem Run.Planned.label_parts (h : run.Planned args phases k) :
    run.label ++ ['.'] = Text.terminated '.' (run.parts (isGrid phases) args.repeats) := by
  rw [h.label, Run.parts, Text.terminated]
  cases isGrid phases <;> by_cases hrepeats : 1 < args.repeats <;> simp [hrepeats] <;> rfl

/-- The number of the parts is that of the campaign. -/
theorem Run.parts_length (run other : Run) (grid : Bool) (repeats : ℤ) :
    (run.parts grid repeats).length = (other.parts grid repeats).length := by
  simp only [Run.parts, List.length_append, List.length_cons]
  split <;> split <;> rfl

/-- A number has no dot in it. -/
theorem not_mem_decimal {n : ℕ} : '.' ∉ Text.decimal n := fun h => absurd (Text.isDigit_decimal h) (by decide)

/-- The phases of a grid have no dot in them. -/
theorem Run.Planned.not_mem_phase (h : run.Planned args phases k) (hgrid : isGrid phases = true) :
    '.' ∉ cpuText run.phaseUs := by
  obtain ⟨hk, hphases⟩ := h.grid hgrid
  obtain ⟨phase, hmem, hphase, _⟩ := h.phase hk
  have hall : ∀ phase ∈ ([200, 400, 800] : List ℤ), '.' ∉ cpuText (some phase) := by decide
  rw [hphase]
  exact hall phase (hphases ▸ hmem)

/-- No part of a label has a dot in it. -/
theorem Run.Planned.not_mem_parts (h : run.Planned args phases k) :
    ∀ part ∈ run.parts (isGrid phases) args.repeats, '.' ∉ part := by
  have hlevel : '.' ∉ run.level := by
    rw [h.level, levelText, List.mem_cons, not_or]
    exact ⟨by decide, not_mem_decimal⟩
  have hphase (hgrid : isGrid phases = true) : '.' ∉ text "phase" ++ cpuText run.phaseUs := by
    rw [List.mem_append, not_or]
    exact ⟨by decide, h.not_mem_phase hgrid⟩
  have hnumber : '.' ∉ text "r" ++ Text.decimal run.number := by
    rw [List.mem_append, not_or]
    exact ⟨by decide, not_mem_decimal⟩
  intro part hpart
  rw [Run.parts, List.cons_append] at hpart
  rcases List.mem_cons.mp hpart with rfl | hpart
  · exact hlevel
  · rcases List.mem_append.mp hpart with hpart | hpart
    · cases hgrid : isGrid phases with
      | false =>
        rw [hgrid] at hpart
        exact absurd hpart List.not_mem_nil
      | true =>
        rw [hgrid] at hpart
        rw [List.mem_singleton.mp hpart]
        exact hphase hgrid
    · by_cases hrepeats : 1 < args.repeats
      · rw [if_pos hrepeats] at hpart
        rw [List.mem_singleton.mp hpart]
        exact hnumber
      · rw [if_neg hrepeats] at hpart
        exact absurd hpart List.not_mem_nil

/-- Levels are told by their labels. -/
theorem levelText_injective : Function.Injective levelText := fun _ _ h => Text.decimal_injective (List.cons.inj h).2

/-- The level, the phase and the number of a run are read off the parts of its label. -/
theorem Run.Planned.parts_inj (h : run.Planned args phases k) (h' : other.Planned args phases l)
    (hparts : run.parts (isGrid phases) args.repeats = other.parts (isGrid phases) args.repeats) :
    ((run.level, run.phaseUs), run.number) = ((other.level, other.phaseUs), other.number) := by
  rw [Run.parts, Run.parts, List.cons_append, List.cons_append] at hparts
  obtain ⟨hlevel, hparts⟩ := List.cons.inj hparts
  obtain ⟨hgrid, hrepeats⟩ := List.append_inj hparts (by split <;> rfl)
  have hkl : k = l := levelText_injective (h.level.symm.trans (hlevel.trans h'.level))
  have hphase : run.phaseUs = other.phaseUs := by
    by_cases hk : k = 8
    · obtain ⟨phase, hmem, hphase, hpos, _⟩ := h.phase hk
      obtain ⟨phase', hmem', hphase', hpos', _⟩ := h'.phase (hkl ▸ hk)
      rw [hphase, hphase']
      cases hlong : isGrid phases with
      | true =>
        rw [hlong, if_pos rfl, if_pos rfl, hphase, hphase'] at hgrid
        have htext := List.append_cancel_left (List.singleton_inj.mp hgrid)
        have hall : ∀ p ∈ ([200, 400, 800] : List ℤ), ∀ q ∈ ([200, 400, 800] : List ℤ),
            cpuText (some p) = cpuText (some q) → p = q := by decide
        rw [hall phase ((h.grid hlong).2 ▸ hmem) phase' ((h.grid hlong).2 ▸ hmem') htext]
      | false =>
        have hshort : phases.length ≤ 1 := Nat.le_of_not_lt (of_decide_eq_false hlong)
        obtain ⟨i, hi, rfl⟩ := List.mem_iff_getElem.mp hmem
        obtain ⟨j, hj, rfl⟩ := List.mem_iff_getElem.mp hmem'
        obtain rfl : i = j := by omega
        rfl
    · rw [h.noPhase hk, h'.noPhase (hkl ▸ hk)]
  have hnumber : run.number = other.number := by
    by_cases hmany : 1 < args.repeats
    · rw [if_pos hmany, if_pos hmany] at hrepeats
      exact Text.decimal_injective (List.append_cancel_left (List.singleton_inj.mp hrepeats))
    · have hone := h.number
      have hone' := h'.number
      omega
  rw [hlevel, hphase, hnumber]

/-- Runs whose files could be taken for each other's are the same run. -/
theorem Run.Planned.eq_of_isPrefix (h : run.Planned args phases k) (h' : other.Planned args phases l) {rest : Text}
    (hstarts : (run.label ++ ['.']) <+: (other.label ++ '.' :: rest)) :
    ((run.level, run.phaseUs), run.number) = ((other.level, other.phaseUs), other.number) := by
  have hterminated : Text.terminated '.' (run.parts (isGrid phases) args.repeats) <+:
      Text.terminated '.' (other.parts (isGrid phases) args.repeats) ++ rest := by
    rw [← h.label_parts, ← h'.label_parts, List.append_assoc]
    exact hstarts
  exact h.parts_inj h' (Text.terminated_isPrefix (Run.parts_length _ _ _ _) h.not_mem_parts h'.not_mem_parts hterminated)

/-- No run of a campaign finds its label taken by the roster or by another run. -/
theorem planned_untaken {int : Text → Option ℤ} {args : Args} {planned : List Run × Option String}
    (h : planRuns int args = .ok planned) {before after : List Run} {run : Run} (hruns : planned.1 = before ++ run :: after)
    {names : List Text} (hnames : ∀ name ∈ names, name = text "sweep.json" ∨
      ∃ other ∈ before ++ after, ∃ rest, name = other.label ++ '.' :: rest) :
    taken run.label names = false := by
  obtain ⟨o⟩ := planRuns_outcome h
  have hrun : run ∈ planned.1 := hruns ▸ List.mem_append_right _ List.mem_cons_self
  obtain ⟨k, hk⟩ := o.planned hrun
  refine List.any_eq_false.mpr fun name hname htaken => ?_
  have hstarts := List.isPrefixOf_iff_prefix.mp htaken
  rcases hnames name hname with rfl | ⟨other, hother, rest, rfl⟩
  · -- a label starts with an L
    rw [hk.label, hk.level, levelText] at hstarts
    obtain ⟨rest, hrest⟩ := hstarts
    exact absurd (List.cons.inj hrest).1 (by decide)
  · have hmem : other ∈ planned.1 := by
      rw [hruns]
      rcases List.mem_append.mp hother with hbefore | hafter
      · exact List.mem_append_left _ hbefore
      · exact List.mem_append_right _ (List.mem_cons_of_mem _ hafter)
    obtain ⟨l, hl⟩ := o.planned hmem
    have hsame := hk.eq_of_isPrefix hl hstarts
    have hnodup := o.nodup
    rw [hruns, List.map_append, List.map_cons] at hnodup
    have hfresh := (List.nodup_middle.mp hnodup).notMem
    rw [← List.map_append] at hfresh
    refine hfresh ?_
    rw [hsame]
    exact List.mem_map_of_mem (f := fun run : Run => ((run.level, run.phaseUs), run.number)) hother

/-- A campaign of L8 alone. -/
def trialArgs (repeats : ℤ) : Args where
  cycles := 1000
  warmup := 0
  repeats
  rate := 500.0
  cpu := some 3
  only := [text "L8"]
  phaseUs := text "400"
  peerCpu := none
  interleave := false

/-- `int` on digits. -/
def trialInt (s : Text) : Option ℤ := (Text.digits s).map (↑·)

/-- A run of the campaign. -/
def trialRun (number : ℕ) (label : Text) : Run where
  level := text "L8"
  description := "+ sensor and actuator sockets, PID, episode machine"
  flags := [text "--abs-deadline", text "--mlock", text "--fifo=80", text "--cpu=3", text "--no-naive-log",
    text "--alloc-guard=abort", text "--telemetry", text "--telemetry", text "--record=control", text "--mode=freerun",
    text "--auto-arm", text "--telemetry", text "--record=control"]
  phaseUs := some 400
  cycles := 1000
  warmup := 0
  rate := 500.0
  peerCpu := none
  number
  label

/-- The second of two runs does not find its label taken by the first. -/
theorem planned_untaken_trial : taken (text "L8.r2") [text "sweep.json", text "L8.r1.summary.json"] = false := by
  have hplan : planRuns trialInt (trialArgs 2) = .ok ([trialRun 1 (text "L8.r1"), trialRun 2 (text "L8.r2")], none) := by
    decide +kernel
  refine @planned_untaken trialInt (trialArgs 2) _ hplan [trialRun 1 (text "L8.r1")] [] (trialRun 2 (text "L8.r2")) rfl _ ?_
  intro name hname
  rcases List.mem_cons.mp hname with rfl | hname
  · exact .inl rfl
  · exact .inr ⟨_, List.mem_cons_self, text "summary.json", List.mem_singleton.mp hname⟩

end Tvc.Sweep
