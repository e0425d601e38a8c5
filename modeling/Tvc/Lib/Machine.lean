import Mathlib.Data.List.Basic

/-!
# Runs of a deterministic machine with outputs

A machine answers each input with an output and a next state. A run collects the outputs.
Invariants and agreements of single steps lift to runs, and inputs that a machine answers
silently, leaving everything it looks at unchanged, can be deleted from a run.
-/

namespace Machine

variable {S I O : Type*}

/-- The state a machine ends in and the outputs it gave, in order. -/
def run (step : S → I → S × O) : S → List I → S × List O
  | s, [] => (s, [])
  | s, input :: rest =>
    ((run step (step s input).1 rest).1, (step s input).2 :: (run step (step s input).1 rest).2)

@[simp] theorem run_nil (step : S → I → S × O) (s : S) : run step s [] = (s, []) := rfl

@[simp] theorem run_cons (step : S → I → S × O) (s : S) (input : I) (rest : List I) :
    run step s (input :: rest) =
      ((run step (step s input).1 rest).1, (step s input).2 :: (run step (step s input).1 rest).2) :=
  rfl

/-- A run over a concatenation continues where the first part ended. -/
theorem run_append (step : S → I → S × O) (s : S) (first second : List I) :
    run step s (first ++ second) =
      ((run step (run step s first).1 second).1,
        (run step s first).2 ++ (run step (run step s first).1 second).2) := by
  induction first generalizing s with
  | nil => rfl
  | cons input rest ih => simp [ih]

/-- A machine gives one output for each input. -/
@[simp] theorem run_length (step : S → I → S × O) (s : S) (inputs : List I) :
    (run step s inputs).2.length = inputs.length := by
  induction inputs generalizing s with
  | nil => rfl
  | cons input rest ih => simp [ih]

/-- A property kept by every step holds at the end of every run. -/
theorem run_invariant {step : S → I → S × O} {P : S → Prop}
    (hstep : ∀ s input, P s → P (step s input).1) {s : S} (h : P s) (inputs : List I) :
    P (run step s inputs).1 := by
  induction inputs generalizing s with
  | nil => exact h
  | cons input rest ih => exact ih (hstep s input h)

/-- Two machines that agree on every state with a kept property agree on every run. -/
theorem run_congr {step step' : S → I → S × O} {P : S → Prop}
    (hstep : ∀ s input, P s → P (step s input).1)
    (hagree : ∀ s input, P s → step' s input = step s input) {s : S} (h : P s) (inputs : List I) :
    run step' s inputs = run step s inputs := by
  induction inputs generalizing s with
  | nil => rfl
  | cons input rest ih => rw [run_cons, run_cons, hagree s input h, ih (hstep s input h)]

/-- The inputs of a run that are not answered silently. -/
def kept (step : S → I → S × O) (silent : O → Bool) : S → List I → List I
  | _, [] => []
  | s, input :: rest =>
    if silent (step s input).2 then kept step silent (step s input).1 rest
    else input :: kept step silent (step s input).1 rest

section Silent

variable {V : Type*} {step : S → I → S × O} {view : S → V} {silent : O → Bool}

/-- States with one view run alike. -/
theorem run_view_congr
    (hview : ∀ s t input, view s = view t →
      view (step s input).1 = view (step t input).1 ∧ (step s input).2 = (step t input).2)
    {s t : S} (h : view s = view t) (inputs : List I) :
    view (run step s inputs).1 = view (run step t inputs).1 ∧
      (run step s inputs).2 = (run step t inputs).2 := by
  induction inputs generalizing s t with
  | nil => exact ⟨h, rfl⟩
  | cons input rest ih =>
    obtain ⟨hnext, houtput⟩ := hview s t input h
    obtain ⟨hlast, houtputs⟩ := ih hnext
    exact ⟨hlast, by rw [run_cons, run_cons, houtput, houtputs]⟩

/-- Deleting the inputs that are answered silently changes neither the view at the end of the
run nor any other output. -/
theorem run_kept
    (hview : ∀ s t input, view s = view t →
      view (step s input).1 = view (step t input).1 ∧ (step s input).2 = (step t input).2)
    (hsilent : ∀ s input, silent (step s input).2 = true → view (step s input).1 = view s)
    (s : S) (inputs : List I) :
    view (run step s inputs).1 = view (run step s (kept step silent s inputs)).1 ∧
      (run step s inputs).2.filter (fun output => !silent output) =
        (run step s (kept step silent s inputs)).2 := by
  induction inputs generalizing s with
  | nil => exact ⟨rfl, rfl⟩
  | cons input rest ih =>
    obtain ⟨hlast, houtputs⟩ := ih (step s input).1
    cases hanswer : silent (step s input).2 with
    | true =>
      obtain ⟨hsame, hsameOutputs⟩ := run_view_congr hview (hsilent s input hanswer)
        (kept step silent (step s input).1 rest)
      simp only [run_cons, kept, hanswer, if_true, List.filter_cons, Bool.not_true,
        Bool.false_eq_true, if_false]
      exact ⟨hlast.trans hsame, houtputs.trans hsameOutputs⟩
    | false =>
      simp only [run_cons, kept, hanswer, Bool.false_eq_true, if_false, List.filter_cons,
        Bool.not_false, if_true]
      exact ⟨hlast, by rw [houtputs]⟩

end Silent

section Reorder

variable {step : S → I → S} {r : S → S → Prop} {R : I → I → Prop}

/-- A step that respects a relation takes related states to related states over a whole list. -/
theorem foldl_congr (hcongr : ∀ s t input, r s t → r (step s input) (step t input)) {s t : S}
    (h : r s t) (inputs : List I) : r (inputs.foldl step s) (inputs.foldl step t) := by
  induction inputs generalizing s t with
  | nil => exact h
  | cons input rest ih => exact ih (hcongr s t input h)

/-- Inputs that commute up to a relation the step respects may be taken in any order. -/
theorem foldl_perm (hrefl : ∀ s, r s s) (htrans : ∀ s t u, r s t → r t u → r s u)
    (hcongr : ∀ s t input, r s t → r (step s input) (step t input))
    (hcomm : ∀ s i j, R i j → r (step (step s i) j) (step (step s j) i)) (hsymm : ∀ i j, R i j → R j i)
    {inputs inputs' : List I} (h : inputs.Perm inputs') (hpairwise : inputs.Pairwise R) (s : S) :
    r (inputs.foldl step s) (inputs'.foldl step s) := by
  induction h generalizing s with
  | nil => exact hrefl s
  | cons input _ ih => exact ih (List.pairwise_cons.mp hpairwise).2 (step s input)
  | swap i j rest =>
    have hij : R j i := (List.pairwise_cons.mp hpairwise).1 i (by simp)
    exact foldl_congr hcongr (hcomm s j i hij) rest
  | trans hfirst _ ih ih' =>
    have hmiddle := (hfirst.pairwise_iff fun {i j} hij => hsymm i j hij).mp hpairwise
    exact htrans _ _ _ (ih hpairwise s) (ih' hmiddle s)

end Reorder

end Machine
