import Mathlib.Data.List.Basic

/-!
# Sequences that lose elements

A sequence is offered element by element and each offer is accepted or refused. What is kept carries the
number of refusals before it, so that the place of a kept element among the kept ones and its number tell
its place in the sequence: nothing is missing that the numbers do not tell.
-/

namespace Thinning

variable {α : Type*}

/-- What is kept of the offers answered so far, each with the refusals before it. -/
def kept (refused : ℕ) : List α → List Bool → List (α × ℕ)
  | a :: offers, true :: answers => (a, refused) :: kept refused offers answers
  | _ :: offers, false :: answers => kept (refused + 1) offers answers
  | _, _ => []

/-- Before the first answer nothing is kept. -/
@[simp] theorem kept_nil (refused : ℕ) (offers : List α) : kept refused offers [] = [] := by
  cases offers <;> rfl

/-- One more answer keeps the next offer or refuses it. -/
theorem kept_concat {refused : ℕ} {offers : List α} {answers : List Bool} {a : α}
    (h : offers[answers.length]? = some a) (answer : Bool) :
    kept refused offers (answers ++ [answer]) =
      kept refused offers answers ++ if answer then [(a, refused + answers.count false)] else [] := by
  induction answers generalizing refused offers with
  | nil =>
    cases offers with
    | nil => nomatch h
    | cons b offers =>
      obtain rfl : b = a := Option.some.inj h
      cases answer <;> simp [kept]
  | cons first answers ih =>
    cases offers with
    | nil => nomatch h
    | cons b offers =>
      have htail : offers[answers.length]? = some a := h
      cases first with
      | true => simp [kept, ih htail]
      | false =>
        have hcount : refused + 1 + answers.count false = refused + (false :: answers).count false := by
          rw [List.count_cons_self]
          omega
        rw [List.cons_append, kept, kept, ih htail, hcount]

/-- As many are kept as were accepted. -/
theorem kept_length {refused : ℕ} {offers : List α} {answers : List Bool} (h : answers.length ≤ offers.length) :
    (kept refused offers answers).length = answers.count true := by
  induction answers generalizing refused offers with
  | nil => simp
  | cons first answers ih =>
    cases offers with
    | nil => nomatch h
    | cons b offers =>
      have hrest : answers.length ≤ offers.length := Nat.le_of_succ_le_succ h
      cases first <;> simp [kept, ih hrest]

/-- The refusals before a kept element are at least those before the first offer. -/
theorem kept_low {refused : ℕ} {offers : List α} {answers : List Bool} {x : α × ℕ} (h : x ∈ kept refused offers answers) :
    refused ≤ x.2 := by
  induction answers generalizing refused offers with
  | nil => simp at h
  | cons first answers ih =>
    cases offers with
    | nil => nomatch h
    | cons b offers =>
      cases first with
      | true =>
        rcases List.mem_cons.mp h with rfl | hrest
        · exact Nat.le_refl refused
        · exact ih hrest
      | false => exact Nat.le_trans (Nat.le_succ refused) (ih h)

/-- A kept element stood in the sequence at its place among the kept ones, moved by the refusals before it. -/
theorem kept_getElem? {refused k e : ℕ} {offers : List α} {answers : List Bool} {a : α}
    (h : (kept refused offers answers)[k]? = some (a, refused + e)) :
    offers[k + e]? = some a ∧ answers[k + e]? = some true ∧ (answers.take (k + e)).count false = e := by
  induction answers generalizing refused offers k e with
  | nil => simp at h
  | cons first answers ih =>
    cases offers with
    | nil => nomatch h
    | cons b offers =>
      cases first with
      | true =>
        cases k with
        | zero =>
          obtain ⟨rfl, he⟩ : b = a ∧ refused = refused + e := by simpa [kept] using h
          obtain rfl : e = 0 := by omega
          simp
        | succ k =>
          obtain ⟨hoffer, hanswer, hcount⟩ := ih (k := k) h
          rw [show k + 1 + e = k + e + 1 by omega]
          exact ⟨hoffer, hanswer, by rw [List.take_succ_cons, List.count_cons_of_ne (by decide), hcount]⟩
      | false =>
        have hkept : (kept (refused + 1) offers answers)[k]? = some (a, refused + e) := h
        have hlater : refused + 1 ≤ refused + e := kept_low (List.mem_of_getElem? hkept)
        obtain ⟨e, rfl⟩ : ∃ e', e = e' + 1 := ⟨e - 1, by omega⟩
        rw [← Nat.add_assoc, Nat.add_right_comm] at hkept
        obtain ⟨hoffer, hanswer, hcount⟩ := ih hkept
        exact ⟨hoffer, hanswer, by rw [← Nat.add_assoc, List.take_succ_cons, List.count_cons_self, hcount]⟩

/-- When every offer was accepted, all are kept. -/
theorem kept_of_accepted {refused : ℕ} {offers : List α} {answers : List Bool} (h : answers.length = offers.length)
    (hnone : answers.count false = 0) : kept refused offers answers = offers.map (·, refused) := by
  induction answers generalizing offers with
  | nil => rw [List.eq_nil_of_length_eq_zero h.symm]; rfl
  | cons first answers ih =>
    cases offers with
    | nil => nomatch h
    | cons a offers =>
      cases first with
      | true =>
        rw [List.count_cons_of_ne (by decide)] at hnone
        rw [kept, ih (Nat.succ.inj h) hnone, List.map_cons]
      | false => simp at hnone

end Thinning
