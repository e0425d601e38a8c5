import Mathlib.Data.List.Infix

/-!
# Bounded queues that drop the newest element

What a queue of bounded capacity is for, told by the calls that return: an element is pushed while
there is room and dropped when there is none, and batches are popped in the order of the pushes.
-/

namespace BoundedQueue

/-- A call that returns. -/
inductive Event (α : Type*)
  | pushed (a : α)
  | dropped (a : α)
  | popped (batch : List α)

/-- What the calls so far have done. -/
structure Queue (α : Type*) where
  pushed : List α := []
  batches : List (List α) := []
  failures : ℕ := 0

variable {α : Type*} {capacity : ℕ} {q : Queue α}

namespace Queue

/-- The elements popped so far. -/
def popped (q : Queue α) : List α := q.batches.flatten

/-- What has been done after one more event, if there is one. -/
def after (q : Queue α) : Option (Event α) → Queue α
  | none => q
  | some (.pushed a) => { q with pushed := q.pushed ++ [a] }
  | some (.dropped _) => { q with failures := q.failures + 1 }
  | some (.popped batch) => { q with batches := q.batches ++ [batch] }

/-- The events a queue allows. -/
inductive Allows (capacity : ℕ) (q : Queue α) : Option (Event α) → Prop
  | silent : Allows capacity q none
  | push (a : α) (hroom : q.pushed.length < q.popped.length + capacity) : Allows capacity q (some (.pushed a))
  | drop (a : α) (hfull : q.pushed.length = q.popped.length + capacity) : Allows capacity q (some (.dropped a))
  | pop {batch : List α} (hnext : q.popped ++ batch <+: q.pushed) : Allows capacity q (some (.popped batch))

/-- Elements are popped in the order of the pushes, and no more than the capacity wait. -/
structure Orderly (capacity : ℕ) (q : Queue α) : Prop where
  order : q.popped <+: q.pushed
  bound : q.pushed.length ≤ q.popped.length + capacity

/-- The elements popped after one more batch. -/
@[simp] theorem popped_after_popped (q : Queue α) (batch : List α) :
    (q.after (some (.popped batch))).popped = q.popped ++ batch := by
  simp [popped, after]

/-- An allowed event keeps a queue orderly. -/
theorem Orderly.after (h : Orderly capacity q) {event : Option (Event α)} (hallows : Allows capacity q event) :
    Orderly capacity (q.after event) := by
  cases hallows with
  | silent => exact h
  | push a hroom =>
    refine ⟨h.order.trans (List.prefix_append _ _), ?_⟩
    have hlength : (q.after (some (.pushed a))).pushed.length = q.pushed.length + 1 := List.length_append
    rw [hlength]
    exact hroom
  | drop => exact ⟨h.order, h.bound⟩
  | pop hnext =>
    refine ⟨by rwa [popped_after_popped], ?_⟩
    rw [popped_after_popped, List.length_append]
    exact h.bound.trans (by omega)

end Queue

/-- What a sequence of events has done. -/
def history (events : List (Option (Event α))) : Queue α := events.foldl Queue.after {}

/-- What one more event has done. -/
theorem history_concat (events : List (Option (Event α))) (event : Option (Event α)) :
    history (events ++ [event]) = (history events).after event := by
  rw [history, List.foldl_append]
  rfl

end BoundedQueue
