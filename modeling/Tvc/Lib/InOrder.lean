import Mathlib.Data.List.Basic

/-!
# Queues that lose nothing

What has been taken out of a queue is the first part of what was put in, and the rest waits in it. So each element is
counted once, among the taken or among the waiting.
-/

namespace InOrder

variable {α : Type*} {sent taken more : List α}

/-- What was put in and not yet taken. -/
def waiting (sent taken : List α) : List α := sent.drop taken.length

/-- What waits was put in. -/
theorem mem_of_mem_waiting {a : α} (h : a ∈ waiting sent taken) : a ∈ sent := List.mem_of_mem_drop h

/-- The taken and the waiting are all that was put in. -/
theorem append_waiting (h : taken <+: sent) : taken ++ waiting sent taken = sent := by
  obtain ⟨rest, rfl⟩ := h
  rw [waiting, List.drop_left]

/-- Taking the first of what waits keeps the order. -/
theorem prefix_take (h : taken <+: sent) (hmore : more <+: waiting sent taken) : taken ++ more <+: sent := by
  obtain ⟨rest, hrest⟩ := hmore
  exact ⟨rest, by rw [List.append_assoc, hrest, append_waiting h]⟩

/-- Putting more in keeps the order. -/
theorem prefix_put (h : taken <+: sent) (more : List α) : taken <+: sent ++ more :=
  h.trans (List.prefix_append sent more)

/-- Each element is counted among the taken or among the waiting. -/
theorem countP_put (p : α → Bool) (h : taken <+: sent) :
    sent.countP p = taken.countP p + (waiting sent taken).countP p := by
  rw [← List.countP_append, append_waiting h]

end InOrder
