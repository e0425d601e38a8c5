import Mathlib.Data.List.Basic
import Mathlib.Data.List.Sort
import Mathlib.Order.Basic

/-!
# Finding a subsequence in an ordered list

In a list whose keys increase, a subsequence is found in one pass from the left. Its next element is not below
the next element of the list; if their keys agree it is that element, and if they do not it stands later. The
elements that are passed over lie before the first match, between two matches, or after the last one.
-/

namespace GreedyMatch

variable {α β : Type*}

/-- The keys of the list increase. -/
def Ordered [LT β] (key : α → β) (l : List α) : Prop := l.Pairwise fun a b => key a < key b

section Order

variable [Preorder β] {key : α → β} {v g : α} {rest gs l : List α}

/-- One more element is above all that were there. -/
theorem ordered_concat : Ordered key (l ++ [v]) ↔ Ordered key l ∧ ∀ a ∈ l, key a < key v := by
  simp [Ordered, List.pairwise_append]

/-- The last element of an ordered list is above the others. -/
theorem Ordered.le_last (h : Ordered key (l ++ [v])) : ∀ a ∈ l ++ [v], key a ≤ key v := by
  intro a ha
  rcases List.mem_append.mp ha with ha | ha
  · exact ((ordered_concat.mp h).2 a ha).le
  · rw [List.mem_singleton.mp ha]

/-- What is above the last element of an ordered list is above all of them. -/
theorem Ordered.below_iff (h : Ordered key l) {b : β} :
    (∀ p ∈ l.getLast?.map key, p < b) ↔ ∀ a ∈ l, key a < b := by
  rcases List.eq_nil_or_concat l with rfl | ⟨l, last, rfl⟩
  · simp
  · rw [List.concat_eq_append] at h ⊢
    rw [List.getLast?_concat]
    constructor
    · intro hlast a ha
      exact (h.le_last a ha).trans_lt (hlast _ rfl)
    · intro hall p hp
      obtain rfl := Option.some.inj hp
      exact hall last (by simp)

/-- An ordered list has an element once. -/
theorem Ordered.nodup (h : Ordered key l) : l.Nodup := h.imp fun hlt heq => (heq ▸ hlt).false

/-- The elements of an ordered list are told by their keys. -/
theorem Ordered.eq_of_key (h : Ordered key l) {a b : α} (ha : a ∈ l) (hb : b ∈ l) (heq : key a = key b) : a = b := by
  have hkeys : (l.map key).Nodup := List.pairwise_map.mpr (h.imp fun hlt => hlt.ne)
  exact List.inj_on_of_nodup_map hkeys ha hb heq

/-- An ordered list whose elements are in another one is a subsequence of it. -/
theorem Ordered.sublist_of_subset (h : Ordered key l) {l' : List α} (h' : Ordered key l') (hsub : l ⊆ l') : l.Sublist l' := by
  have hanti : Std.Antisymm fun a b : α => key a < key b := ⟨fun _ _ hab hba => absurd (hab.trans hba) (lt_irrefl _)⟩
  exact List.sublist_of_subperm_of_pairwise (List.subperm_of_subset h.nodup hsub) h h'

/-- The next element of a subsequence is not below the next element of the list. -/
theorem Ordered.le_next (h : Ordered key (v :: rest)) (hsub : (g :: gs).Sublist (v :: rest)) : key v ≤ key g := by
  rcases List.mem_cons.mp (hsub.subset List.mem_cons_self) with rfl | hlater
  · exact le_rfl
  · exact (List.rel_of_pairwise_cons h hlater).le

/-- An element with the key of the next one is the next one. -/
theorem Ordered.eq_next (h : Ordered key (v :: rest)) (hsub : (g :: gs).Sublist (v :: rest)) (heq : key g = key v) :
    g = v ∧ gs.Sublist rest := by
  rcases List.mem_cons.mp (hsub.subset List.mem_cons_self) with rfl | hlater
  · exact ⟨rfl, List.cons_sublist_cons.mp hsub⟩
  · have hlt := List.rel_of_pairwise_cons h hlater
    rw [heq] at hlt
    exact absurd hlt (lt_irrefl _)

/-- An element above the next one stands later. -/
theorem skip_next (hsub : (g :: gs).Sublist (v :: rest)) (hlt : key v < key g) : (g :: gs).Sublist rest := by
  cases hsub with
  | cons _ hlater => exact hlater
  | cons_cons _ _ => exact absurd hlt (lt_irrefl _)

end Order

/-- A list as it is seen, with what is matched of it, and how many of the others lie before the first match,
between two matches and after the last one. -/
inductive Losses : (matched seen : List α) → (leading interior trailing : ℕ) → Prop
  | nil : Losses [] [] 0 0 0
  | lost {matched seen : List α} {leading interior trailing : ℕ} (h : Losses matched seen leading interior trailing)
      (v : α) : Losses matched (seen ++ [v]) leading interior (trailing + 1)
  | first {seen : List α} {leading interior trailing : ℕ} (h : Losses [] seen leading interior trailing) (v : α) :
      Losses [v] (seen ++ [v]) trailing interior 0
  | next {matched seen : List α} {leading interior trailing : ℕ} (h : Losses matched seen leading interior trailing)
      (hsome : matched ≠ []) (v : α) : Losses (matched ++ [v]) (seen ++ [v]) leading (interior + trailing) 0

variable {matched seen : List α} {leading interior trailing : ℕ}

/-- What is matched is a subsequence. -/
theorem Losses.sublist (h : Losses matched seen leading interior trailing) : matched.Sublist seen := by
  induction h with
  | nil => exact .slnil
  | lost _ v ih => exact ih.trans (List.sublist_append_left ..)
  | first _ v _ => exact List.sublist_append_right ..
  | next _ _ v ih => exact ih.append (.refl _)

/-- Before the first match, all that was seen is after the last one. -/
theorem Losses.unmatched (h : Losses matched seen leading interior trailing) (hnone : matched = []) :
    leading = 0 ∧ interior = 0 ∧ trailing = seen.length := by
  induction h with
  | nil => exact ⟨rfl, rfl, rfl⟩
  | lost _ v ih =>
    obtain ⟨hleading, hinterior, htrailing⟩ := ih hnone
    exact ⟨hleading, hinterior, by simp [htrailing]⟩
  | first _ v _ => simp at hnone
  | next _ _ v _ => simp at hnone

/-- What is not matched is lost once. -/
theorem Losses.total (h : Losses matched seen leading interior trailing) :
    leading + interior + trailing + matched.length = seen.length := by
  induction h with
  | nil => rfl
  | lost _ v ih =>
    rw [List.length_append, List.length_singleton]
    omega
  | first h v ih =>
    obtain ⟨hleading, hinterior, -⟩ := h.unmatched rfl
    rw [List.length_append, List.length_singleton] at *
    simp only [List.length_nil] at ih
    omega
  | next _ _ v ih =>
    rw [List.length_append, List.length_append, List.length_singleton]
    omega

/-- The elements before the first match are the leading ones. -/
theorem Losses.before (h : Losses matched seen leading interior trailing) {g : α} (hg : matched.head? = some g) :
    ∃ before after, seen = before ++ g :: after ∧ before.length = leading := by
  induction h with
  | nil => simp at hg
  | lost _ v ih =>
    obtain ⟨before, after, hseen, hlength⟩ := ih hg
    exact ⟨before, after ++ [v], by simp [hseen], hlength⟩
  | @first seen _ _ _ h v _ =>
    obtain rfl : v = g := Option.some.inj hg
    exact ⟨seen, [], rfl, (h.unmatched rfl).2.2.symm⟩
  | @next matched _ _ _ _ _ hsome v ih =>
    have hfirst : matched.head? = some g := by rwa [List.head?_append_of_ne_nil _ hsome] at hg
    obtain ⟨before, after, hseen, hlength⟩ := ih hfirst
    exact ⟨before, after ++ [v], by simp [hseen], hlength⟩

/-- The elements after the last match are the trailing ones. -/
theorem Losses.after (h : Losses matched seen leading interior trailing) {g : α} (hg : matched.getLast? = some g) :
    ∃ before after, seen = before ++ g :: after ∧ after.length = trailing := by
  induction h with
  | nil => simp at hg
  | lost _ v ih =>
    obtain ⟨before, after, hseen, hlength⟩ := ih hg
    exact ⟨before, after ++ [v], by simp [hseen], by simp [hlength]⟩
  | @first seen _ _ _ _ v _ =>
    obtain rfl : v = g := Option.some.inj hg
    exact ⟨seen, [], rfl, rfl⟩
  | @next _ seen _ _ _ _ _ v _ =>
    obtain rfl : v = g := by simpa using hg
    exact ⟨seen, [], rfl, rfl⟩

end GreedyMatch
