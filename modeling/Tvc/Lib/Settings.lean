import Mathlib.Data.List.Forall2

/-!
# Settings in any order

A state is put together from values, one after another. Where two values disturb each other in no order, and where
putting a value twice is putting it once, the outcome depends on which values are put, not on their order.
-/

namespace Settings

universe u v w

variable {σ : Type u} {α : Type v}

/-- The values of a list disturb each other in no order, and each of them is put once or twice alike. -/
structure Consistent (put : σ → α → σ) (l : List α) : Prop where
  comm : ∀ a ∈ l, ∀ b ∈ l, ∀ s, put (put s a) b = put (put s b) a
  idem : ∀ a ∈ l, ∀ s, put (put s a) a = put s a

variable {put : σ → α → σ} {l l' : List α}

/-- Fewer values are consistent as well. -/
theorem Consistent.subset (h : Consistent put l) (hsub : ∀ a ∈ l', a ∈ l) : Consistent put l' where
  comm := fun a ha b hb => h.comm a (hsub a ha) b (hsub b hb)
  idem := fun a ha => h.idem a (hsub a ha)

/-- A value goes past a list of values. -/
theorem Consistent.foldl_put (h : Consistent put l) {a : α} (ha : a ∈ l) (hsub : ∀ b ∈ l', b ∈ l) (s : σ) :
    l'.foldl put (put s a) = put (l'.foldl put s) a := by
  induction l' generalizing s with
  | nil => rfl
  | cons b rest ih =>
    rw [List.foldl_cons, List.foldl_cons, h.comm a ha b (hsub b List.mem_cons_self)]
    exact ih (fun c hc => hsub c (List.mem_cons_of_mem _ hc)) (put s b)

/-- A value that has been put changes nothing. -/
theorem Consistent.put_foldl (h : Consistent put l) {a : α} (ha : a ∈ l') (hsub : ∀ b ∈ l', b ∈ l) (s : σ) :
    put (l'.foldl put s) a = l'.foldl put s := by
  induction l' generalizing s with
  | nil => exact absurd ha List.not_mem_nil
  | cons b rest ih =>
    have hrest : ∀ c ∈ rest, c ∈ l := fun c hc => hsub c (List.mem_cons_of_mem _ hc)
    rw [List.foldl_cons]
    rcases List.mem_cons.mp ha with rfl | hmem
    · have hl := hsub a List.mem_cons_self
      rw [← h.foldl_put hl hrest, h.idem a hl]
    · exact ih hmem hrest (put s b)

/-- Values that have been put change nothing. -/
theorem Consistent.foldl_foldl (h : Consistent put l) (hsub : ∀ a ∈ l', a ∈ l) (s : σ) :
    l'.foldl put (l.foldl put s) = l.foldl put s := by
  induction l' with
  | nil => rfl
  | cons b rest ih =>
    rw [List.foldl_cons, h.put_foldl (hsub b List.mem_cons_self) fun _ hb => hb]
    exact ih fun c hc => hsub c (List.mem_cons_of_mem _ hc)

/-- The outcome depends on which values are put. -/
theorem Consistent.foldl_eq (h : Consistent put l) (hmem : ∀ a, a ∈ l ↔ a ∈ l') (s : σ) :
    l.foldl put s = l'.foldl put s := by
  have h' : Consistent put l' := h.subset fun a ha => (hmem a).mpr ha
  have hswap (m : List α) (hm : ∀ a ∈ m, a ∈ l) : m.foldl put (l'.foldl put s) = l'.foldl put (m.foldl put s) := by
    induction m generalizing s with
    | nil => rfl
    | cons a rest ih =>
      have ha := hm a List.mem_cons_self
      rw [List.foldl_cons, List.foldl_cons, ← h.foldl_put ha (fun b hb => (hmem b).mpr hb)]
      exact ih (put s a) fun b hb => hm b (List.mem_cons_of_mem _ hb)
  calc
    l.foldl put s = l'.foldl put (l.foldl put s) := (h.foldl_foldl (fun a ha => (hmem a).mpr ha) s).symm
    _ = l.foldl put (l'.foldl put s) := (hswap l fun _ ha => ha).symm
    _ = l'.foldl put s := h'.foldl_foldl (fun a ha => (hmem a).mp ha) s

/-- Values that are read one after another, each put at once, are read all and then put. -/
theorem foldlM_eq_map {ε : Type w} {β : Type v} (read : β → Except ε α) (put : σ → α → σ) (s : σ) (xs : List β) :
    xs.foldlM (fun s x => (read x).map (put s)) s = (xs.mapM read).map fun values => values.foldl put s := by
  induction xs generalizing s with
  | nil => rfl
  | cons x rest ih =>
    rw [List.foldlM_cons, List.mapM_cons]
    cases hx : read x with
    | error e => rfl
    | ok a =>
      change rest.foldlM (fun s x => (read x).map (put s)) (put s a) = _
      rw [ih]
      cases hrest : rest.mapM read with
      | error e => rfl
      | ok values => rfl

/-- Values are read if each one is. -/
theorem mapM_eq_ok_iff {ε : Type w} {β : Type v} {read : β → Except ε α} {xs : List β} {values : List α} :
    xs.mapM read = .ok values ↔ List.Forall₂ (fun x a => read x = .ok a) xs values := by
  induction xs generalizing values with
  | nil =>
    rw [List.mapM_nil, List.forall₂_nil_left_iff]
    exact ⟨fun h => (Except.ok.inj h).symm, fun h => congrArg Except.ok h.symm⟩
  | cons x rest ih =>
    rw [List.mapM_cons]
    constructor
    · intro h
      cases hx : read x with
      | error e =>
        rw [hx] at h
        cases h
      | ok a =>
        cases hrest : rest.mapM read with
        | error e =>
          rw [hx, hrest] at h
          cases h
        | ok others =>
          rw [hx, hrest] at h
          cases h
          exact .cons hx (ih.mp hrest)
    · intro h
      cases h with
      | cons hx hrest =>
        rw [hx, ih.mpr hrest]
        rfl

/-- Lists with the same members are read together, and to the same members. -/
theorem mapM_of_same_members {ε : Type w} {β : Type v} {read : β → Except ε α} {xs ys : List β} {values : List α}
    (hread : xs.mapM read = .ok values) (hmem : ∀ y, y ∈ ys ↔ y ∈ xs) :
    ∃ others, ys.mapM read = .ok others ∧ ∀ a, a ∈ others ↔ a ∈ values := by
  have hmembers {zs : List β} {read' : List α} (h : List.Forall₂ (fun x a => read x = .ok a) zs read') (a : α) :
      a ∈ read' ↔ ∃ z ∈ zs, read z = .ok a := by
    induction h with
    | nil => exact ⟨fun h => absurd h List.not_mem_nil, fun ⟨_, h, _⟩ => absurd h List.not_mem_nil⟩
    | cons hz _ ih =>
      rw [List.mem_cons, ih, List.exists_mem_cons_iff, hz, Except.ok.injEq]
      exact or_congr_left eq_comm
  have hvalues := mapM_eq_ok_iff.mp hread
  obtain ⟨others, hothers⟩ : ∃ others, List.Forall₂ (fun x a => read x = .ok a) ys others := by
    have hsome : ∀ y ∈ ys, ∃ a, read y = .ok a := fun y hy => by
      obtain ⟨i, hi, rfl⟩ := List.mem_iff_getElem.mp ((hmem y).mp hy)
      exact ⟨_, hvalues.get hi (hvalues.length_eq ▸ hi)⟩
    clear hmem
    induction ys with
    | nil => exact ⟨[], .nil⟩
    | cons y rest ih =>
      obtain ⟨a, ha⟩ := hsome y List.mem_cons_self
      obtain ⟨others, hothers⟩ := ih fun z hz => hsome z (List.mem_cons_of_mem _ hz)
      exact ⟨a :: others, .cons ha hothers⟩
  refine ⟨others, mapM_eq_ok_iff.mpr hothers, fun a => ?_⟩
  rw [hmembers hothers, hmembers hvalues]
  exact exists_congr fun y => and_congr_left fun _ => hmem y

end Settings
