import Mathlib.Data.List.Nodup
import Tvc.Sweep.Roster

/-!
# The options of a command line

What `argv_options` returns has exactly the options of the arguments, with their values; it fails only on an argument
that is no option and on an option with two values.
-/

namespace Tvc.Sweep

open Harness (Text text)

/-- The text of an option. -/
def optionText (o : Text × Option Text) : Text := Text.joined '=' o.1 o.2

/-- An option that an argument can be. -/
structure IsOption (o : Text × Option Text) : Prop where
  key : '=' ∉ o.1
  dashes : (text "--").isPrefixOf o.1 = true
  value : o.2 ≠ some []

/-- An option is read from its text. -/
theorem optionOf_text {o : Text × Option Text} (h : IsOption o) : optionOf (optionText o) = .ok o := by
  have hvalue : (o.2 == some []) = false := beq_eq_false_iff_ne.mpr h.value
  rw [optionOf, optionText, Text.cut_joined h.key, h.dashes, hvalue]
  rfl

/-- An argument that is an option is its text. -/
theorem optionText_of {arg : Text} {o : Text × Option Text} (h : optionOf arg = .ok o) : arg = optionText o := by
  unfold optionOf at h
  dsimp only at h
  split at h
  · cases h
  · cases h
    exact (Text.joined_cut '=' arg).symm

/-- Arguments that are options are their texts. -/
theorem map_optionText {args : List Text} {os : List (Text × Option Text)}
    (h : List.Forall₂ (fun arg o => optionOf arg = .ok o) args os) : args = os.map optionText := by
  induction h with
  | nil => rfl
  | cons ho _ ih => rw [List.map_cons, ← ih, ← optionText_of ho]

/-- Options with one value for each key. -/
def Functional (os : List (Text × Option Text)) : Prop := ∀ o ∈ os, ∀ p ∈ os, o.1 = p.1 → o.2 = p.2

/-- Options with their keys apart, that hold some options and no others. -/
structure Options.Of (options : Options) (os : List (Text × Option Text)) : Prop where
  nodup : (options.map Prod.fst).Nodup
  mem : ∀ o, o ∈ options ↔ o ∈ os

/-- An option is looked up by its key. -/
theorem Options.lookup_eq_some {options : Options} (h : (options.map Prod.fst).Nodup) {o : Text × Option Text} :
    options.lookup o.1 = some o.2 ↔ o ∈ options := by
  induction options with
  | nil => exact ⟨fun h => (by cases h), fun h => absurd h List.not_mem_nil⟩
  | cons p rest ih =>
    obtain ⟨hfresh, hrest⟩ := List.nodup_cons.mp h
    rw [List.lookup_cons, List.mem_cons]
    by_cases hkey : o.1 = p.1
    · rw [beq_iff_eq.mpr hkey]
      constructor
      · exact fun heq => .inl (Prod.ext hkey (Option.some.inj heq).symm)
      · rintro (rfl | hmem)
        · rfl
        · exact absurd (hkey ▸ List.mem_map_of_mem hmem) hfresh
    · rw [beq_eq_false_iff_ne.mpr hkey, ih hrest]
      exact ⟨.inr, fun h => h.resolve_left fun heq => hkey (congrArg Prod.fst heq)⟩

/-- A key without a value is not there. -/
theorem Options.lookup_eq_none {options : Options} {key : Text} :
    options.lookup key = none ↔ ∀ value, (key, value) ∉ options := by
  induction options with
  | nil => exact ⟨fun _ _ => List.not_mem_nil, fun _ => rfl⟩
  | cons p rest ih =>
    rw [List.lookup_cons]
    by_cases hkey : key = p.1
    · rw [beq_iff_eq.mpr hkey]
      have hmem : (key, p.2) ∈ p :: rest := hkey ▸ List.mem_cons_self
      exact ⟨fun h => (by cases h), fun h => absurd hmem (h p.2)⟩
    · rw [beq_eq_false_iff_ne.mpr hkey, ih]
      refine forall_congr' fun value => not_congr ?_
      rw [List.mem_cons]
      exact ⟨.inr, fun h => h.resolve_left fun heq => hkey (congrArg Prod.fst heq)⟩

/-- Options with their keys apart have one value for each key. -/
theorem Options.Of.functional {options : Options} {os : List (Text × Option Text)} (h : options.Of os) :
    Functional os := by
  intro o ho p hp heq
  have hlookup := (Options.lookup_eq_some h.nodup).mpr ((h.mem o).mpr ho)
  rw [heq, (Options.lookup_eq_some h.nodup).mpr ((h.mem p).mpr hp)] at hlookup
  exact (Option.some.inj hlookup).symm

/-- Noting an option adds it, unless it is there. -/
theorem Options.note_eq_ok {options options' : Options} {os : List (Text × Option Text)} {o : Text × Option Text}
    (h : options.Of os) (hnote : options.note o = .ok options') : options'.Of (os ++ [o]) := by
  unfold Options.note at hnote
  cases hlookup : options.lookup o.1 with
  | none =>
    rw [hlookup] at hnote
    cases hnote
    have hfresh : o.1 ∉ options.map Prod.fst := fun hmem => by
      obtain ⟨p, hp, heq⟩ := List.mem_map.mp hmem
      exact Options.lookup_eq_none.mp hlookup p.2 (heq ▸ hp)
    refine ⟨?_, fun p => ?_⟩
    · rw [List.map_append]
      exact List.nodup_append.mpr ⟨h.nodup, List.nodup_singleton _, fun a ha b hb heq => hfresh (by
        rw [← List.mem_singleton.mp hb, ← heq]
        exact ha)⟩
    · rw [List.mem_append, List.mem_append, h.mem]
  | some value =>
    rw [hlookup] at hnote
    by_cases hvalue : value = o.2
    · have hmem : o ∈ options := (Options.lookup_eq_some h.nodup).mp (hvalue ▸ hlookup)
      cases (if_pos hvalue).symm.trans hnote
      refine ⟨h.nodup, fun p => ?_⟩
      rw [List.mem_append, ← h.mem, List.mem_singleton]
      exact ⟨.inl, fun hp => hp.elim id fun heq => heq ▸ hmem⟩
    · cases (if_neg hvalue).symm.trans hnote

/-- An option is noted if the options before it with its key have its value. -/
theorem Options.note_ok {options : Options} {os : List (Text × Option Text)} {o : Text × Option Text}
    (h : options.Of os) (hsame : ∀ p ∈ os, p.1 = o.1 → p.2 = o.2) : ∃ options', options.note o = .ok options' := by
  unfold Options.note
  cases hlookup : options.lookup o.1 with
  | none => exact ⟨_, rfl⟩
  | some value =>
    have hmem : (o.1, value) ∈ os := (h.mem _).mp ((Options.lookup_eq_some h.nodup (o := (o.1, value))).mp hlookup)
    exact ⟨options, if_pos (hsame _ hmem rfl)⟩

/-- The options of arguments that are read one by one. -/
theorem optionsOf_eq_ok {args : List Text} {options : Options} (h : optionsOf args = .ok options) :
    ∃ os, List.Forall₂ (fun arg o => optionOf arg = .ok o) args os ∧ options.Of os := by
  have hrun (rest : List Text) : ∀ {known : Options} {os : List (Text × Option Text)}, known.Of os →
      rest.foldlM (fun options arg => optionOf arg >>= options.note) known = .ok options →
      ∃ more, List.Forall₂ (fun arg o => optionOf arg = .ok o) rest more ∧ options.Of (os ++ more) := by
    induction rest with
    | nil =>
      intro known os hof h
      cases h
      exact ⟨[], .nil, by rwa [List.append_nil]⟩
    | cons arg rest ih =>
      intro known os hof h
      rw [List.foldlM_cons] at h
      obtain ⟨known', hstep, h⟩ := bind_ok h
      obtain ⟨o, ho, hnote⟩ := bind_ok hstep
      obtain ⟨more, hmore, hoptions⟩ := ih (Options.note_eq_ok hof hnote) h
      exact ⟨o :: more, .cons ho hmore, by rwa [List.append_assoc, List.singleton_append] at hoptions⟩
  have hempty : Options.Of [] [] := ⟨List.nodup_nil, fun _ => Iff.rfl⟩
  exact hrun args hempty h

/-- Arguments that are options with one value each have their options. -/
theorem optionsOf_ok {args : List Text} {os : List (Text × Option Text)}
    (hargs : List.Forall₂ (fun arg o => optionOf arg = .ok o) args os)
    (hsame : Functional os) : ∃ options, optionsOf args = .ok options ∧ options.Of os := by
  have hrun {rest : List Text} {more : List (Text × Option Text)}
      (hrest : List.Forall₂ (fun arg o => optionOf arg = .ok o) rest more) :
      ∀ {known : Options} {before : List (Text × Option Text)}, known.Of before →
        Functional (before ++ more) →
        ∃ options, rest.foldlM (fun options arg => optionOf arg >>= options.note) known = .ok options := by
    induction hrest with
    | nil => exact fun _ _ => ⟨_, rfl⟩
    | @cons arg o rest more ho _ ih =>
      intro known before hof hsame
      have hmem : o ∈ before ++ o :: more := List.mem_append_right _ List.mem_cons_self
      obtain ⟨known', hnote⟩ := Options.note_ok hof fun p hp heq =>
        hsame p (List.mem_append_left _ hp) o hmem heq
      obtain ⟨options, hoptions⟩ := ih (Options.note_eq_ok hof hnote) (by rwa [List.append_assoc, List.singleton_append])
      refine ⟨options, ?_⟩
      rw [List.foldlM_cons, ho]
      change (known.note o >>= _) = _
      rw [hnote]
      exact hoptions
  have hempty : Options.Of [] [] := ⟨List.nodup_nil, fun _ => Iff.rfl⟩
  obtain ⟨options, hoptions⟩ := hrun hargs hempty hsame
  obtain ⟨os', hos', hof⟩ := optionsOf_eq_ok hoptions
  refine ⟨options, hoptions, ?_⟩
  have heq : os' = os :=
    List.right_unique_forall₂' (fun _ _ _ ho ho' => Except.ok.inj (ho.symm.trans ho')) hos' hargs
  exact heq ▸ hof

/-- The options agree with the expected ones if they hold these and the others and no more. -/
theorem Options.agree_iff {options expected : Options} {os : List (Text × Option Text)} {others : List Text}
    (h : options.Of os) : options.agree expected others = true ↔
      (∀ o ∈ os, (∃ value, (o.1, value) ∈ expected) ∨ o.1 ∈ others) ∧
        (∀ key ∈ others, ∃ value, (key, value) ∈ os) ∧ ∀ e ∈ expected, e ∈ os := by
  have hkey (options : Options) (key : Text) :
      (options.lookup key).isSome = true ↔ ∃ value, (key, value) ∈ options := by
    rw [Option.isSome_iff_ne_none, ne_eq, Options.lookup_eq_none]
    exact not_forall_not
  simp only [Options.agree, Bool.and_eq_true, Bool.or_eq_true, List.all_eq_true, hkey, List.contains_iff_mem,
    beq_iff_eq, Options.lookup_eq_some h.nodup, h.mem, and_assoc]

/-- What is expected of options with one value for each key. -/
theorem mem_foldl_expect {known os : List (Text × Option Text)} (h : Functional (known ++ os))
    {e : Text × Option Text} : e ∈ os.foldl expect known ↔ e ∈ known ++ os := by
  induction os generalizing known with
  | nil => rw [List.foldl_nil, List.append_nil]
  | cons o rest ih =>
    have ho : o ∈ known ++ o :: rest := List.mem_append_right _ List.mem_cons_self
    have hexpect (p : Text × Option Text) : p ∈ expect known o ↔ p ∈ known ++ [o] := by
      rw [expect, List.mem_append, List.mem_append, List.mem_filter]
      constructor
      · exact fun hp => hp.imp_left And.left
      · rintro (hp | hp)
        · by_cases hkey : p.1 = o.1
          · exact .inr (List.mem_singleton.mpr (Prod.ext hkey (h p (List.mem_append_left _ hp) o ho hkey)))
          · exact .inl ⟨hp, bne_iff_ne.mpr hkey⟩
        · exact .inr hp
    have hmem (p : Text × Option Text) : p ∈ expect known o ++ rest ↔ p ∈ known ++ o :: rest := by
      rw [List.mem_append, hexpect, ← List.mem_append, List.append_assoc, List.singleton_append]
    rw [List.foldl_cons, ih fun p hp q hq => h p ((hmem p).mp hp) q ((hmem q).mp hq), hmem]

end Tvc.Sweep
