import Mathlib.Data.List.Basic
import Mathlib.Algebra.BigOperators.Group.List.Basic
import Mathlib.Algebra.Ring.Nat

/-!
# Scanning with resynchronisation

A scanner looks at one position of its input after another. It accepts an item and goes on behind it,
refuses a position and goes on at the next, or stops. What it notes on its way is a list of events,
so that a loop over the input is a fold over them, whatever the loop keeps count of.

The items are those of the leftmost-greedy parse: from where the last item ended, the first position
at which an item starts is taken, unless an item is cut off before it.
-/

namespace Resync

/-- What a scanner makes of a position. -/
inductive Verdict (φ ε : Type*)
  | stop
  | skip
  | refuse (why : ε)
  | accept (item : φ) (size : ℕ)

/-- What a scanner notes on its way. -/
inductive Event (φ ε : Type*)
  | refused (why : ε)
  | accepted (pos : ℕ) (item : φ) (size : ℕ)

variable {φ ε τ : Type*}

/-- The scanning loop: look at the position, note what is there and move on. -/
def walk (look : ℕ → Verdict φ ε) (note : τ → Event φ ε → τ) : ℕ → ℕ → τ → τ
  | 0, _, t => t
  | fuel + 1, pos, t =>
    match look pos with
    | .stop => t
    | .skip => walk look note fuel (pos + 1) t
    | .refuse why => walk look note fuel (pos + 1) (note t (.refused why))
    | .accept item size => walk look note fuel (pos + size) (note t (.accepted pos item size))

/-- The events from a position to the stop. -/
inductive Scan (look : ℕ → Verdict φ ε) : ℕ → List (Event φ ε) → Prop
  | stop {pos : ℕ} (h : look pos = .stop) : Scan look pos []
  | skip {pos : ℕ} {events : List (Event φ ε)} (h : look pos = .skip) (hrest : Scan look (pos + 1) events) :
      Scan look pos events
  | refuse {pos : ℕ} {why : ε} {events : List (Event φ ε)} (h : look pos = .refuse why)
      (hrest : Scan look (pos + 1) events) : Scan look pos (.refused why :: events)
  | accept {pos size : ℕ} {item : φ} {events : List (Event φ ε)} (h : look pos = .accept item size)
      (hrest : Scan look (pos + size) events) : Scan look pos (.accepted pos item size :: events)

/-- The accepted items of the events, where they start and what they take. -/
def items (events : List (Event φ ε)) : List (ℕ × φ × ℕ) :=
  events.filterMap fun
    | .refused _ => none
    | .accepted pos item size => some (pos, item, size)

@[simp] theorem items_nil : items ([] : List (Event φ ε)) = [] := rfl

@[simp] theorem items_refused (why : ε) (events : List (Event φ ε)) :
    items (.refused why :: events) = items events := rfl

@[simp] theorem items_accepted (pos size : ℕ) (item : φ) (events : List (Event φ ε)) :
    items (.accepted pos item size :: events) = (pos, item, size) :: items events := rfl

/-- What the items of a list take together. -/
def taken (found : List (ℕ × φ × ℕ)) : ℕ := (found.map fun x => x.2.2).sum

@[simp] theorem taken_nil : taken ([] : List (ℕ × φ × ℕ)) = 0 := rfl

@[simp] theorem taken_cons (x : ℕ × φ × ℕ) (found : List (ℕ × φ × ℕ)) :
    taken (x :: found) = x.2.2 + taken found := by
  simp [taken]

section Walk

variable {look : ℕ → Verdict φ ε} {len : ℕ}

/-- A scanner of an input of a length stops at its end and accepts only what lies inside. -/
structure Bounded (look : ℕ → Verdict φ ε) (len : ℕ) : Prop where
  stop : ∀ pos, len ≤ pos → look pos = .stop
  accept : ∀ pos item size, look pos = .accept item size → 0 < size ∧ pos + size ≤ len

/-- A bounded scanner stops. -/
theorem Bounded.scan (h : Bounded look len) (pos : ℕ) : ∃ events, Scan look pos events := by
  induction hleft : len - pos using Nat.strongRecOn generalizing pos with
  | ind left ih =>
    by_cases hend : len ≤ pos
    · exact ⟨[], .stop (h.stop pos hend)⟩
    · cases hlook : look pos with
      | stop => exact ⟨[], .stop hlook⟩
      | skip =>
        obtain ⟨events, hrest⟩ := ih (len - (pos + 1)) (by omega) (pos + 1) rfl
        exact ⟨events, .skip hlook hrest⟩
      | refuse why =>
        obtain ⟨events, hrest⟩ := ih (len - (pos + 1)) (by omega) (pos + 1) rfl
        exact ⟨.refused why :: events, .refuse hlook hrest⟩
      | accept item size =>
        obtain ⟨hpos, -⟩ := h.accept pos item size hlook
        obtain ⟨events, hrest⟩ := ih (len - (pos + size)) (by omega) (pos + size) rfl
        exact ⟨.accepted pos item size :: events, .accept hlook hrest⟩

/-- A scanner notes one list of events. -/
theorem Scan.unique {pos : ℕ} {events events' : List (Event φ ε)} (h : Scan look pos events)
    (h' : Scan look pos events') : events = events' := by
  induction h generalizing events' with
  | stop hlook => cases h' <;> simp_all
  | skip hlook _ ih =>
    cases h' with
    | skip _ hrest' => exact ih hrest'
    | _ => simp_all
  | refuse hlook _ ih =>
    cases h' with
    | refuse hlook' hrest' =>
      obtain rfl := Verdict.refuse.inj (hlook.symm.trans hlook')
      rw [ih hrest']
    | _ => simp_all
  | accept hlook _ ih =>
    cases h' with
    | accept hlook' hrest' =>
      obtain ⟨rfl, rfl⟩ := Verdict.accept.inj (hlook.symm.trans hlook')
      rw [ih hrest']
    | _ => simp_all

/-- The loop is the fold over the events, given as many turns as there are positions and one more. -/
theorem Scan.walk {pos : ℕ} {events : List (Event φ ε)} (h : Scan look pos events) (hlook : Bounded look len)
    (note : τ → Event φ ε → τ) {fuel : ℕ} (hfuel : len - pos < fuel) (t : τ) :
    walk look note fuel pos t = events.foldl note t := by
  induction h generalizing fuel t with
  | stop hstop =>
    cases fuel with
    | zero => omega
    | succ fuel => simp [Resync.walk, hstop]
  | @skip pos events hskip _ ih =>
    cases fuel with
    | zero => omega
    | succ fuel =>
      have hinside : pos < len := by
        by_contra hend
        rw [hlook.stop pos (by omega)] at hskip
        cases hskip
      simp only [Resync.walk, hskip]
      exact ih (by omega) t
  | @refuse pos why events hrefuse _ ih =>
    cases fuel with
    | zero => omega
    | succ fuel =>
      have hinside : pos < len := by
        by_contra hend
        rw [hlook.stop pos (by omega)] at hrefuse
        cases hrefuse
      simp only [Resync.walk, hrefuse, List.foldl_cons]
      exact ih (by omega) _
  | @accept pos size item events haccept _ ih =>
    cases fuel with
    | zero => omega
    | succ fuel =>
      obtain ⟨hpos, hinside⟩ := hlook.accept pos item size haccept
      simp only [Resync.walk, haccept, List.foldl_cons]
      exact ih (by omega) _

/-- Positions at which the scanner neither stops nor accepts add no item. -/
theorem Scan.pass {a b : ℕ} {events : List (Event φ ε)} (hle : a ≤ b)
    (hpass : ∀ pos, a ≤ pos → pos < b → look pos ≠ .stop ∧ ∀ item size, look pos ≠ .accept item size)
    (h : Scan look b events) : ∃ passed, Scan look a passed ∧ items passed = items events := by
  induction hleft : b - a generalizing a with
  | zero =>
    obtain rfl : a = b := by omega
    exact ⟨events, h, rfl⟩
  | succ left ih =>
    obtain ⟨passed, hscan, hitems⟩ := ih (a := a + 1) (by omega) (fun pos hpos => hpass pos (by omega)) (by omega)
    obtain ⟨hstop, haccept⟩ := hpass a (Nat.le_refl a) (by omega)
    cases hlook : look a with
    | stop => exact absurd hlook hstop
    | skip => exact ⟨passed, .skip hlook hscan, hitems⟩
    | refuse why => exact ⟨.refused why :: passed, .refuse hlook hscan, hitems⟩
    | accept item size => exact absurd hlook (haccept item size)

/-- The items lie one behind the other, between the position and the end of the input. -/
theorem Scan.ordered {pos : ℕ} {events : List (Event φ ε)} (h : Scan look pos events) :
    (items events).Pairwise (fun x y => x.1 + x.2.2 ≤ y.1) ∧
      ∀ x ∈ items events, pos ≤ x.1 ∧ look x.1 = .accept x.2.1 x.2.2 := by
  induction h with
  | stop _ => exact ⟨.nil, nofun⟩
  | skip _ _ ih => exact ⟨ih.1, fun x hx => ⟨Nat.le_of_succ_le (ih.2 x hx).1, (ih.2 x hx).2⟩⟩
  | refuse _ _ ih => exact ⟨ih.1, fun x hx => ⟨Nat.le_of_succ_le (ih.2 x hx).1, (ih.2 x hx).2⟩⟩
  | @accept pos size item events haccept _ ih =>
    obtain ⟨hpairwise, hitems⟩ := ih
    refine ⟨List.pairwise_cons.mpr ⟨fun x hx => (hitems x hx).1, hpairwise⟩, fun x hx => ?_⟩
    rcases List.mem_cons.mp hx with rfl | hx
    · exact ⟨Nat.le_refl _, haccept⟩
    · exact ⟨Nat.le_of_add_right_le (hitems x hx).1, (hitems x hx).2⟩

/-- The items take no more than there is. -/
theorem Scan.taken_le {pos : ℕ} {events : List (Event φ ε)} (h : Scan look pos events) (hlook : Bounded look len)
    (hpos : pos ≤ len) : pos + taken (items events) ≤ len := by
  induction h with
  | stop _ => simpa using hpos
  | @skip pos events hskip _ ih =>
    have hinside : pos ≠ len := by
      rintro rfl
      rw [hlook.stop pos (Nat.le_refl _)] at hskip
      cases hskip
    have := ih (by omega)
    omega
  | @refuse pos why events hrefuse _ ih =>
    have hinside : pos ≠ len := by
      rintro rfl
      rw [hlook.stop pos (Nat.le_refl _)] at hrefuse
      cases hrefuse
    have := ih (by omega)
    simp only [items_refused]
    omega
  | @accept pos size item events haccept _ ih =>
    have := ih (hlook.accept pos item size haccept).2
    simp only [items_accepted, taken_cons]
    omega

end Walk

/-! ## The leftmost-greedy parse -/

/-- Neither does an item start between two positions, nor is one cut off. -/
def Quiet (starts : ℕ → φ → ℕ → Prop) (cut : ℕ → Prop) (a b : ℕ) : Prop :=
  ∀ pos, a ≤ pos → pos < b → ¬cut pos ∧ ∀ item size, ¬starts pos item size

/-- The items of the leftmost-greedy parse from a position on. -/
inductive Greedy (starts : ℕ → φ → ℕ → Prop) (cut : ℕ → Prop) : ℕ → List (ℕ × φ × ℕ) → Prop
  | clear {a : ℕ} (h : ∀ b, Quiet starts cut a b) : Greedy starts cut a []
  | cut {a b : ℕ} (hle : a ≤ b) (hquiet : Quiet starts cut a b) (hcut : cut b) : Greedy starts cut a []
  | take {a b size : ℕ} {item : φ} {found : List (ℕ × φ × ℕ)} (hle : a ≤ b) (hquiet : Quiet starts cut a b)
      (hstarts : starts b item size) (hrest : Greedy starts cut (b + size) found) :
      Greedy starts cut a ((b, item, size) :: found)

/-- A scanner decides where items start and where they are cut off. -/
structure Decides (look : ℕ → Verdict φ ε) (starts : ℕ → φ → ℕ → Prop) (cut : ℕ → Prop) : Prop where
  accept_iff : ∀ pos item size, look pos = .accept item size ↔ starts pos item size
  stop_of_cut : ∀ pos, cut pos → look pos = .stop
  of_stop : ∀ pos, look pos = .stop → cut pos ∨ ∀ b, Quiet starts cut pos b

section Greedy

variable {look : ℕ → Verdict φ ε} {starts : ℕ → φ → ℕ → Prop} {cut : ℕ → Prop}

/-- A position that is passed over can be put before a quiet stretch. -/
theorem Decides.quiet_succ (h : Decides look starts cut) {a b : ℕ} (hstop : look a ≠ .stop)
    (haccept : ∀ item size, look a ≠ .accept item size) (hquiet : Quiet starts cut (a + 1) b) :
    Quiet starts cut a b := by
  intro pos hle hlt
  rcases Nat.eq_or_lt_of_le hle with rfl | hbehind
  · exact ⟨fun hcut => hstop (h.stop_of_cut a hcut),
      fun item size hstarts => haccept item size ((h.accept_iff a item size).mpr hstarts)⟩
  · exact hquiet pos hbehind hlt

/-- A parse from the next position is one from a position that is passed over. -/
theorem Decides.greedy_succ (h : Decides look starts cut) {a : ℕ} {found : List (ℕ × φ × ℕ)}
    (hstop : look a ≠ .stop) (haccept : ∀ item size, look a ≠ .accept item size)
    (hgreedy : Greedy starts cut (a + 1) found) : Greedy starts cut a found := by
  cases hgreedy with
  | clear hquiet => exact .clear fun b => h.quiet_succ hstop haccept (hquiet b)
  | cut hle hquiet hcut => exact .cut (by omega) (h.quiet_succ hstop haccept hquiet) hcut
  | take hle hquiet hstarts hrest =>
    exact .take (by omega) (h.quiet_succ hstop haccept hquiet) hstarts hrest

/-- The scanner finds the leftmost-greedy parse. -/
theorem Scan.greedy {pos : ℕ} {events : List (Event φ ε)} (hscan : Scan look pos events)
    (h : Decides look starts cut) : Greedy starts cut pos (items events) := by
  induction hscan with
  | @stop pos hlook =>
    rcases h.of_stop pos hlook with hcut | hclear
    · exact .cut (Nat.le_refl _) (fun _ hle hlt => absurd hlt (Nat.not_lt.mpr hle)) hcut
    · exact .clear hclear
  | skip hlook _ ih => exact h.greedy_succ (by simp [hlook]) (by simp [hlook]) ih
  | refuse hlook _ ih => exact h.greedy_succ (by simp [hlook]) (by simp [hlook]) ih
  | accept hlook _ ih =>
    exact .take (Nat.le_refl _) (fun _ hle hlt => absurd hlt (Nat.not_lt.mpr hle)) ((h.accept_iff _ _ _).mp hlook) ih

/-- There is one leftmost-greedy parse. -/
theorem Greedy.unique {a : ℕ} {found found' : List (ℕ × φ × ℕ)} (hgreedy : Greedy starts cut a found)
    (h : Decides look starts cut) (hgreedy' : Greedy starts cut a found') : found = found' := by
  have hexclusive {b size : ℕ} {item : φ} (hcut : cut b) (hstarts : starts b item size) : False := by
    have hlook := (h.accept_iff b item size).mpr hstarts
    rw [h.stop_of_cut b hcut] at hlook
    cases hlook
  induction hgreedy generalizing found' with
  | clear hquiet =>
    cases hgreedy' with
    | take hle _ hstarts _ => exact absurd hstarts ((hquiet _ _ hle (Nat.lt_succ_self _)).2 _ _)
    | _ => rfl
  | @cut a b hle hquiet hcut =>
    cases hgreedy' with
    | @take _ b' _ _ _ hle' hquiet' hstarts' _ =>
      rcases Nat.lt_trichotomy b b' with hlt | rfl | hlt
      · exact absurd hcut (hquiet' b hle hlt).1
      · exact (hexclusive hcut hstarts').elim
      · exact absurd hstarts' ((hquiet b' hle' hlt).2 _ _)
    | _ => rfl
  | @take a b size item found hle hquiet hstarts _ ih =>
    cases hgreedy' with
    | clear hquiet' => exact absurd hstarts ((hquiet' _ _ hle (Nat.lt_succ_self _)).2 _ _)
    | @cut _ b' hle' hquiet' hcut' =>
      rcases Nat.lt_trichotomy b b' with hlt | rfl | hlt
      · exact absurd hstarts ((hquiet' b hle hlt).2 _ _)
      · exact (hexclusive hcut' hstarts).elim
      · exact absurd hcut' (hquiet b' hle' hlt).1
    | @take _ b' size' item' found' hle' hquiet' hstarts' hrest' =>
      rcases Nat.lt_trichotomy b b' with hlt | rfl | hlt
      · exact absurd hstarts ((hquiet' b hle hlt).2 _ _)
      · have hsame := ((h.accept_iff b item size).mpr hstarts).symm.trans ((h.accept_iff b item' size').mpr hstarts')
        obtain ⟨rfl, rfl⟩ := Verdict.accept.inj hsame
        rw [ih hrest']
      · exact absurd hstarts' ((hquiet b' hle' hlt).2 _ _)

end Greedy

end Resync
