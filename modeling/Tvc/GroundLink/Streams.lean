import Tvc.Lib.GreedyMatch
import Mathlib.Algebra.Order.Ring.Int

/-!
# The comparison of two recordings in `ground/link.py`

`match_streams` reads the frames of the vehicle and of the ground in step, with one frame of the ground ahead.
It finds the frames of the ground among those of the vehicle and counts the frames that the ground lacks.

A frame is told by its bytes: its sequence number and its tick are read from them. Both recordings are the lists
that their generators yield.
-/

namespace Tvc.GroundLink

open GreedyMatch

variable {ρ : Type}

/-- A frame as a recording yields it. -/
structure StreamFrame (ρ : Type) where
  seq : ℤ
  tick : ℤ
  raw : ρ

/-- `require`. -/
def require (condition : Bool) (message : String) : Except String Unit :=
  if condition then .ok () else .error message

/-- What comes after a requirement is reached exactly if the requirement is met. -/
@[simp] theorem require_bind_ok {α : Type} {condition : Bool} {message : String} {next : Unit → Except String α} {a : α} :
    (require condition message >>= next) = .ok a ↔ condition = true ∧ next () = .ok a := by
  cases condition <;> simp [require, bind, Except.bind]

/-- The variables of `match_streams`; the head of `ground` is `next_ground`. -/
structure Matcher (ρ : Type) where
  ground : List (StreamFrame ρ)
  previousVehicle : Option ℤ := none
  previousGround : Option ℤ := none
  lastMatch : Option ℕ := none
  vehicleCount : ℕ := 0
  groundCount : ℕ := 0
  leading : ℕ := 0
  interior : ℕ := 0

/-- The populations that `match_streams` returns. -/
structure Populations where
  vehicleRecords : ℕ
  groundRecords : ℕ
  leadingLost : ℕ
  interiorLost : ℕ
  trailingLost : ℕ
  groundLost : ℕ
  deriving DecidableEq, Repr

/-- The next frame of the ground is the vehicle's. -/
def Matcher.matched (m : Matcher ρ) (v g : StreamFrame ρ) (rest : List (StreamFrame ρ)) : Matcher ρ where
  ground := rest
  previousVehicle := some v.tick
  previousGround := some g.tick
  lastMatch := some m.vehicleCount
  vehicleCount := m.vehicleCount + 1
  groundCount := m.groundCount + 1
  leading := if m.lastMatch.isNone then m.vehicleCount else m.leading
  interior := m.interior + m.lastMatch.elim 0 fun last => m.vehicleCount - last - 1

/-- The ground has no such frame. -/
def Matcher.lost (m : Matcher ρ) (v : StreamFrame ρ) : Matcher ρ :=
  { m with previousVehicle := some v.tick, vehicleCount := m.vehicleCount + 1 }

/-- `match_streams` on one frame of the vehicle. -/
def Matcher.step [DecidableEq ρ] (start : ℤ) (m : Matcher ρ) (v : StreamFrame ρ) : Except String (Matcher ρ) := do
  require (v.seq == (start + m.vehicleCount) % 2 ^ 32) "vehicle sequence is not contiguous"
  require (m.previousVehicle.all (· < v.tick)) "vehicle ticks are not increasing"
  match m.ground with
  | [] => return m.lost v
  | g :: rest => do
    require (v.tick ≤ g.tick) "unmatched or repeated ground tick"
    if g.tick == v.tick then do
      require (m.previousGround.all (· < g.tick)) "ground ticks are not increasing"
      require (g.raw == v.raw) "ground frame differs from authoritative frame"
      return m.matched v g rest
    else return m.lost v

/-- The frames of the vehicle after the last match. -/
def Matcher.trailing (m : Matcher ρ) : ℕ := m.lastMatch.elim m.vehicleCount fun last => m.vehicleCount - last - 1

/-- `match_streams`. -/
def matchStreams [DecidableEq ρ] (start : ℤ) (vehicle ground : List (StreamFrame ρ)) : Except String Populations := do
  let m ← vehicle.foldlM (Matcher.step start) { ground }
  require m.ground.isEmpty "ground frame beyond authoritative recording"
  return {
    vehicleRecords := m.vehicleCount
    groundRecords := m.groundCount
    leadingLost := m.leading
    interiorLost := m.interior
    trailingLost := m.trailing
    groundLost := m.leading + m.interior + m.trailing }

/-! ## One frame -/

/-- A frame is lost: the ground has no more frames, or a later one is next. -/
structure Matcher.Loses (m : Matcher ρ) (v : StreamFrame ρ) : Prop where
  later : ∀ g ∈ m.ground.head?, v.tick < g.tick

/-- A frame is matched by the next one of the ground. -/
structure Matcher.Matches (m : Matcher ρ) (v g : StreamFrame ρ) (rest : List (StreamFrame ρ)) : Prop where
  next : m.ground = g :: rest
  tick : g.tick = v.tick
  raw : g.raw = v.raw
  increasing : ∀ p ∈ m.previousGround, p < g.tick

/-- The frame of the vehicle is in its place. -/
structure Matcher.Follows (start : ℤ) (m : Matcher ρ) (v : StreamFrame ρ) : Prop where
  seq : v.seq = (start + m.vehicleCount) % 2 ^ 32
  increasing : ∀ p ∈ m.previousVehicle, p < v.tick

/-- A step succeeds exactly on a frame in its place that is lost or matched. -/
theorem Matcher.step_ok [DecidableEq ρ] {start : ℤ} {m m' : Matcher ρ} {v : StreamFrame ρ} :
    m.step start v = .ok m' ↔ m.Follows start v ∧
      (m.Loses v ∧ m' = m.lost v ∨ ∃ g rest, m.Matches v g rest ∧ m' = m.matched v g rest) := by
  have hfollows : m.Follows start v ↔
      v.seq = (start + m.vehicleCount) % 2 ^ 32 ∧ ∀ p ∈ m.previousVehicle, p < v.tick :=
    ⟨fun h => ⟨h.seq, h.increasing⟩, fun h => ⟨h.1, h.2⟩⟩
  have hprevious (p : Option ℤ) (tick : ℤ) : p.all (· < tick) = true ↔ ∀ q ∈ p, q < tick := by
    cases p <;> simp
  unfold step
  rw [require_bind_ok, require_bind_ok, hfollows, and_assoc, beq_iff_eq, hprevious]
  refine and_congr_right fun _ => and_congr_right fun _ => ?_
  cases hground : m.ground with
  | nil =>
    constructor
    · intro h
      exact .inl ⟨⟨by simp [hground]⟩, (Except.ok.inj h).symm⟩
    · rintro (⟨-, rfl⟩ | ⟨g, rest, hmatches, -⟩)
      · rfl
      · rw [hmatches.next] at hground
        cases hground
  | cons g rest =>
    dsimp only
    rw [require_bind_ok, decide_eq_true_eq]
    by_cases htick : g.tick = v.tick
    · rw [if_pos (beq_iff_eq.mpr htick), require_bind_ok, require_bind_ok, hprevious, beq_iff_eq]
      constructor
      · rintro ⟨-, hincreasing, hraw, h⟩
        exact .inr ⟨g, rest, ⟨hground, htick, hraw, hincreasing⟩, (Except.ok.inj h).symm⟩
      · rintro (⟨hloses, -⟩ | ⟨g', rest', hmatches, rfl⟩)
        · exact absurd htick (hloses.later g (by simp [hground])).ne'
        · obtain ⟨rfl, rfl⟩ := List.cons.inj (hground.symm.trans hmatches.next)
          exact ⟨htick.ge, hmatches.increasing, hmatches.raw, rfl⟩
    · rw [if_neg (by simpa using htick)]
      constructor
      · rintro ⟨hle, h⟩
        refine .inl ⟨⟨fun g' hg' => ?_⟩, (Except.ok.inj h).symm⟩
        obtain rfl : g = g' := by simpa [hground] using hg'
        exact lt_of_le_of_ne hle (Ne.symm htick)
      · rintro (⟨hloses, rfl⟩ | ⟨g', rest', hmatches, -⟩)
        · exact ⟨(hloses.later g (by simp [hground])).le, rfl⟩
        · obtain ⟨rfl, rfl⟩ := List.cons.inj (hground.symm.trans hmatches.next)
          exact absurd hmatches.tick htick

/-! ## The frames so far -/

section Bytes

variable (seq tick : ρ → ℤ)

/-- A frame told by its bytes. -/
def StreamFrame.of (r : ρ) : StreamFrame ρ := ⟨seq r, tick r, r⟩

/-- The frames of the ground among those of the vehicle so far: what was found, and what is still to be found. -/
structure Merged (start : ℤ) (ground seen : List ρ) (m : Matcher ρ) (found rest : List ρ) : Prop where
  numbered : ∀ (i : ℕ) r, seen[i]? = some r → seq r = (start + i) % 2 ^ 32
  ordered : Ordered tick seen
  split : ground = found ++ rest
  next : m.ground = rest.map (.of seq tick)
  losses : Losses found seen m.leading m.interior m.trailing
  previousVehicle : m.previousVehicle = seen.getLast?.map tick
  previousGround : m.previousGround = found.getLast?.map tick
  vehicleCount : m.vehicleCount = seen.length
  groundCount : m.groundCount = found.length
  lastMatch : m.lastMatch = none ↔ found = []
  before : ∀ last ∈ m.lastMatch, last < m.vehicleCount

variable {seq tick} {start : ℤ} {ground seen found rest : List ρ} {m : Matcher ρ} {v : ρ}

/-- Nothing is found before the first frame. -/
theorem merged_initial (seq tick : ρ → ℤ) (start : ℤ) (ground : List ρ) :
    Merged seq tick start ground [] { ground := ground.map (.of seq tick) } [] ground where
  numbered := by simp
  ordered := .nil
  split := rfl
  next := rfl
  losses := .nil
  previousVehicle := rfl
  previousGround := rfl
  vehicleCount := rfl
  groundCount := rfl
  lastMatch := by simp
  before := by simp

/-- A frame in its place goes on with the numbers and the ticks of the vehicle. -/
theorem Merged.follows_iff (h : Merged seq tick start ground seen m found rest) :
    m.Follows start (.of seq tick v) ↔
      (∀ (i : ℕ) r, (seen ++ [v])[i]? = some r → seq r = (start + i) % 2 ^ 32) ∧ Ordered tick (seen ++ [v]) := by
  rw [ordered_concat, ← h.ordered.below_iff, ← h.previousVehicle]
  constructor
  · rintro ⟨hseq, hincreasing⟩
    refine ⟨fun i r hr => ?_, h.ordered, hincreasing⟩
    rcases lt_or_ge i seen.length with hi | hi
    · rw [List.getElem?_append_left hi] at hr
      exact h.numbered i r hr
    · rw [List.getElem?_append_right hi] at hr
      have hlast : i - seen.length < [v].length := (List.getElem?_eq_some_iff.mp hr).1
      obtain rfl : i = seen.length := by rw [List.length_singleton] at hlast; omega
      obtain rfl : v = r := by simpa using hr
      rw [h.vehicleCount] at hseq
      exact hseq
  · rintro ⟨hnumbered, -, hincreasing⟩
    refine ⟨?_, hincreasing⟩
    rw [h.vehicleCount]
    exact hnumbered seen.length v List.getElem?_concat_length

/-- A lost frame leaves what is to be found. -/
theorem Merged.lost (h : Merged seq tick start ground seen m found rest)
    (hfollows : m.Follows start (.of seq tick v)) :
    Merged seq tick start ground (seen ++ [v]) (m.lost (.of seq tick v)) found rest where
  numbered := (h.follows_iff.mp hfollows).1
  ordered := (h.follows_iff.mp hfollows).2
  split := h.split
  next := h.next
  losses := by
    have hlater : (m.lost (.of seq tick v)).trailing = m.trailing + 1 := by
      have hbefore := h.before
      unfold Matcher.trailing Matcher.lost
      cases hlast : m.lastMatch with
      | none => rfl
      | some last =>
        have hlt := hbefore last hlast
        simp only [Option.elim_some]
        omega
    rw [hlater]
    exact h.losses.lost v
  previousVehicle := by rw [List.getLast?_concat]; rfl
  previousGround := h.previousGround
  vehicleCount := by rw [List.length_append, List.length_singleton, ← h.vehicleCount]; rfl
  groundCount := h.groundCount
  lastMatch := h.lastMatch
  before last hlast := (h.before last hlast).trans (Nat.lt_succ_self _)

/-- A matched frame is the next one to be found. -/
theorem Merged.matched (h : Merged seq tick start ground seen m found (v :: rest))
    (hfollows : m.Follows start (.of seq tick v)) :
    Merged seq tick start ground (seen ++ [v]) (m.matched (.of seq tick v) (.of seq tick v) (rest.map (.of seq tick)))
      (found ++ [v]) rest where
  numbered := (h.follows_iff.mp hfollows).1
  ordered := (h.follows_iff.mp hfollows).2
  split := by rw [h.split, List.append_assoc]; rfl
  next := rfl
  losses := by
    have hnone : (m.matched (.of seq tick v) (.of seq tick v) (rest.map (.of seq tick))).trailing = 0 := by
      change m.vehicleCount + 1 - m.vehicleCount - 1 = 0
      omega
    rw [hnone]
    have hlosses := h.losses
    cases hlast : m.lastMatch with
    | none =>
      obtain rfl := h.lastMatch.mp hlast
      have htrailing : m.trailing = m.vehicleCount := by rw [Matcher.trailing, hlast]; rfl
      rw [htrailing] at hlosses
      simp only [Matcher.matched, hlast, Option.isNone_none, if_true, Option.elim_none, Nat.add_zero]
      exact hlosses.first v
    | some last =>
      have hsome : found ≠ [] := fun hnil => by simp [h.lastMatch.mpr hnil] at hlast
      have htrailing : m.trailing = m.vehicleCount - last - 1 := by rw [Matcher.trailing, hlast]; rfl
      rw [htrailing] at hlosses
      simp only [Matcher.matched, hlast, Option.isNone_some, Bool.false_eq_true, if_false, Option.elim_some]
      exact hlosses.next hsome v
  previousVehicle := by rw [List.getLast?_concat]; rfl
  previousGround := by rw [List.getLast?_concat]; rfl
  vehicleCount := by rw [List.length_append, List.length_singleton, ← h.vehicleCount]; rfl
  groundCount := by rw [List.length_append, List.length_singleton, ← h.groundCount]; rfl
  lastMatch := by simp [Matcher.matched]
  before last hlast := by
    obtain rfl : m.vehicleCount = last := Option.some.inj hlast
    exact Nat.lt_succ_self _

/-! ## The whole recordings -/

variable [DecidableEq ρ] {vehicle : List ρ}

/-- A step that succeeds goes on with the search. -/
theorem Merged.step (h : Merged seq tick start ground seen m found rest) {m' : Matcher ρ}
    (hstep : m.step start (.of seq tick v) = .ok m') :
    ∃ found' rest', Merged seq tick start ground (seen ++ [v]) m' found' rest' := by
  obtain ⟨hfollows, ⟨-, rfl⟩ | ⟨g, rest', hmatches, rfl⟩⟩ := Matcher.step_ok.mp hstep
  · exact ⟨found, rest, h.lost hfollows⟩
  · have hnext := hmatches.next
    rw [h.next] at hnext
    cases rest with
    | nil => simp at hnext
    | cons r rest =>
      obtain ⟨rfl, rfl⟩ := List.cons.inj hnext
      obtain rfl : r = v := hmatches.raw
      exact ⟨_, _, h.matched hfollows⟩

/-- A run of steps that succeed has searched the frames of the vehicle. -/
theorem Merged.run (h : Merged seq tick start ground seen m found rest) {m' : Matcher ρ}
    (hrun : (vehicle.map (.of seq tick)).foldlM (Matcher.step start) m = .ok m') :
    ∃ found' rest', Merged seq tick start ground (seen ++ vehicle) m' found' rest' := by
  induction vehicle generalizing seen m found rest with
  | nil =>
    obtain rfl : m = m' := Except.ok.inj hrun
    exact ⟨found, rest, by rwa [List.append_nil]⟩
  | cons v vehicle ih =>
    rw [List.map_cons, List.foldlM_cons] at hrun
    cases hstep : m.step start (.of seq tick v) with
    | error e => rw [hstep] at hrun; cases hrun
    | ok m₁ =>
      rw [hstep] at hrun
      obtain ⟨found₁, rest₁, h₁⟩ := h.step hstep
      obtain ⟨found', rest', h'⟩ := ih h₁ hrun
      exact ⟨found', rest', by rwa [List.append_assoc] at h'⟩

/-- Frames that are numbered and ordered are searched without an error while what is to be found is among them, and
all of it is found. -/
theorem Merged.finds (h : Merged seq tick start ground seen m found rest)
    (hnumbered : ∀ (i : ℕ) r, (seen ++ vehicle)[i]? = some r → seq r = (start + i) % 2 ^ 32)
    (hordered : Ordered tick (seen ++ vehicle)) (hsub : rest.Sublist vehicle) :
    ∃ m', (vehicle.map (.of seq tick)).foldlM (Matcher.step start) m = .ok m' ∧
      Merged seq tick start ground (seen ++ vehicle) m' ground [] := by
  induction vehicle generalizing seen m found rest with
  | nil =>
    obtain rfl := List.sublist_nil.mp hsub
    have hall := h.split
    rw [List.append_nil] at hall
    subst hall
    exact ⟨m, rfl, by rwa [List.append_nil]⟩
  | cons v vehicle ih =>
    have hshift : seen ++ v :: vehicle = seen ++ [v] ++ vehicle := by simp
    have hlater : Ordered tick (v :: vehicle) := (List.pairwise_append.mp hordered).2.1
    rw [hshift] at hnumbered hordered ⊢
    have hfollows : m.Follows start (.of seq tick v) := by
      refine h.follows_iff.mpr ⟨fun i r hr => hnumbered i r ?_, (List.pairwise_append.mp hordered).1⟩
      rw [List.getElem?_append_left (List.getElem?_eq_some_iff.mp hr).1]
      exact hr
    -- What is to be found next is this frame, or a later one.
    obtain ⟨m₁, found₁, rest₁, hstep, h₁, hsub₁⟩ : ∃ m₁ found₁ rest₁, m.step start (.of seq tick v) = .ok m₁ ∧
        Merged seq tick start ground (seen ++ [v]) m₁ found₁ rest₁ ∧ rest₁.Sublist vehicle := by
      cases rest with
      | nil =>
        refine ⟨_, found, [], Matcher.step_ok.mpr ⟨hfollows, .inl ⟨⟨?_⟩, rfl⟩⟩, h.lost hfollows, List.nil_sublist _⟩
        simp [h.next]
      | cons g rest =>
        rcases (hlater.le_next hsub).eq_or_lt with heq | hlt
        · obtain ⟨rfl, hrest⟩ := hlater.eq_next hsub heq.symm
          refine ⟨_, _, rest, Matcher.step_ok.mpr ⟨hfollows, .inr ⟨_, _, ⟨h.next, rfl, rfl, ?_⟩, rfl⟩⟩,
            h.matched hfollows, hrest⟩
          intro p hp
          rw [h.previousGround] at hp
          obtain ⟨a, ha, rfl⟩ := Option.mem_map.mp hp
          have hseen : a ∈ seen := h.losses.sublist.subset (List.mem_of_getLast? ha)
          exact (ordered_concat.mp (List.pairwise_append.mp hordered).1).2 a hseen
        · refine ⟨_, found, g :: rest, Matcher.step_ok.mpr ⟨hfollows, .inl ⟨⟨?_⟩, rfl⟩⟩, h.lost hfollows,
            skip_next hsub hlt⟩
          intro g' hg'
          obtain rfl : (StreamFrame.of seq tick g) = g' := by simpa [h.next] using hg'
          exact hlt
    obtain ⟨m', hrun, h'⟩ := ih h₁ hnumbered hordered hsub₁
    refine ⟨m', ?_, h'⟩
    rw [List.map_cons, List.foldlM_cons, hstep]
    exact hrun

/-- What the populations of two recordings say. -/
structure Populations.Count (p : Populations) (vehicle ground : List ρ) : Prop where
  vehicleRecords : p.vehicleRecords = vehicle.length
  groundRecords : p.groundRecords = ground.length
  leading : ∀ g, ground.head? = some g → ∃ before after, vehicle = before ++ g :: after ∧ before.length = p.leadingLost
  trailing : ∀ g, ground.getLast? = some g →
    ∃ before after, vehicle = before ++ g :: after ∧ after.length = p.trailingLost
  none : ground = [] → p.leadingLost = 0 ∧ p.interiorLost = 0 ∧ p.trailingLost = vehicle.length
  lost : p.leadingLost + p.interiorLost + p.trailingLost = p.groundLost
  total : (p.groundLost : ℤ) = vehicle.length - ground.length

omit [DecidableEq ρ] in
/-- When all of the ground is found, the populations are right. -/
theorem Merged.count (h : Merged seq tick start ground vehicle m ground []) :
    Populations.Count ⟨m.vehicleCount, m.groundCount, m.leading, m.interior, m.trailing,
      m.leading + m.interior + m.trailing⟩ vehicle ground where
  vehicleRecords := h.vehicleCount
  groundRecords := h.groundCount
  leading _ hg := h.losses.before hg
  trailing _ hg := h.losses.after hg
  none := h.losses.unmatched
  lost := rfl
  total := by
    have htotal := h.losses.total
    dsimp only
    omega

end Bytes

/-- Frames that are numbered and ordered are accepted with some of them. -/
theorem matchStreams_ok [DecidableEq ρ] {seq tick : ρ → ℤ} {start : ℤ} {vehicle ground : List ρ}
    (hnumbered : ∀ (i : ℕ) r, vehicle[i]? = some r → seq r = (start + i) % 2 ^ 32) (hordered : Ordered tick vehicle)
    (hsub : ground.Sublist vehicle) :
    ∃ p, matchStreams start (vehicle.map (.of seq tick)) (ground.map (.of seq tick)) = .ok p ∧ p.Count vehicle ground := by
  obtain ⟨m, hrun, hmerged⟩ := (merged_initial seq tick start ground).finds hnumbered hordered hsub
  refine ⟨_, ?_, hmerged.count⟩
  unfold matchStreams
  rw [hrun]
  exact require_bind_ok.mpr ⟨by rw [hmerged.next]; rfl, rfl⟩

/-- `match_streams` decides whether the frames of the ground are a subsequence of the vehicle's. It returns without an
error exactly if the vehicle's sequence numbers count on from the first ordinal, its ticks increase, and the ground
has some of its frames in their order; and then the populations are the numbers of frames before the first match,
between the matches and after the last one. -/
theorem matchStreams_subsequence [DecidableEq ρ] (seq tick : ρ → ℤ) (start : ℤ) (vehicle ground : List ρ) :
    ((∃ p, matchStreams start (vehicle.map (.of seq tick)) (ground.map (.of seq tick)) = .ok p) ↔
      (∀ (i : ℕ) r, vehicle[i]? = some r → seq r = (start + i) % 2 ^ 32) ∧
        vehicle.Pairwise (fun a b => tick a < tick b) ∧ ground.Sublist vehicle) ∧
    ∀ p, matchStreams start (vehicle.map (.of seq tick)) (ground.map (.of seq tick)) = .ok p →
      p.Count vehicle ground := by
  have hinitial := merged_initial seq tick start ground
  have hsound {p : Populations} (h : matchStreams start (vehicle.map (.of seq tick)) (ground.map (.of seq tick)) = .ok p) :
      ∃ m, Merged seq tick start ground vehicle m ground [] ∧ p = ⟨m.vehicleCount, m.groundCount, m.leading, m.interior,
        m.trailing, m.leading + m.interior + m.trailing⟩ := by
    unfold matchStreams at h
    cases hrun : (vehicle.map (.of seq tick)).foldlM (Matcher.step start) { ground := ground.map (.of seq tick) } with
    | error e => rw [hrun] at h; cases h
    | ok m =>
      rw [hrun] at h
      obtain ⟨hempty, h⟩ := require_bind_ok.mp h
      obtain ⟨found, rest, hmerged⟩ := hinitial.run hrun
      rw [hmerged.next] at hempty
      obtain rfl : rest = [] := by simpa using hempty
      obtain rfl : ground = found := by simpa using hmerged.split
      exact ⟨m, hmerged, (Except.ok.inj h).symm⟩
  refine ⟨⟨?_, ?_⟩, fun p hp => ?_⟩
  · rintro ⟨p, hp⟩
    obtain ⟨m, hmerged, -⟩ := hsound hp
    exact ⟨hmerged.numbered, hmerged.ordered, hmerged.losses.sublist⟩
  · rintro ⟨hnumbered, hordered, hsub⟩
    obtain ⟨p, hp, -⟩ := matchStreams_ok hnumbered hordered hsub
    exact ⟨p, hp⟩
  · obtain ⟨m, hmerged, rfl⟩ := hsound hp
    exact hmerged.count

/-- Six frames of which the ground has the second and the fourth, across the wrap of the sequence numbers. -/
example : matchStreams (2 ^ 32 - 3) ([0, 1, 2, 3, 4, 5].map (.of (fun n => (2 ^ 32 - 3 + n) % 2 ^ 32) (10 * ·)))
    ([1, 3].map (.of (fun n => (2 ^ 32 - 3 + n) % 2 ^ 32) (10 * ·))) = .ok ⟨6, 2, 1, 1, 2, 4⟩ := by
  decide

end Tvc.GroundLink
