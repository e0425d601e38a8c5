import Mathlib.Data.List.Nodup
import Tvc.Episode.Invariant

/-!
# Accounting for acknowledgements

A command that arrives while the machine is live is acknowledged in that cycle, and once more
later if it was queued: when it is run, displaced, or left undone by the end of the run. A ledger
of the acknowledgements enters each under the cycle that emits it and the cycle that presented
the command it answers, which is the newest queued one for an acknowledgement that does not
answer an arrival.
-/

namespace Tvc.Episode

variable {F : Type}

/-! ## The acknowledgements of one cycle -/

/-- The command was run. -/
def IsApplied (a : Ack) : Prop := a.status = .applied ∨ a.status = .appliedLate

instance : DecidablePred IsApplied := fun _ => inferInstanceAs (Decidable (_ ∨ _))

/-- A status that finishes a queued command. -/
def IsFinal (a : Ack) : Prop := IsApplied a ∨ a.status = .rejectedState ∨ a.status = .preempted

/-- The acknowledgement of the arriving command: the first one of a cycle with a command. -/
def arrivalAck (command : Option Command) (acks : List Ack) : Option Ack :=
  if command.isSome then acks.head? else none

/-- The acknowledgements that do not answer an arrival. -/
def laterAcks (command : Option Command) (acks : List Ack) : List Ack :=
  if command.isSome then acks.tail else acks

/-- What the acknowledgements of a live cycle say about the pending slot, before and after. -/
structure Acked (before after command : Option Command) (arrival later : Option Ack) : Prop where
  number : arrival.map Ack.cmdSeq = command.map Command.cmdSeq
  finishes : ∀ f ∈ later, IsFinal f ∧ ∃ p ∈ before, f.cmdSeq = p.cmdSeq
  once : ∀ a ∈ arrival, ∀ f ∈ later, ¬(IsApplied a ∧ IsApplied f)
  queued : ∀ a ∈ arrival, a.status = .queued → after = command ∧ later.isSome = before.isSome
  idle : (∀ a ∈ arrival, a.status ≠ .queued) →
    after = none ∧ later.isSome = before.isSome ∨ after = before ∧ later = none

/-- An inert status neither queues nor runs a command. -/
theorem Inert.quiet {a : Ack} (h : Inert a.status) : a.status ≠ .queued ∧ ¬IsApplied a := by
  unfold IsApplied
  rcases h with h | h | h | h | h <;> simp [h]

/-- A command that is run is not queued, and its acknowledgement is final. -/
theorem Applied.acked {s : EpisodeState F} {c : Command} {tick : ℕ} {x : EpisodeState F × Ack}
    (h : Applied s c tick x) : IsFinal x.2 ∧ x.2.status ≠ .queued := by
  cases h with
  | moved hstatus => exact ⟨.inl hstatus, by rcases hstatus with h | h <;> simp [h]⟩
  | aborted hstatus => exact ⟨.inl hstatus, by rcases hstatus with h | h <;> simp [h]⟩
  | refused => exact ⟨.inr (.inl rfl), nofun⟩

/-- A declined arrival is acknowledged under its own number and not queued. -/
theorem Declined.acked {s : EpisodeState F} {command : Option Command} {arrival : Option Ack}
    (h : Declined s command arrival) :
    arrival.map Ack.cmdSeq = command.map Command.cmdSeq ∧
      ∀ a ∈ arrival, a.status ≠ .queued ∧ ¬IsApplied a := by
  cases h with
  | quiet => exact ⟨rfl, nofun⟩
  | refused hscreen =>
    refine ⟨rfl, fun a ha => ?_⟩
    obtain rfl := Option.some.inj ha
    exact (inert_of_screen hscreen).quiet

/-- A displaced command is finished without being run. -/
theorem preemption_acked (s : EpisodeState F) :
    (preemption s).isSome = s.pending.isSome ∧
      ∀ f ∈ preemption s, IsFinal f ∧ ¬IsApplied f ∧ ∃ p ∈ s.pending, f.cmdSeq = p.cmdSeq := by
  refine ⟨Option.isSome_map, fun f hf => ?_⟩
  obtain ⟨p, hp, rfl⟩ := Option.mem_map.mp hf
  exact ⟨.inr (.inr rfl), by simp [IsApplied], p, hp, rfl⟩

/-- The acknowledgements of the commands of a running cycle. -/
theorem Handled.acked {s : EpisodeState F} {tick : ℕ} {command : Option Command}
    {x : EpisodeState F × Option Ack × Option Ack} (h : Handled s tick command x) :
    Acked s.pending x.1.pending command x.2.1 x.2.2 := by
  cases h with
  | kept harrival _ =>
    obtain ⟨hseq, hquiet⟩ := harrival.acked
    exact ⟨hseq, by simp, by simp, fun a ha hqueued => absurd hqueued (hquiet a ha).1, fun _ => .inr ⟨rfl, rfl⟩⟩
  | due harrival hpending _ happlied =>
    obtain ⟨hseq, hquiet⟩ := harrival.acked
    obtain ⟨hnone, -, -, hnumber⟩ := happlied.frame
    refine ⟨hseq, fun f hf => ?_, fun a ha _ _ happ => (hquiet a ha).2 happ.1,
      fun a ha hqueued => absurd hqueued (hquiet a ha).1, fun _ => .inl ⟨hnone, by simp [hpending]⟩⟩
    obtain rfl := Option.some.inj hf
    exact ⟨happlied.acked.1, _, hpending, hnumber⟩
  | queued _ _ =>
    obtain ⟨hsome, hdisplaced⟩ := preemption_acked s
    refine ⟨rfl, fun f hf => ⟨(hdisplaced f hf).1, (hdisplaced f hf).2.2⟩,
      fun _ _ f hf happ => (hdisplaced f hf).2.1 happ.2, fun _ _ _ => ⟨rfl, hsome⟩, fun hidle => ?_⟩
    exact absurd rfl (hidle _ rfl)
  | ran _ _ happlied =>
    obtain ⟨hsome, hdisplaced⟩ := preemption_acked s
    obtain ⟨hnone, -, -, hnumber⟩ := happlied.frame
    refine ⟨congrArg some hnumber, fun f hf => ⟨(hdisplaced f hf).1, (hdisplaced f hf).2.2⟩,
      fun _ _ f hf happ => (hdisplaced f hf).2.1 happ.2, fun a ha hqueued => ?_, fun _ => .inl ⟨hnone, hsome⟩⟩
    obtain rfl := Option.some.inj ha
    exact absurd hqueued happlied.acked.2

/-- A cycle makes at most two acknowledgements, and runs at most one command. -/
theorem Acked.batch_le {before after command : Option Command} {arrival later : Option Ack}
    (h : Acked before after command arrival later) :
    (batch arrival later).length ≤ 2 ∧
      (batch arrival later).countP (fun a => decide (IsApplied a)) ≤ 1 := by
  cases arrival with
  | none =>
    cases later with
    | none => exact ⟨Nat.zero_le _, Nat.zero_le _⟩
    | some f => exact ⟨by simp [batch], List.countP_le_length⟩
  | some a =>
    cases later with
    | none => exact ⟨by simp [batch], List.countP_le_length⟩
    | some f =>
      have honce := h.once a rfl f rfl
      refine ⟨by simp [batch], ?_⟩
      by_cases ha : IsApplied a
      · have hf : ¬IsApplied f := fun hf => honce ⟨ha, hf⟩
        simp [batch, ha, hf]
      · by_cases hf : IsApplied f <;> simp [batch, ha, hf]

/-- The batch of a cycle splits into the acknowledgement of the arrival and the other one. -/
theorem batch_split {command : Option Command} {arrival : Option Ack}
    (h : arrival.map Ack.cmdSeq = command.map Command.cmdSeq) (later : Option Ack) :
    arrivalAck command (batch arrival later) = arrival ∧ laterAcks command (batch arrival later) = later.toList := by
  cases command with
  | none =>
    obtain rfl : arrival = none := by simpa using h
    exact ⟨rfl, rfl⟩
  | some c =>
    obtain ⟨a, rfl⟩ : ∃ a, arrival = some a := by
      cases arrival with
      | none => nomatch h
      | some a => exact ⟨a, rfl⟩
    exact ⟨rfl, rfl⟩

variable [Arith F] {s : EpisodeState F} {i : EpisodeInput F} {r : EpisodeOutput F}

/-- The acknowledgements of a live cycle. -/
theorem Outcome.acked (h : Outcome s i r) (hlive : s.mode ≠ .terminated) :
    ∃ arrival later, r.acks = batch arrival later ∧
      Acked s.pending r.state.pending i.command arrival later := by
  cases h with
  | ended hmode => exact absurd hmode hlive
  | stopped =>
    refine ⟨_, _, rfl, ?_, fun f hf => ?_, fun _ _ f hf happ => ?_, fun a ha hqueued => ?_,
      fun _ => .inl ⟨rfl, Option.isSome_map⟩⟩
    · cases i.command <;> rfl
    · obtain ⟨p, hp, rfl⟩ := Option.mem_map.mp hf
      exact ⟨.inr (.inl rfl), p, hp, rfl⟩
    · obtain ⟨p, -, rfl⟩ := Option.mem_map.mp hf
      simp [IsApplied] at happ
    · obtain ⟨c, -, rfl⟩ := Option.mem_map.mp ha
      cases hstatus : prefixStatus c s.lastAccepted with
      | none => simp [counted, hstatus] at hqueued
      | some status =>
        have hinert := inert_of_prefixStatus hstatus
        simp only [counted, hstatus, Option.getD_some] at hqueued
        simp [Inert, hqueued] at hinert
  | ran _ _ hhandled =>
    refine ⟨_, _, rfl, ?_⟩
    rw [drive_pending]
    exact hhandled.acked

/-- A machine that has ended acknowledges nothing. -/
theorem Outcome.acks_of_terminated (h : Outcome s i r) (hmode : s.mode = .terminated) : r.acks = [] := by
  cases h with
  | ended => rfl
  | stopped hlive => exact absurd hmode hlive
  | ran hlive => exact absurd hmode hlive

/-- The cycle ran the command, the arriving one or the pending one. -/
def RanCommand (s : EpisodeState F) (i : EpisodeInput F) (c : Command) : Prop :=
  (i.command = some c ∧ ∃ a ∈ arrivalAck i.command (step s i).acks, IsApplied a) ∨
    (s.pending = some c ∧ ∃ f ∈ laterAcks i.command (step s i).acks, IsApplied f)

/-- The commands a cycle runs are those it acknowledges as applied. -/
theorem ranCommand_iff (s : EpisodeState F) (i : EpisodeInput F) (number : U32) :
    (∃ c, RanCommand s i c ∧ c.cmdSeq = number) ↔
      ∃ a ∈ (step s i).acks, IsApplied a ∧ a.cmdSeq = number := by
  by_cases hmode : s.mode = .terminated
  · have hnone := (step_outcome s i).acks_of_terminated hmode
    unfold RanCommand
    rw [hnone]
    cases i.command <;> simp [arrivalAck, laterAcks]
  · obtain ⟨arrival, later, hacks, hacked⟩ := (step_outcome s i).acked hmode
    obtain ⟨harrival, hlater⟩ := batch_split hacked.number later
    unfold RanCommand
    rw [hacks, harrival, hlater]
    constructor
    · rintro ⟨c, ⟨hc, a, ha, happlied⟩ | ⟨hc, f, hf, happlied⟩, rfl⟩
      · have hseq := hacked.number
        rw [hc, Option.mem_def.mp ha] at hseq
        exact ⟨a, by simp [batch, Option.mem_def.mp ha], happlied, Option.some.inj hseq⟩
      · obtain ⟨-, p, hp, hseq⟩ := hacked.finishes f (Option.mem_toList.mp hf)
        obtain rfl : p = c := Option.some.inj (Eq.trans (Eq.symm hp) hc)
        exact ⟨f, by simp [batch, Option.mem_toList.mp hf], happlied, hseq⟩
    · rintro ⟨a, ha, happlied, rfl⟩
      rcases List.mem_append.mp ha with ha | ha
      · obtain ⟨c, hc, hseq⟩ := Option.map_eq_some_iff.mp
          (hacked.number.symm.trans (congrArg _ (Option.mem_toList.mp ha)))
        exact ⟨c, .inl ⟨hc, a, Option.mem_toList.mp ha, happlied⟩, hseq⟩
      · obtain ⟨-, p, hp, hseq⟩ := hacked.finishes a (Option.mem_toList.mp ha)
        exact ⟨p, .inr ⟨hp, a, ha, happlied⟩, hseq.symm⟩

/-- A cycle runs at most one command. -/
theorem applied_le_one (s : EpisodeState F) (i : EpisodeInput F) :
    (step s i).acks.countP (fun a => decide (IsApplied a)) ≤ 1 := by
  by_cases hmode : s.mode = .terminated
  · rw [(step_outcome s i).acks_of_terminated hmode]
    exact Nat.zero_le _
  · obtain ⟨arrival, later, hacks, hacked⟩ := (step_outcome s i).acked hmode
    rw [hacks]
    exact hacked.batch_le.2

/-! ## The ledger of a run -/

/-- An acknowledgement with the cycle that emits it and the cycle that presented its command. -/
structure Entry where
  cycle : ℕ
  presented : ℕ
  ack : Ack

/-- The acknowledgements so far, the number of cycles, and the cycle of the newest queued command. -/
structure Ledger where
  cycles : ℕ := 0
  newest : ℕ := 0
  entries : List Entry := []

namespace Ledger

/-- The entries of one cycle. -/
def entriesOf (l : Ledger) (command : Option Command) (acks : List Ack) : List Entry :=
  (arrivalAck command acks).toList.map (Entry.mk l.cycles l.cycles) ++
    (laterAcks command acks).map (Entry.mk l.cycles l.newest)

/-- The ledger after one more cycle. -/
def record (l : Ledger) (command : Option Command) (acks : List Ack) : Ledger where
  cycles := l.cycles + 1
  newest := if (arrivalAck command acks).any fun a => a.status == .queued then l.cycles else l.newest
  entries := l.entries ++ l.entriesOf command acks

/-- The entries for the command that a cycle presented. -/
def about (l : Ledger) (n : ℕ) : List Entry := l.entries.filter fun e => e.presented == n

end Ledger

/-- The ledger of a history. -/
def ledger (autoArm : Bool) (history : List (EpisodeInput F)) : Ledger :=
  (history.zip (Machine.run advance (initial autoArm) history).2).foldl
    (fun l x => l.record x.1.command x.2.acks) {}

/-- The ledger of one more cycle. -/
theorem ledger_concat (autoArm : Bool) (history : List (EpisodeInput F)) (i : EpisodeInput F) :
    ledger autoArm (history ++ [i]) =
      (ledger autoArm history).record i.command (step (stateAfter autoArm history) i).acks := by
  unfold ledger
  rw [Machine.run_append, List.zip_append (Machine.run_length ..).symm, List.foldl_append]
  rfl

/-- The entries of a cycle hold its acknowledgements, in order. -/
theorem entriesOf_acks (l : Ledger) (command : Option Command) (acks : List Ack) :
    (l.entriesOf command acks).map Entry.ack = acks := by
  have hsplit : (arrivalAck command acks).toList ++ laterAcks command acks = acks := by
    cases command with
    | none => rfl
    | some c => cases acks <;> rfl
  rw [Ledger.entriesOf, List.map_append, List.map_map, List.map_map]
  have hack (n : ℕ) : Entry.ack ∘ Entry.mk l.cycles n = id := rfl
  rw [hack, hack, List.map_id, List.map_id, hsplit]

/-- The ledger holds every acknowledgement of the run, in order. -/
theorem ledger_acks (autoArm : Bool) (history : List (EpisodeInput F)) :
    (ledger autoArm history).entries.map Entry.ack =
      (Machine.run advance (initial autoArm) history).2.flatMap EpisodeOutput.acks := by
  induction history using List.reverseRecOn with
  | nil => rfl
  | append_singleton history i ih =>
    rw [ledger_concat, Ledger.record, List.map_append, entriesOf_acks, ih, Machine.run_append,
      List.flatMap_append]
    simp [stateAfter, advance]

omit [Arith F] in
/-- The entries a cycle adds about the command of one cycle. -/
theorem about_record (l : Ledger) {command : Option Command} {arrival later : Option Ack}
    (h : arrival.map Ack.cmdSeq = command.map Command.cmdSeq) (n : ℕ) :
    (l.record command (batch arrival later)).about n =
      l.about n ++ ((if l.cycles = n then arrival.toList.map (Entry.mk l.cycles l.cycles) else []) ++
        if l.newest = n then later.toList.map (Entry.mk l.cycles l.newest) else []) := by
  obtain ⟨harrival, hlater⟩ := batch_split h later
  have hone (p : ℕ) (acks : List Ack) :
      (acks.map (Entry.mk l.cycles p)).filter (fun e => e.presented == n) =
        if p = n then acks.map (Entry.mk l.cycles p) else [] := by
    rw [List.filter_map]
    have hconst : (fun e : Entry => e.presented == n) ∘ Entry.mk l.cycles p = fun _ => p == n := rfl
    rw [hconst]
    by_cases hp : p = n <;> simp [hp]
  rw [Ledger.about, Ledger.record, Ledger.entriesOf, harrival, hlater, List.filter_append,
    List.filter_append, hone, hone]
  rfl

/-! ## What the ledger shows -/

/-- The entries about a command that is not pending. -/
inductive Closed (n : ℕ) : List Entry → Prop
  | absent : Closed n []
  | immediate {a : Ack} (hstatus : a.status ≠ .queued) : Closed n [⟨n, n, a⟩]
  | finished {a f : Ack} {m : ℕ} (hqueued : a.status = .queued) (hlater : n < m)
      (hseq : f.cmdSeq = a.cmdSeq) (hfinal : IsFinal f) : Closed n [⟨n, n, a⟩, ⟨m, n, f⟩]

/-- What the ledger shows of a history: at most the newest queued command is open, and only while
it is pending. -/
structure Accounted (history : List (EpisodeInput F)) (s : EpisodeState F) (l : Ledger) : Prop where
  cycles : l.cycles = history.length
  bound : ∀ e ∈ l.entries, e.presented < l.cycles
  opened : ∀ p ∈ s.pending, (∃ i, history[l.newest]? = some i ∧ i.command = some p) ∧
    ∃ a, l.about l.newest = [⟨l.newest, l.newest, a⟩] ∧ a.status = .queued ∧ a.cmdSeq = p.cmdSeq
  closed : ∀ n, s.pending = none ∨ n ≠ l.newest → Closed n (l.about n)
  balance : l.entries.countP (fun e => e.ack.status == .queued) =
    l.entries.countP (fun e => e.presented != e.cycle) + s.pending.isSome.toNat

section Step

variable {history : List (EpisodeInput F)} {next : EpisodeState F} {l : Ledger} {arrival later : Option Ack}

omit [Arith F] in
/-- Nothing is entered about a cycle that is still to come. -/
theorem Accounted.about_cycles (h : Accounted history s l) : l.about l.cycles = [] := by
  refine List.filter_eq_nil_iff.mpr fun e he => ?_
  have hlt := h.bound e he
  simpa using hlt.ne

omit [Arith F] in
/-- The newest queued command was presented in an earlier cycle. -/
theorem Accounted.newest_lt (h : Accounted history s l) {p : Command} (hp : p ∈ s.pending) :
    l.newest < l.cycles := by
  obtain ⟨⟨i, hi, -⟩, -⟩ := h.opened p hp
  rw [h.cycles]
  exact (List.getElem?_eq_some_iff.mp hi).1

omit [Arith F] in
/-- An acknowledgement that finishes the pending command closes it. -/
theorem Accounted.closed_of_finished (h : Accounted history s l)
    (hacked : Acked s.pending next.pending i.command arrival later)
    (hfinished : later.isSome = s.pending.isSome) {n : ℕ} (hn : n ≠ l.cycles) :
    Closed n ((l.record i.command (batch arrival later)).about n) := by
  rw [about_record l hacked.number, if_neg (Ne.symm hn), List.nil_append]
  by_cases hnewest : l.newest = n
  · subst hnewest
    rw [if_pos rfl]
    cases hpending : s.pending with
    | none =>
      obtain rfl : later = none := by simpa [hpending] using hfinished
      simpa using h.closed l.newest (.inl hpending)
    | some p =>
      obtain ⟨f, rfl⟩ := Option.isSome_iff_exists.mp (hfinished.trans (by simp [hpending]))
      obtain ⟨hfinal, p', hp', hseq⟩ := hacked.finishes f rfl
      obtain ⟨-, a, habout, hqueued, haseq⟩ := h.opened p' hp'
      rw [habout]
      exact .finished hqueued (h.newest_lt hp') (hseq.trans haseq.symm) hfinal
  · rw [if_neg hnewest, List.append_nil]
    exact h.closed n (.inr (Ne.symm hnewest))

omit [Arith F] in
/-- A cycle without an acknowledgement for the pending command enters nothing about older commands. -/
theorem about_of_not_finished (hacked : Acked s.pending next.pending i.command arrival none) {n : ℕ}
    (hn : n ≠ l.cycles) : (l.record i.command (batch arrival none)).about n = l.about n := by
  rw [about_record l hacked.number, if_neg (Ne.symm hn)]
  simp

omit [Arith F] in
/-- What is entered about the command that a cycle presents. -/
theorem Accounted.about_presented (h : Accounted history s l)
    (hacked : Acked s.pending next.pending i.command arrival later) :
    (l.record i.command (batch arrival later)).about l.cycles =
      arrival.toList.map (Entry.mk l.cycles l.cycles) := by
  rw [about_record l hacked.number, h.about_cycles, if_pos rfl, List.nil_append]
  split
  · rename_i hnewest
    cases later with
    | none => simp
    | some f =>
      obtain ⟨-, p, hp, -⟩ := hacked.finishes f rfl
      exact absurd hnewest (h.newest_lt hp).ne
  · rw [List.append_nil]

omit [Arith F] in
/-- An arrival that is not queued closes the cycle it was presented in. -/
theorem Accounted.closed_of_idle (h : Accounted history s l)
    (hacked : Acked s.pending next.pending i.command arrival later)
    (hidle : ∀ a ∈ arrival, a.status ≠ .queued) :
    Closed l.cycles ((l.record i.command (batch arrival later)).about l.cycles) := by
  rw [h.about_presented hacked]
  cases arrival with
  | none => exact .absent
  | some a => exact .immediate (hidle a rfl)

omit [Arith F] in
/-- The number of entries a cycle adds with a status, and of those for older commands. -/
theorem Accounted.counts (h : Accounted history s l)
    (hacked : Acked s.pending next.pending i.command arrival later) :
    (l.record i.command (batch arrival later)).entries.countP (fun e => e.ack.status == .queued) =
        l.entries.countP (fun e => e.ack.status == .queued) +
          (arrival.any fun a => a.status == .queued).toNat ∧
      (l.record i.command (batch arrival later)).entries.countP (fun e => e.presented != e.cycle) =
        l.entries.countP (fun e => e.presented != e.cycle) + later.isSome.toNat := by
  obtain ⟨harrival, hlater⟩ := batch_split hacked.number later
  simp only [Ledger.record, Ledger.entriesOf, harrival, hlater, List.countP_append]
  constructor
  · have hnone : (later.toList.map (Entry.mk l.cycles l.newest)).countP
        (fun e => e.ack.status == .queued) = 0 := by
      cases later with
      | none => rfl
      | some f =>
        obtain ⟨hfinal, -⟩ := hacked.finishes f rfl
        have hstatus : f.status ≠ .queued := by
          rcases hfinal with (h | h) | h | h <;> simp [h]
        simp [hstatus]
    rw [hnone, Nat.add_zero]
    cases arrival with
    | none => rfl
    | some a => cases hqueued : a.status == .queued <;> simp [hqueued]
  · have hnone : (arrival.toList.map (Entry.mk l.cycles l.cycles)).countP
        (fun e => e.presented != e.cycle) = 0 := by
      cases arrival <;> simp
    rw [hnone, Nat.zero_add]
    cases later with
    | none => rfl
    | some f =>
      obtain ⟨-, p, hp, -⟩ := hacked.finishes f rfl
      simp [(h.newest_lt hp).ne]

omit [Arith F] in
/-- Every entry is about a cycle that has been. -/
theorem Accounted.bound_record (h : Accounted history s l)
    (hacked : Acked s.pending next.pending i.command arrival later) :
    ∀ e ∈ (l.record i.command (batch arrival later)).entries, e.presented < l.cycles + 1 := by
  obtain ⟨harrival, hlater⟩ := batch_split hacked.number later
  simp only [Ledger.record, Ledger.entriesOf, harrival, hlater, List.mem_append, List.mem_map,
    Option.mem_toList]
  rintro e (he | ⟨a, -, rfl⟩ | ⟨f, hf, rfl⟩)
  · exact (h.bound e he).trans (Nat.lt_succ_self _)
  · exact Nat.lt_succ_self _
  · obtain ⟨-, p, hp, -⟩ := hacked.finishes f hf
    exact (h.newest_lt hp).trans (Nat.lt_succ_self _)

omit [Arith F] in
/-- A live cycle keeps the account. -/
theorem Accounted.live_step (h : Accounted history s l)
    (hacked : Acked s.pending next.pending i.command arrival later) :
    Accounted (history ++ [i]) next (l.record i.command (batch arrival later)) := by
  obtain ⟨hcountQueued, hcountLater⟩ := h.counts hacked
  have hbalance := h.balance
  have hcycles : (l.record i.command (batch arrival later)).cycles = (history ++ [i]).length := by
    simp [Ledger.record, h.cycles]
  have hnewest : (l.record i.command (batch arrival later)).newest =
      if arrival.any fun a => a.status == .queued then l.cycles else l.newest := by
    rw [Ledger.record, (batch_split hacked.number _).1]
  by_cases hqueued : ∃ a ∈ arrival, a.status = .queued
  · -- The arriving command takes the pending slot, whatever was there is finished.
    obtain ⟨a, rfl, hstatus⟩ := hqueued
    obtain ⟨hnext, hfinished⟩ := hacked.queued a rfl hstatus
    obtain ⟨c, hc, hseq⟩ := Option.map_eq_some_iff.mp hacked.number.symm
    simp only [Option.any_some, hstatus, beq_self_eq_true, if_true] at hnewest
    refine ⟨hcycles, h.bound_record hacked, fun p hp => ?_, fun n hn => ?_, ?_⟩
    · rw [hnext, hc] at hp
      obtain rfl := Option.some.inj hp
      rw [hnewest]
      refine ⟨⟨i, by simp [h.cycles], hc⟩, a, h.about_presented hacked, hstatus, hseq.symm⟩
    · rw [hnewest, hnext, hc] at hn
      exact h.closed_of_finished hacked hfinished (by simpa using hn)
    · rw [hcountQueued, hcountLater, hfinished, hnext, hc]
      simp only [Option.any_some, hstatus, beq_self_eq_true, Bool.toNat_true, Option.isSome_some]
      omega
  · have hidle : ∀ a ∈ arrival, a.status ≠ .queued := fun a ha hstatus => hqueued ⟨a, ha, hstatus⟩
    have hany : (arrival.any fun a => a.status == .queued) = false := by
      cases arrival with
      | none => rfl
      | some a => simpa using hidle a rfl
    rw [hany] at hcountQueued hnewest
    rcases hacked.idle hidle with ⟨hnext, hfinished⟩ | ⟨hnext, rfl⟩
    · -- The slot is empty, and what was in it is finished.
      refine ⟨hcycles, h.bound_record hacked, by simp [hnext], fun n _ => ?_, ?_⟩
      · by_cases hn : n = l.cycles
        · exact hn ▸ h.closed_of_idle hacked hidle
        · exact h.closed_of_finished hacked hfinished hn
      · rw [hcountQueued, hcountLater, hfinished, hnext]
        simp only [Bool.toNat_false, Option.isSome_none]
        omega
    · -- The slot is as it was.
      refine ⟨hcycles, h.bound_record hacked, fun p hp => ?_, fun n hn => ?_, ?_⟩
      · rw [hnext] at hp
        obtain ⟨⟨j, hj, hcommand⟩, hopen⟩ := h.opened p hp
        have hlt : l.newest < history.length := h.cycles ▸ h.newest_lt hp
        simp only [Bool.false_eq_true, if_false] at hnewest
        rw [hnewest, about_of_not_finished hacked (h.newest_lt hp).ne]
        exact ⟨⟨j, by rw [List.getElem?_append_left hlt, hj], hcommand⟩, hopen⟩
      · simp only [Bool.false_eq_true, if_false] at hnewest
        rw [hnext, hnewest] at hn
        by_cases hcycle : n = l.cycles
        · exact hcycle ▸ h.closed_of_idle hacked hidle
        · rw [about_of_not_finished hacked hcycle]
          exact h.closed n hn
      · rw [hcountQueued, hcountLater, hnext]
        simpa using hbalance

omit [Arith F] in
/-- The command of a cycle is run at most once. -/
theorem Accounted.applied_le (h : Accounted history s l) (n : ℕ) :
    (l.about n).countP (fun e => decide (IsApplied e.ack)) ≤ 1 := by
  by_cases hopen : s.pending = none ∨ n ≠ l.newest
  · have hclosed := h.closed n hopen
    generalize l.about n = entries at hclosed
    cases hclosed with
    | absent => exact Nat.zero_le _
    | immediate => exact List.countP_le_length
    | @finished a f _ hqueued _ _ _ =>
      have ha : ¬IsApplied a := by simp [IsApplied, hqueued]
      by_cases hf : IsApplied f <;> simp [ha, hf]
  · obtain ⟨hpending, rfl⟩ : s.pending ≠ none ∧ n = l.newest := by simpa using hopen
    obtain ⟨p, hp⟩ := Option.ne_none_iff_exists'.mp hpending
    obtain ⟨-, b, hone, -⟩ := h.opened p hp
    rw [hone]
    exact List.countP_le_length

omit [Arith F] in
/-- A cycle without acknowledgements leaves the account, when nothing is pending. -/
theorem Accounted.dead_step (h : Accounted history s l) (hpending : s.pending = none) :
    Accounted (history ++ [i]) s (l.record i.command []) := by
  have hentries : l.entriesOf i.command [] = [] := by
    cases hcommand : i.command <;> simp [Ledger.entriesOf, arrivalAck, laterAcks]
  have hrecord : (l.record i.command []).entries = l.entries := by
    rw [Ledger.record, hentries, List.append_nil]
  have habout (n : ℕ) : (l.record i.command []).about n = l.about n := by
    rw [Ledger.about, hrecord, Ledger.about]
  refine ⟨by simp [Ledger.record, h.cycles], fun e he => ?_, by simp [hpending], fun n _ => ?_, ?_⟩
  · rw [hrecord] at he
    exact (h.bound e he).trans (Nat.lt_succ_self _)
  · rw [habout]
    exact h.closed n (.inl hpending)
  · rw [hrecord]
    exact h.balance

end Step

/-- The account of every history. -/
theorem accounted_run (autoArm : Bool) (history : List (EpisodeInput F)) :
    Accounted history (stateAfter autoArm history) (ledger autoArm history) := by
  induction history using List.reverseRecOn with
  | nil => exact ⟨rfl, nofun, by simp [stateAfter, initial], fun _ _ => .absent, rfl⟩
  | append_singleton history i ih =>
    rw [stateAfter_concat, ledger_concat]
    by_cases hmode : (stateAfter autoArm history).mode = .terminated
    · rw [step_of_terminated hmode]
      exact ih.dead_step ((sound_run autoArm history).cleared hmode)
    · obtain ⟨arrival, later, hacks, hacked⟩ := (step_outcome (stateAfter autoArm history) i).acked hmode
      rw [hacks]
      exact ih.live_step hacked

/-- The first entry about a command presented to a live machine answers its arrival. -/
theorem about_head (autoArm : Bool) (history : List (EpisodeInput F)) {n : ℕ} {i : EpisodeInput F}
    (hi : history[n]? = some i) {c : Command} (hc : i.command = some c)
    (hlive : (stateAfter autoArm (history.take n)).mode ≠ .terminated) :
    ∃ a rest, (ledger autoArm history).about n = ⟨n, n, a⟩ :: rest ∧ a.cmdSeq = c.cmdSeq := by
  induction history using List.reverseRecOn with
  | nil => nomatch hi
  | append_singleton history j ih =>
    have happend : (ledger autoArm (history ++ [j])).about n =
        (ledger autoArm history).about n ++ ((ledger autoArm history).entriesOf j.command
          (step (stateAfter autoArm history) j).acks).filter fun e => e.presented == n := by
      rw [ledger_concat]
      exact List.filter_append ..
    rcases Nat.lt_or_ge n history.length with hn | hn
    · rw [List.getElem?_append_left hn] at hi
      rw [List.take_append_of_le_length hn.le] at hlive
      obtain ⟨a, rest, habout, hseq⟩ := ih hi hlive
      rw [happend, habout]
      exact ⟨a, _, rfl, hseq⟩
    · -- The command arrives in the last cycle.
      have hlast : n = history.length := by
        have hlt := (List.getElem?_eq_some_iff.mp hi).1
        simp only [List.length_append, List.length_singleton] at hlt
        omega
      subst hlast
      obtain rfl : j = i := by simpa using hi
      rw [List.take_left] at hlive
      have haccount := accounted_run autoArm history
      obtain ⟨arrival, later, hacks, hacked⟩ := (step_outcome (stateAfter autoArm history) j).acked hlive
      have hpresented := haccount.about_presented hacked
      rw [← hacks, ← ledger_concat, haccount.cycles] at hpresented
      obtain ⟨a, rfl, hseq⟩ := Option.map_eq_some_iff.mp (hacked.number.trans (congrArg _ hc))
      exact ⟨a, [], hpresented, hseq⟩

/-- Every entry is about a command that a cycle presented under the number it gives. -/
theorem presented_run (autoArm : Bool) (history : List (EpisodeInput F)) :
    ∀ e ∈ (ledger autoArm history).entries, ∃ i c, history[e.presented]? = some i ∧ i.command = some c ∧
      e.ack.cmdSeq = c.cmdSeq := by
  induction history using List.reverseRecOn with
  | nil => nofun
  | append_singleton history i ih =>
    have haccount := accounted_run autoArm history
    have hearlier {n : ℕ} {j : EpisodeInput F} (hj : history[n]? = some j) : (history ++ [i])[n]? = some j := by
      rw [List.getElem?_append_left (List.getElem?_eq_some_iff.mp hj).1, hj]
    intro e he
    rw [ledger_concat, Ledger.record] at he
    rcases List.mem_append.mp he with he | he
    · obtain ⟨j, c, hj, hpresented⟩ := ih e he
      exact ⟨j, c, hearlier hj, hpresented⟩
    · by_cases hmode : (stateAfter autoArm history).mode = .terminated
      · rw [step_of_terminated hmode] at he
        cases hcommand : i.command <;> simp [Ledger.entriesOf, arrivalAck, laterAcks, hcommand] at he
      · obtain ⟨arrival, later, hacks, hacked⟩ := (step_outcome (stateAfter autoArm history) i).acked hmode
        obtain ⟨harrival, hlater⟩ := batch_split hacked.number later
        rw [hacks, Ledger.entriesOf, harrival, hlater, List.mem_append, List.mem_map, List.mem_map] at he
        rcases he with ⟨a, ha, rfl⟩ | ⟨f, hf, rfl⟩
        · obtain ⟨c, hc, hseq⟩ := Option.map_eq_some_iff.mp
            (hacked.number.symm.trans (congrArg _ (Option.mem_toList.mp ha)))
          exact ⟨i, c, by simp [haccount.cycles], hc, hseq.symm⟩
        · obtain ⟨-, p, hp, hseq⟩ := hacked.finishes f (Option.mem_toList.mp hf)
          obtain ⟨⟨j, hj, hcommand⟩, -⟩ := haccount.opened p hp
          exact ⟨j, p, hearlier hj, hcommand, hseq⟩

/-- The ledger enters each presented command as run at most once. -/
theorem applied_nodup (autoArm : Bool) (history : List (EpisodeInput F)) :
    (((ledger autoArm history).entries.filter fun e => decide (IsApplied e.ack)).map Entry.presented).Nodup := by
  refine List.nodup_iff_count_le_one.mpr fun n => ?_
  have hcount := (accounted_run autoArm history).applied_le n
  rw [Ledger.about, List.countP_filter] at hcount
  rw [List.count, List.countP_map, List.countP_filter]
  refine (List.countP_congr fun e _ => ?_).trans_le hcount
  simp [and_comm]

/-- What a ledger shows of a presented command: one acknowledgement of its arrival, and one more
if it was queued and is not pending. -/
inductive Answered (pending : Option Command) (n : ℕ) (c : Command) : List Entry → Prop
  | immediate {a : Ack} (hseq : a.cmdSeq = c.cmdSeq) (hstatus : a.status ≠ .queued) :
      Answered pending n c [⟨n, n, a⟩]
  | opened {a : Ack} (hseq : a.cmdSeq = c.cmdSeq) (hqueued : a.status = .queued)
      (hpending : pending = some c) : Answered pending n c [⟨n, n, a⟩]
  | finished {a f : Ack} {m : ℕ} (hseq : a.cmdSeq = c.cmdSeq) (hqueued : a.status = .queued)
      (hlater : n < m) (hfinal : IsFinal f) (hsame : f.cmdSeq = c.cmdSeq) :
      Answered pending n c [⟨n, n, a⟩, ⟨m, n, f⟩]

/-- The acknowledgements of every history, and of the cycle that follows it: a presented command is
acknowledged at once and under its number, a queued one exactly once more unless it is pending, and
no command is run twice. -/
theorem acknowledgements_accounted (autoArm : Bool) (history : List (EpisodeInput F)) :
    let s := stateAfter autoArm history
    let l := ledger autoArm history
    (∀ i, (step s i).acks.length ≤ 2 ∧ (step s i).acks.countP (fun a => decide (IsApplied a)) ≤ 1 ∧
      (s.mode = .terminated → (step s i).acks = []) ∧
      (s.mode ≠ .terminated →
        (arrivalAck i.command (step s i).acks).map Ack.cmdSeq = i.command.map Command.cmdSeq)) ∧
      l.entries.map Entry.ack =
        (Machine.run advance (initial autoArm) history).2.flatMap EpisodeOutput.acks ∧
      (∀ n i, history[n]? = some i → ∀ c ∈ i.command,
        (stateAfter autoArm (history.take n)).mode ≠ .terminated → Answered s.pending n c (l.about n)) ∧
      (∀ n, (l.about n).countP (fun e => decide (IsApplied e.ack)) ≤ 1) ∧
      l.entries.countP (fun e => e.ack.status == .queued) =
        l.entries.countP (fun e => e.presented != e.cycle) + s.pending.isSome.toNat := by
  intro s l
  have haccount : Accounted history s l := accounted_run autoArm history
  refine ⟨fun i => ?_, ledger_acks autoArm history, fun n i hi c hc hlive => ?_,
    haccount.applied_le, haccount.balance⟩
  · by_cases hmode : s.mode = .terminated
    · rw [(step_outcome s i).acks_of_terminated hmode]
      exact ⟨Nat.zero_le _, Nat.zero_le _, fun _ => rfl, fun hlive => absurd hmode hlive⟩
    · obtain ⟨arrival, later, hacks, hacked⟩ := (step_outcome s i).acked hmode
      rw [hacks]
      refine ⟨hacked.batch_le.1, hacked.batch_le.2, fun h => absurd h hmode, fun _ => ?_⟩
      rw [(batch_split hacked.number _).1]
      exact hacked.number
  · obtain ⟨a, rest, habout, hseq⟩ := about_head autoArm history hi hc hlive
    by_cases hopen : s.pending = none ∨ n ≠ l.newest
    · have hclosed := haccount.closed n hopen
      have habout : l.about n = ⟨n, n, a⟩ :: rest := habout
      rw [habout] at hclosed ⊢
      cases hclosed with
      | immediate hstatus => exact .immediate hseq hstatus
      | finished hqueued hlater hsame hfinal => exact .finished hseq hqueued hlater hfinal (hsame.trans hseq)
    · obtain ⟨hpending, rfl⟩ : s.pending ≠ none ∧ n = l.newest := by simpa using hopen
      obtain ⟨p, hp⟩ := Option.ne_none_iff_exists'.mp hpending
      obtain ⟨⟨j, hj, hcommand⟩, b, hone, hqueued, -⟩ := haccount.opened p hp
      have habout : l.about l.newest = ⟨l.newest, l.newest, a⟩ :: rest := habout
      obtain ⟨heq, rfl⟩ := List.cons.inj (habout.symm.trans hone)
      obtain rfl : a = b := congrArg Entry.ack heq
      obtain rfl : i = j := Option.some.inj (hi.symm.trans hj)
      obtain rfl : c = p := Option.some.inj (Eq.trans (Eq.symm hc) hcommand)
      rw [habout]
      exact .opened hseq hqueued hp

end Tvc.Episode
