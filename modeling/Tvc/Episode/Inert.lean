import Tvc.Episode.Acknowledgement

/-!
# Rejected commands leave no trace

A command that is refused as a duplicate, as stale, for its opcode or identity, or because the
pending slot is taken could as well not have arrived: the cycle without it leaves the same state,
drives the same and makes the same other acknowledgement. So such commands can be deleted from a
run.
-/

namespace Tvc.Episode

variable {F : Type}

instance : DecidablePred Inert := fun status =>
  inferInstanceAs (Decidable (status = .duplicate ∨ status = .rejectedPending ∨
    status = .rejectedIdentity ∨ status = .rejectedOpcode ∨ status = .rejectedStale))

/-- The command of a cycle was refused with an inert status. -/
def isRefused (command : Option Command) (acks : List Ack) : Bool :=
  (arrivalAck command acks).any fun a => decide (Inert a.status)

/-- An input without its command. -/
def silenced (i : EpisodeInput F) : EpisodeInput F := { i with command := none }

/-- A command that is run is not refused. -/
theorem Applied.not_inert {s : EpisodeState F} {c : Command} {tick : ℕ} {x : EpisodeState F × Ack}
    (h : Applied s c tick x) : ¬Inert x.2.status := by
  cases h with
  | moved hstatus => rcases hstatus with h | h <;> simp [Inert, h]
  | aborted hstatus => rcases hstatus with h | h <;> simp [Inert, h]
  | refused => simp [Inert]

/-- A command that passes its checks is not refused. -/
theorem accept_not_inert (s : EpisodeState F) (tick : ℕ) (c : Command) : ¬Inert (accept s tick c).2.status := by
  unfold accept
  split
  · simp [Inert]
  · exact (apply_applied _ c tick).not_inert

/-- The commands of a cycle whose arrival is refused do what they do without it. -/
theorem handle_of_refused {s : EpisodeState F} {tick : ℕ} {c : Command} {a : Ack}
    (ha : (handle s tick (some c)).2.1 = some a) (hinert : Inert a.status) :
    (handle s tick none).1 = (handle s tick (some c)).1 ∧ (handle s tick none).2.1 = none ∧
      (handle s tick none).2.2 = (handle s tick (some c)).2.2 := by
  unfold handle at ha ⊢
  cases hscreen : screen s c with
  | none =>
    rw [arrive_of_screen_none hscreen] at ha
    obtain rfl := Option.some.inj ha
    exact absurd hinert (accept_not_inert _ tick c)
  | some status =>
    rw [arrive_of_screen_some hscreen]
    exact ⟨rfl, rfl, rfl⟩

variable [Arith F]

/-- A cycle that a reason ends is the same without its command, but for the refusal. -/
theorem terminate_silenced (s : EpisodeState F) (i : EpisodeInput F) (reason : Reason) :
    (terminate s (silenced i) reason).state = (terminate s i reason).state ∧
      (terminate s (silenced i) reason).requestedDelta = (terminate s i reason).requestedDelta ∧
      (terminate s (silenced i) reason).acks = laterAcks i.command (terminate s i reason).acks := by
  cases hcommand : i.command with
  | none => simp [terminate, silenced, hcommand, laterAcks, batch]
  | some c => simp [terminate, silenced, hcommand, laterAcks, batch]

/-- A cycle with a refused command does what it does without the command, but for the refusal. -/
theorem step_silenced {s : EpisodeState F} {i : EpisodeInput F} (hlive : s.mode ≠ .terminated)
    (h : isRefused i.command (step s i).acks = true) :
    (step s (silenced i)).state = (step s i).state ∧
      (step s (silenced i)).requestedDelta = (step s i).requestedDelta ∧
      (step s (silenced i)).acks = laterAcks i.command (step s i).acks := by
  by_cases hreason : endReason s i = .none
  · have hreason' : endReason s (silenced i) = .none := hreason
    rw [step_of_live hlive hreason] at h ⊢
    rw [step_of_live hlive hreason']
    have hdrive (next : EpisodeState F) : drive next (silenced i) = drive next i := rfl
    have hcounted : counted s (silenced i) = counted s i := rfl
    have hnone : (silenced i).command = none := rfl
    have htick : (silenced i).tick = i.tick := rfl
    simp only [hdrive, hcounted, hnone, htick] at h ⊢
    generalize { counted s i with terminal := none } = next at h ⊢
    obtain ⟨harrival, hlater⟩ := batch_split
      (handle_handled next i.tick i.command).acked.number (handle next i.tick i.command).2.2
    rw [isRefused, harrival] at h
    rw [hlater]
    obtain ⟨a, ha, hinert⟩ := (Option.any_eq_true _ _).mp h
    cases hcommand : i.command with
    | none =>
      rw [hcommand] at ha
      nomatch ha
    | some c =>
      rw [hcommand] at ha
      obtain ⟨hstate, hquiet, hrest⟩ := handle_of_refused ha (of_decide_eq_true hinert)
      rw [hstate, hquiet, hrest]
      exact ⟨rfl, rfl, rfl⟩
  · have hreason' : endReason s (silenced i) ≠ .none := hreason
    rw [step_of_stopped hlive hreason, step_of_stopped hlive hreason']
    exact terminate_silenced (counted s i) i (endReason s i)

/-! ## Runs -/

/-- An input without its command, if the command is refused. -/
def purgeInput (s : EpisodeState F) (i : EpisodeInput F) : EpisodeInput F :=
  if isRefused i.command (step s i).acks then silenced i else i

/-- An output without the acknowledgement of a refused command. -/
def purgeOutput (i : EpisodeInput F) (r : EpisodeOutput F) : EpisodeOutput F :=
  if isRefused i.command r.acks then { r with acks := laterAcks i.command r.acks } else r

/-- The inputs of a run without the commands that it refuses. -/
def purge : EpisodeState F → List (EpisodeInput F) → List (EpisodeInput F)
  | _, [] => []
  | s, i :: rest => purgeInput s i :: purge (step s i).state rest

/-- One cycle without a refused command. -/
theorem step_purged (s : EpisodeState F) (i : EpisodeInput F) :
    step s (purgeInput s i) = purgeOutput i (step s i) := by
  unfold purgeInput purgeOutput
  split
  · rename_i hrefused
    by_cases hmode : s.mode = .terminated
    · rw [step_of_terminated hmode] at hrefused
      cases hcommand : i.command <;> simp [isRefused, arrivalAck, hcommand] at hrefused
    · obtain ⟨hstate, hdelta, hacks⟩ := step_silenced hmode hrefused
      generalize step s (silenced i) = r at hstate hdelta hacks
      obtain ⟨state, delta, acks⟩ := r
      subst hstate hdelta hacks
      rfl
  · rfl

/-- Deleting the refused commands of a run changes no state, no command to the actuator and no other
acknowledgement. -/
theorem run_purged (s : EpisodeState F) (inputs : List (EpisodeInput F)) :
    Machine.run advance s (purge s inputs) =
      ((Machine.run advance s inputs).1,
        List.zipWith purgeOutput inputs (Machine.run advance s inputs).2) := by
  induction inputs generalizing s with
  | nil => rfl
  | cons i rest ih =>
    have hstate : (purgeOutput i (step s i)).state = (step s i).state := by
      unfold purgeOutput
      split <;> rfl
    rw [purge, Machine.run_cons, Machine.run_cons, advance, step_purged, hstate, ih]
    rfl

/-- A refused command is inert: the cycle without it is the same but for the refusal, from every
live state and for every input, and a run without its refused commands is the same run. -/
theorem rejected_commands_inert (s : EpisodeState F) :
    (s.mode ≠ .terminated → ∀ i, ∀ a ∈ arrivalAck i.command (step s i).acks, Inert a.status →
      step s { i with command := none } = { step s i with acks := (step s i).acks.tail }) ∧
      ∀ inputs, Machine.run advance s (purge s inputs) =
        ((Machine.run advance s inputs).1,
          List.zipWith purgeOutput inputs (Machine.run advance s inputs).2) := by
  refine ⟨fun hlive i a ha hinert => ?_, run_purged s⟩
  have hrefused : isRefused i.command (step s i).acks = true :=
    (Option.any_eq_true _ _).mpr ⟨a, ha, decide_eq_true hinert⟩
  obtain ⟨c, hc⟩ : ∃ c, i.command = some c := by
    cases hcommand : i.command with
    | none => simp [arrivalAck, hcommand] at ha
    | some c => exact ⟨c, rfl⟩
  have htail : laterAcks i.command (step s i).acks = (step s i).acks.tail := by simp [laterAcks, hc]
  have hpurged := step_purged s i
  rwa [purgeInput, purgeOutput, if_pos hrefused, if_pos hrefused, htail] at hpurged

end Tvc.Episode
