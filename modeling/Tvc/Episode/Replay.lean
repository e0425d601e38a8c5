import Tvc.Lib.SerialNumber
import Tvc.Episode.Acknowledgement

/-!
# Replayed commands

The machine remembers one command, the last it accepted. The numbers of the commands it has
accepted follow each other, so that one number is enough to turn back every earlier one that lies
within half the range.
-/

namespace Tvc.Episode

open SerialNumber

variable {F : Type}

/-! ## The checks before the pending slot -/

/-- One of the three opcodes. -/
def isKnown (c : Command) : Bool := isOpcode c .arm || isOpcode c .launch || isOpcode c .abort

/-- The source's test for an unknown opcode. -/
theorem not_isKnown (c : Command) :
    (!isOpcode c .arm && !isOpcode c .launch && !isOpcode c .abort) = !isKnown c := by
  simp [isKnown]

/-- A command that passes has a number that follows the last accepted one. -/
theorem follows_of_prefixStatus {c last : Command} (h : prefixStatus c (some last) = none) :
    Follows last.cmdSeq c.cmdSeq := by
  unfold prefixStatus at h
  dsimp only at h
  repeat' split at h
  all_goals first | contradiction | skip
  rename_i _ _ hgap
  simp only [Bool.or_eq_true, beq_iff_eq, decide_eq_true_eq, not_or, BitVec.not_le] at hgap
  have hzero : (c.cmdSeq - last.cmdSeq).toNat ≠ 0 := fun hzero => hgap.1 (BitVec.eq_of_toNat_eq (by simpa using hzero))
  have hhalf : (c.cmdSeq - last.cmdSeq).toNat < 2 ^ 31 := hgap.2
  exact ⟨Nat.one_le_iff_ne_zero.mpr hzero, hhalf⟩

/-- An unknown opcode is refused as such. -/
theorem prefixStatus_of_unknown {c : Command} (h : isKnown c = false) (last : Option Command) :
    prefixStatus c last = some .rejectedOpcode := by
  simp [prefixStatus, not_isKnown, h]

/-- The last accepted number again is a duplicate or another command's number. -/
theorem prefixStatus_of_same {c last : Command} (h : isKnown c = true) (hsame : c.cmdSeq = last.cmdSeq) :
    prefixStatus c (some last) = some .duplicate ∨ prefixStatus c (some last) = some .rejectedIdentity := by
  simp only [prefixStatus, not_isKnown, h, Bool.not_true, Bool.false_eq_true, if_false, hsame, beq_self_eq_true, if_true]
  split
  · exact .inl rfl
  · exact .inr rfl

/-- A number that is half the range or more ahead is stale. -/
theorem prefixStatus_of_far {c last : Command} (h : isKnown c = true) (hfar : 2 ^ 31 ≤ gap last.cmdSeq c.cmdSeq) :
    prefixStatus c (some last) = some .rejectedStale := by
  have hne : (c.cmdSeq == last.cmdSeq) = false := by
    rw [beq_eq_false_iff_ne]
    rintro heq
    simp [gap, heq] at hfar
  have hstale : (0x80000000#32 ≤ c.cmdSeq - last.cmdSeq) := hfar
  simp [prefixStatus, not_isKnown, h, hne, hstale]

variable [Arith F] {s : EpisodeState F} {i : EpisodeInput F} {r : EpisodeOutput F}

/-! ## Acceptance -/

/-- A cycle accepts its command or keeps the last accepted one. -/
theorem Outcome.lastAccepted (h : Outcome s i r) :
    r.state.lastAccepted = s.lastAccepted ∨
      ∃ c, i.command = some c ∧ prefixStatus c s.lastAccepted = none ∧ r.state.lastAccepted = some c := by
  cases h with
  | ended => exact .inl rfl
  | stopped => exact .inl rfl
  | ran _ _ hhandled =>
    rw [drive_lastAccepted]
    generalize hcommand : i.command = command at hhandled
    cases hhandled with
    | kept => exact .inl rfl
    | due _ _ _ happlied => exact .inl happlied.frame.2.1
    | queued hscreen _ => exact .inr ⟨_, rfl, prefixStatus_of_screen hscreen, rfl⟩
    | ran hscreen _ happlied => exact .inr ⟨_, rfl, prefixStatus_of_screen hscreen, happlied.frame.2.1⟩

/-- A command that fails a check before the pending slot is acknowledged with that status. -/
theorem step_of_prefixStatus {c : Command} {status : AckStatus} (hlive : s.mode ≠ .terminated)
    (hcommand : i.command = some c) (hstatus : prefixStatus c s.lastAccepted = some status) :
    (step s i).state.lastAccepted = s.lastAccepted ∧
      ∃ a, arrivalAck i.command (step s i).acks = some a ∧ a.status = status := by
  constructor
  · rcases (step_outcome s i).lastAccepted with hkept | ⟨c', hc', hpassed, -⟩
    · exact hkept
    · obtain rfl := Option.some.inj (hcommand.symm.trans hc')
      rw [hstatus] at hpassed
      contradiction
  · by_cases hreason : endReason s i = .none
    · have hscreen : screen { counted s i with terminal := none } c = some status := by
        have hkept : prefixStatus c (counted s i).lastAccepted = some status := hstatus
        simp [screen, hkept]
      rw [step_of_live hlive hreason, hcommand]
      dsimp only [handle]
      rw [arrive_of_screen_some hscreen]
      exact ⟨_, rfl, rfl⟩
    · have hkept : prefixStatus c (counted s i).lastAccepted = some status := hstatus
      rw [step_of_stopped hlive hreason, hcommand]
      simp only [terminate, hcommand, Option.map_some, hkept, Option.getD_some]
      exact ⟨_, rfl, rfl⟩

/-- The command a cycle accepts: the one it sets as the last accepted. -/
def acceptedIn (s : EpisodeState F) (i : EpisodeInput F) : Option Command :=
  if (step s i).state.lastAccepted = s.lastAccepted then none else (step s i).state.lastAccepted

/-- The commands a run accepts, in order. -/
def accepted : EpisodeState F → List (EpisodeInput F) → List Command
  | _, [] => []
  | s, i :: rest => (acceptedIn s i).toList ++ accepted (step s i).state rest

/-- The commands accepted by one more cycle. -/
theorem accepted_concat (s : EpisodeState F) (history : List (EpisodeInput F)) (i : EpisodeInput F) :
    accepted s (history ++ [i]) =
      accepted s history ++ (acceptedIn (Machine.run advance s history).1 i).toList := by
  induction history generalizing s with
  | nil => simp [accepted]
  | cons j rest ih =>
    rw [List.cons_append, accepted, ih, accepted, List.append_assoc]
    rfl

/-- What the accepted commands of a run keep. -/
structure InOrder (s : EpisodeState F) (commands : List Command) : Prop where
  last : s.lastAccepted = commands.getLast?
  chain : (commands.map Command.cmdSeq).IsChain Follows

/-- A cycle keeps the accepted commands in order. -/
theorem InOrder.accepted_step {commands : List Command} (h : InOrder s commands) (i : EpisodeInput F) :
    InOrder (step s i).state (commands ++ (acceptedIn s i).toList) := by
  rcases (step_outcome s i).lastAccepted with hkept | ⟨c, -, hpassed, hset⟩
  · rw [acceptedIn, if_pos hkept, Option.toList_none, List.append_nil]
    exact ⟨hkept.trans h.last, h.chain⟩
  · have hne : (step s i).state.lastAccepted ≠ s.lastAccepted := by
      intro heq
      rw [← heq, hset] at hpassed
      have hfollows := follows_of_prefixStatus hpassed
      simp [Follows, gap] at hfollows
    rw [acceptedIn, if_neg hne, hset, Option.toList_some]
    refine ⟨by rw [hset, List.getLast?_concat], ?_⟩
    rw [List.map_append, List.map_singleton, List.isChain_append]
    refine ⟨h.chain, List.isChain_singleton _, fun a ha b hb => ?_⟩
    obtain rfl : c.cmdSeq = b := by simpa using hb
    rw [List.getLast?_map, ← h.last, Option.mem_map] at ha
    obtain ⟨last, hlast, rfl⟩ := ha
    rw [Option.mem_def.mp hlast] at hpassed
    exact follows_of_prefixStatus hpassed

/-- The accepted commands of every history are in order. -/
theorem accepted_inOrder (autoArm : Bool) (history : List (EpisodeInput F)) :
    InOrder (stateAfter autoArm history) (accepted (initial autoArm) history) := by
  induction history using List.reverseRecOn with
  | nil => exact ⟨rfl, .nil⟩
  | append_singleton history i ih =>
    rw [stateAfter_concat, accepted_concat]
    exact ih.accepted_step i

omit [Arith F] in
/-- The status under which the number of an accepted command is refused. -/
theorem InOrder.replayed {commands : List Command} (h : InOrder s commands) {k : ℕ} {a : Command}
    (ha : commands[k]? = some a) (hspan : span ((commands.drop k).map Command.cmdSeq) ≤ 2 ^ 31) {c : Command}
    (hc : c.cmdSeq = a.cmdSeq) :
    ∃ status, prefixStatus c s.lastAccepted = some status ∧
      if isKnown c = false then status = .rejectedOpcode
      else if k + 1 = commands.length then status = .duplicate ∨ status = .rejectedIdentity
      else status = .rejectedStale := by
  cases hknown : isKnown c with
  | false => exact ⟨_, prefixStatus_of_unknown hknown _, by simp⟩
  | true =>
    obtain ⟨hk, hget⟩ := List.getElem?_eq_some_iff.mp ha
    have hdrop : commands.drop k = a :: commands.drop (k + 1) := by rw [List.drop_eq_getElem_cons hk, hget]
    have hlast : s.lastAccepted = some ((a :: commands.drop (k + 1)).getLast (List.cons_ne_nil _ _)) := by
      rw [h.last, ← List.getLast?_eq_some_getLast, ← hdrop, List.getLast?_drop, if_neg (by omega)]
    rw [hlast]
    by_cases hnewest : k + 1 = commands.length
    · have hnil : commands.drop (k + 1) = [] := List.drop_of_length_le hnewest.ge
      simp only [hnil, List.getLast_singleton]
      rcases prefixStatus_of_same hknown hc with hstatus | hstatus
      · exact ⟨_, hstatus, by simp [hnewest]⟩
      · exact ⟨_, hstatus, by simp [hnewest]⟩
    · -- The last accepted number is ahead of this one, by at most half the range.
      obtain ⟨b, rest, hrest⟩ : ∃ b rest, commands.drop (k + 1) = b :: rest := by
        refine List.exists_cons_of_ne_nil fun hnil => hnewest ?_
        have hle := List.drop_eq_nil_iff.mp hnil
        omega
      have hchain : ((commands.drop k).map Command.cmdSeq).IsChain Follows := by
        rw [List.map_drop]
        exact h.chain.drop k
      rw [hdrop, hrest] at hchain hspan
      have hfar := half_le_gap_back (span_pos hchain) hspan
      have hmap : ((a :: b :: rest).map Command.cmdSeq).getLast (List.cons_ne_nil _ _) =
          ((a :: b :: rest).getLast (List.cons_ne_nil _ _)).cmdSeq := List.getLast_map _
      have hfar : 2 ^ 31 ≤ gap ((a :: b :: rest).getLast (List.cons_ne_nil _ _)).cmdSeq a.cmdSeq := hmap ▸ hfar
      rw [← hc] at hfar
      simp only [hrest]
      exact ⟨_, prefixStatus_of_far hknown hfar, by simp [hnewest]⟩

/-- Replay protection: the numbers of the accepted commands of a run follow each other, and none
that lies within half the range of the last one is accepted again. -/
theorem command_replay_protected (autoArm : Bool) (history : List (EpisodeInput F)) :
    let commands := accepted (initial autoArm) history
    let s := stateAfter autoArm history
    s.lastAccepted = commands.getLast? ∧
      commands.IsChain (fun a b => 1 ≤ (b.cmdSeq - a.cmdSeq).toNat ∧ (b.cmdSeq - a.cmdSeq).toNat < 2 ^ 31) ∧
      ∀ k a, commands[k]? = some a → span ((commands.drop k).map Command.cmdSeq) ≤ 2 ^ 31 →
        s.mode ≠ .terminated → ∀ i c, i.command = some c → c.cmdSeq = a.cmdSeq →
          (step s i).state.lastAccepted = s.lastAccepted ∧
            ∃ ack, arrivalAck i.command (step s i).acks = some ack ∧
              if isKnown c = false then ack.status = .rejectedOpcode
              else if k + 1 = commands.length then
                ack.status = .duplicate ∨ ack.status = .rejectedIdentity
              else ack.status = .rejectedStale := by
  intro commands s
  have horder : InOrder s commands := accepted_inOrder autoArm history
  refine ⟨horder.last, (List.isChain_map _).mp horder.chain, fun k a ha hspan hlive i c hi hc => ?_⟩
  obtain ⟨status, hstatus, hkind⟩ := horder.replayed ha hspan hc
  obtain ⟨hkept, ack, hack, rfl⟩ := step_of_prefixStatus hlive hi hstatus
  exact ⟨hkept, ack, hack, hkind⟩

end Tvc.Episode
