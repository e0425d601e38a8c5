import Tvc.Harness.CommandLine

/-!
# The configuration as a text

A summary says which mitigations its run was configured with: `config_string` of `src/main.cpp` writes them for a
harness run, `freerun::run` of `src/freerun.cpp` for a free run. Both are words with single blanks between them.
-/

namespace Tvc.Harness

/-- `std::to_string` of an integer. -/
def toString (n : ℤ) : Text := Text.integer n

/-- A word with a blank behind it, if the condition holds. -/
def wordIf (condition : Bool) (word : Text) : Text := if condition then word ++ [' '] else []

/-- `config_string`. -/
def configString (c : Config) : Text :=
  let s := (if c.absDeadline then text "abs-deadline " else text "sleep_for ") ++ wordIf c.mlock (text "mlock") ++
    wordIf (decide (0 < c.fifoPrio)) (text "fifo:" ++ toString c.fifoPrio) ++
    wordIf (decide (0 ≤ c.cpu)) (text "cpu:" ++ toString c.cpu) ++
    (if c.naiveLog then text "naive-log " else text "no-alloc ") ++ wordIf c.telemetry (text "telemetry") ++
    wordIf c.recordControl (text "record:control")
  if !s.isEmpty && s.getLast? == some ' ' then s.dropLast else s

/-- A word with a blank in front of it, if the condition holds. -/
def wordAfterIf (condition : Bool) (word : Text) : Text := if condition then ' ' :: word else []

/-- The `config` of `freerun::run`. -/
def freerunConfig (c : Config) : Text :=
  text "mode:freerun abs-deadline" ++ wordAfterIf c.mlock (text "mlock") ++
    wordAfterIf (decide (0 < c.fifoPrio)) (text "fifo:" ++ toString c.fifoPrio) ++
    wordAfterIf (decide (0 ≤ c.cpu)) (text "cpu:" ++ toString c.cpu) ++ text " telemetry record:control"

/-! ## The words -/

/-- A word, if the condition holds. -/
def given (condition : Bool) (word : Text) : List Text := if condition then [word] else []

/-- The words of `config_string`. -/
def configWords (c : Config) : List Text :=
  (if c.absDeadline then text "abs-deadline" else text "sleep_for") :: given c.mlock (text "mlock") ++
    given (decide (0 < c.fifoPrio)) (text "fifo:" ++ toString c.fifoPrio) ++
    given (decide (0 ≤ c.cpu)) (text "cpu:" ++ toString c.cpu) ++
    [if c.naiveLog then text "naive-log" else text "no-alloc"] ++ given c.telemetry (text "telemetry") ++
    given c.recordControl (text "record:control")

/-- The words of a free run. -/
def freerunWords (c : Config) : List Text :=
  [text "mode:freerun", text "abs-deadline"] ++ given c.mlock (text "mlock") ++
    given (decide (0 < c.fifoPrio)) (text "fifo:" ++ toString c.fifoPrio) ++
    given (decide (0 ≤ c.cpu)) (text "cpu:" ++ toString c.cpu) ++ [text "telemetry", text "record:control"]

/-- Words with a blank behind each are words with blanks between them, and one more. -/
theorem terminated_eq {words : List Text} (h : words ≠ []) :
    Text.terminated ' ' words = [' '].intercalate words ++ [' '] := by
  induction words with
  | nil => exact absurd rfl h
  | cons word rest ih =>
    cases rest with
    | nil => simp [Text.terminated]
    | cons next rest =>
      have htail := ih (List.cons_ne_nil _ _)
      unfold Text.terminated at htail ⊢
      rw [List.flatMap_cons, htail, List.intercalate_cons_cons]
      simp

/-- Words with a blank in front of each but the first are words with blanks between them. -/
theorem flatMap_blank (first : Text) (rest : List Text) :
    first ++ rest.flatMap (fun word => ' ' :: word) = [' '].intercalate (first :: rest) := by
  induction rest generalizing first with
  | nil => simp
  | cons next rest ih =>
    rw [List.intercalate_cons_cons, List.flatMap_cons, List.append_assoc, ← ih next]
    simp

/-- `config_string` puts blanks between its words. -/
theorem configString_eq (c : Config) : configString c = [' '].intercalate (configWords c) := by
  have hterminated : (if c.absDeadline then text "abs-deadline " else text "sleep_for ") ++ wordIf c.mlock (text "mlock") ++
      wordIf (decide (0 < c.fifoPrio)) (text "fifo:" ++ toString c.fifoPrio) ++
      wordIf (decide (0 ≤ c.cpu)) (text "cpu:" ++ toString c.cpu) ++
      (if c.naiveLog then text "naive-log " else text "no-alloc ") ++ wordIf c.telemetry (text "telemetry") ++
      wordIf c.recordControl (text "record:control") = Text.terminated ' ' (configWords c) := by
    have hgiven (condition : Bool) (word : Text) :
        wordIf condition word = Text.terminated ' ' (given condition word) := by
      cases condition <;> simp [wordIf, given, Text.terminated]
    have happend (ws vs : List Text) :
        Text.terminated ' ' (ws ++ vs) = Text.terminated ' ' ws ++ Text.terminated ' ' vs := List.flatMap_append
    have hdeadline : (if c.absDeadline then text "abs-deadline " else text "sleep_for ") =
        Text.terminated ' ' [if c.absDeadline then text "abs-deadline" else text "sleep_for"] := by
      cases c.absDeadline <;> rfl
    have hlog : (if c.naiveLog then text "naive-log " else text "no-alloc ") =
        Text.terminated ' ' [if c.naiveLog then text "naive-log" else text "no-alloc"] := by
      cases c.naiveLog <;> rfl
    rw [configWords, ← List.singleton_append]
    simp only [happend, hgiven, hdeadline, hlog]
  rw [configString, hterminated, terminated_eq (by simp [configWords])]
  simp

/-- `freerun::run` puts blanks between its words. -/
theorem freerunConfig_eq (c : Config) : freerunConfig c = [' '].intercalate (freerunWords c) := by
  have hgiven (condition : Bool) (word : Text) :
      (given condition word).flatMap (fun word => ' ' :: word) = wordAfterIf condition word := by
    cases condition <;> simp [wordAfterIf, given]
  have hwords (mode deadline telemetry record : Text) (xs ys zs : List Text) :
      mode ++ ' ' :: deadline ++ xs.flatMap (fun word => ' ' :: word) ++ ys.flatMap (fun word => ' ' :: word) ++
          zs.flatMap (fun word => ' ' :: word) ++ ((' ' :: telemetry) ++ ' ' :: record) =
        [' '].intercalate ([mode, deadline] ++ xs ++ ys ++ zs ++ [telemetry, record]) := by
    have hblank := flatMap_blank mode (deadline :: (xs ++ ys ++ zs ++ [telemetry, record]))
    simpa using hblank
  have hfront : text "mode:freerun abs-deadline" = text "mode:freerun" ++ ' ' :: text "abs-deadline" := rfl
  have hback : text " telemetry record:control" = (' ' :: text "telemetry") ++ ' ' :: text "record:control" := rfl
  unfold freerunConfig freerunWords
  rw [hfront, hback, ← hgiven, ← hgiven, ← hgiven, hwords]

end Tvc.Harness
