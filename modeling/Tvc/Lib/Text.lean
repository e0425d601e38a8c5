import Mathlib.Data.Int.Notation
import Mathlib.Data.List.Basic
import Mathlib.Data.List.Induction

/-!
# Texts of parts

A text is a list of characters. Numbers are written in decimal, words are kept apart by blanks, and a key is kept
apart from its value by the first separator. What was put together so is taken apart again.
-/

namespace Text

/-! ## Decimal numbers -/

/-- A number in decimal. -/
def decimal (n : ℕ) : List Char := Nat.toDigits 10 n

/-- The number that some decimal digits write. -/
def digits (s : List Char) : Option ℕ :=
  if s.isEmpty || !s.all Char.isDigit then none else some (Nat.ofDigitChars 10 s 0)

/-- A number is written with digits. -/
theorem isDigit_decimal {n : ℕ} {c : Char} (h : c ∈ decimal n) : c.isDigit = true :=
  Nat.isDigit_of_mem_toDigits (by decide) (by decide) h

/-- A number is written with at least one digit. -/
theorem decimal_ne_nil (n : ℕ) : decimal n ≠ [] := Nat.toDigits_ne_nil

/-- A number is read from its digits. -/
@[simp] theorem digits_decimal (n : ℕ) : digits (decimal n) = some n := by
  have hall : (decimal n).all Char.isDigit = true := List.all_eq_true.mpr fun c hc => isDigit_decimal hc
  have hsome : (decimal n).isEmpty = false := List.isEmpty_eq_false_iff.mpr (decimal_ne_nil n)
  rw [digits, hall, hsome, decimal, Nat.ofDigitChars_ten_toDigits]
  rfl

/-- Numbers are told by how they are written. -/
theorem decimal_injective : Function.Injective decimal := fun m n h =>
  Option.some.inj ((digits_decimal m).symm.trans ((congrArg digits h).trans (digits_decimal n)))

/-- A positive number is not written with a zero in front. -/
theorem head_decimal_ne_zero {n : ℕ} (h : 0 < n) : (decimal n).head? ≠ some '0' := by
  induction n using Nat.strongRecOn with
  | ind n ih =>
    unfold decimal
    by_cases hsmall : n < 10
    · rw [Nat.toDigits_of_lt_base hsmall, List.head?_cons]
      have hdigits : ∀ m < 10, 0 < m → m.digitChar ≠ '0' := by decide
      exact fun heq => hdigits n hsmall h (Option.some.inj heq)
    · rw [Nat.toDigits_of_base_le (by decide) (by omega)]
      have hrest := ih (n / 10) (by omega) (by omega)
      unfold decimal at hrest
      rwa [List.head?_append_of_ne_nil _ Nat.toDigits_ne_nil]

/-- A digit is the decimal of a number below ten. -/
theorem exists_decimal_of_isDigit {c : Char} (h : c.isDigit = true) : ∃ n < 10, decimal n = [c] := by
  obtain ⟨hlow, hhigh⟩ := Char.isDigit_iff_toNat.mp h
  have hlow : 48 ≤ c.toNat := hlow
  have hhigh : c.toNat ≤ 57 := hhigh
  have hall : ∀ n < 10, n.digitChar.toNat = 48 + n := by decide
  have hn : c.toNat - 48 < 10 := by omega
  refine ⟨c.toNat - 48, hn, ?_⟩
  have hchar : (c.toNat - 48).digitChar = c := Char.ext (UInt32.toNat_inj.mp (by
    have hvalue := hall _ hn
    change (c.toNat - 48).digitChar.toNat = c.toNat
    omega))
  rw [decimal, Nat.toDigits_of_lt_base hn, hchar]

/-- Digits without a zero in front are a number in decimal. -/
theorem exists_decimal {s : List Char} (hne : s ≠ []) (hdigits : ∀ c ∈ s, c.isDigit = true) (hhead : s.head? ≠ some '0') :
    ∃ n, 0 < n ∧ s = decimal n := by
  induction s using List.reverseRecOn with
  | nil => exact absurd rfl hne
  | append_singleton s c ih =>
    obtain ⟨d, hd, hc⟩ := exists_decimal_of_isDigit (hdigits c (List.mem_append_right _ (List.mem_singleton_self c)))
    cases s with
    | nil =>
      refine ⟨d, Nat.pos_of_ne_zero fun hzero => hhead ?_, hc.symm⟩
      rw [List.nil_append, ← hc, hzero]
      rfl
    | cons first rest =>
      obtain ⟨n, hn, hs⟩ := ih (List.cons_ne_nil _ _) (fun x hx => hdigits x (List.mem_append_left _ hx)) hhead
      refine ⟨10 * n + d, by omega, ?_⟩
      rw [hs, ← hc]
      exact Nat.toDigits_append_toDigits (by decide) hn hd

/-- An integer in decimal. -/
def integer (n : ℤ) : List Char := if n < 0 then '-' :: decimal n.natAbs else decimal n.natAbs

/-- A number is written without a sign. -/
@[simp] theorem integer_natCast (n : ℕ) : integer n = decimal n := by
  rw [integer, if_neg (by omega), Int.natAbs_natCast]

/-! ## Keys and values -/

/-- The part before the first separator, and the part after it if there is one. -/
def cut (sep : Char) : List Char → List Char × Option (List Char)
  | [] => ([], none)
  | c :: rest => if c = sep then ([], some rest) else (c :: (cut sep rest).1, (cut sep rest).2)

/-- A text without the separator is not cut. -/
theorem cut_of_not_mem {sep : Char} {s : List Char} (h : sep ∉ s) : cut sep s = (s, none) := by
  induction s with
  | nil => rfl
  | cons c rest ih =>
    have hc : c ≠ sep := fun heq => h (heq ▸ List.mem_cons_self)
    rw [cut, if_neg hc, ih fun hmem => h (List.mem_cons_of_mem _ hmem)]

/-- A key without the separator is cut from its value. -/
theorem cut_append {sep : Char} {key : List Char} (h : sep ∉ key) (value : List Char) :
    cut sep (key ++ sep :: value) = (key, some value) := by
  induction key with
  | nil => exact if_pos rfl
  | cons c rest ih =>
    have hc : c ≠ sep := fun heq => h (heq ▸ List.mem_cons_self)
    rw [List.cons_append, cut, if_neg hc, ih fun hmem => h (List.mem_cons_of_mem _ hmem)]

/-- A key with its value behind the separator, if there is one. -/
def joined (sep : Char) (key : List Char) (value : Option (List Char)) : List Char :=
  value.elim key fun v => key ++ sep :: v

/-- A text is what it was cut into. -/
theorem joined_cut (sep : Char) (s : List Char) : joined sep (cut sep s).1 (cut sep s).2 = s := by
  induction s with
  | nil => rfl
  | cons c rest ih =>
    by_cases hc : c = sep
    · rw [cut, if_pos hc, hc]
      rfl
    · rw [cut, if_neg hc]
      unfold joined at ih ⊢
      cases hvalue : (cut sep rest).2 with
      | none =>
        rw [hvalue] at ih
        exact congrArg (c :: ·) ih
      | some v =>
        rw [hvalue] at ih
        exact congrArg (c :: ·) ih

/-- A key without the separator is cut from its value. -/
theorem cut_joined {sep : Char} {key : List Char} (h : sep ∉ key) (value : Option (List Char)) :
    cut sep (joined sep key value) = (key, value) := by
  cases value with
  | none => exact cut_of_not_mem h
  | some v => exact cut_append h v

/-- Texts with the separator behind each. -/
def terminated (sep : Char) (fields : List (List Char)) : List Char := fields.flatMap fun field => field ++ [sep]

/-- Texts of one number are found again at the front of a text, up to their last separator. -/
theorem terminated_isPrefix {sep : Char} {fields others : List (List Char)} (hlength : fields.length = others.length)
    (hfields : ∀ field ∈ fields, sep ∉ field) (hothers : ∀ field ∈ others, sep ∉ field) {rest : List Char}
    (h : terminated sep fields <+: terminated sep others ++ rest) : fields = others := by
  induction fields generalizing others with
  | nil => exact (List.length_eq_zero_iff.mp hlength.symm).symm
  | cons field more ih =>
    cases others with
    | nil => cases hlength
    | cons other moreOthers =>
      obtain ⟨tail, htail⟩ := h
      have hcut : cut sep (field ++ sep :: (terminated sep more ++ tail)) =
          cut sep (other ++ sep :: (terminated sep moreOthers ++ rest)) := by
        simpa [terminated] using congrArg (cut sep) htail
      rw [cut_append (hfields field List.mem_cons_self), cut_append (hothers other List.mem_cons_self)] at hcut
      have hmore : more = moreOthers :=
        ih (Nat.succ.inj hlength) (fun f hf => hfields f (List.mem_cons_of_mem _ hf))
          (fun f hf => hothers f (List.mem_cons_of_mem _ hf))
          ⟨tail, Option.some.inj (congrArg Prod.snd hcut)⟩
      have hfield : field = other := congrArg Prod.fst hcut
      rw [hfield, hmore]

/-- What follows the first occurrence of a text. -/
def after (mark : List Char) : List Char → Option (List Char)
  | [] => none
  | c :: rest => if mark.isPrefixOf (c :: rest) then some ((c :: rest).drop mark.length) else after mark rest

/-- What follows the last occurrence of a text. -/
def afterLast (mark : List Char) : List Char → Option (List Char)
  | [] => none
  | c :: rest =>
    (afterLast mark rest).or (if mark.isPrefixOf (c :: rest) then some ((c :: rest).drop mark.length) else none)

/-- A text does not start where one of its characters does not occur. -/
theorem isPrefixOf_of_not_mem {c : Char} {mark s : List Char} (hmark : c ∈ mark) (h : c ∉ s) :
    ¬mark.isPrefixOf s = true := fun hstarts => h ((List.isPrefixOf_iff_prefix.mp hstarts).subset hmark)

/-- A text does not occur where one of its characters does not. -/
theorem after_of_not_mem {c : Char} {mark s : List Char} (hmark : c ∈ mark) (h : c ∉ s) : after mark s = none := by
  induction s with
  | nil => rfl
  | cons d rest ih =>
    rw [after, if_neg (isPrefixOf_of_not_mem hmark h)]
    exact ih fun hmem => h (List.mem_cons_of_mem _ hmem)

/-- A text does not occur last where one of its characters does not. -/
theorem afterLast_of_not_mem {c : Char} {mark s : List Char} (hmark : c ∈ mark) (h : c ∉ s) :
    afterLast mark s = none := by
  induction s with
  | nil => rfl
  | cons d rest ih =>
    rw [afterLast, ih fun hmem => h (List.mem_cons_of_mem _ hmem), if_neg (isPrefixOf_of_not_mem hmark h)]
    rfl

/-- An occurrence in the rest of a text is the last one. -/
theorem afterLast_append {mark s value : List Char} (h : afterLast mark s = some value) (front : List Char) :
    afterLast mark (front ++ s) = some value := by
  induction front with
  | nil => exact h
  | cons c rest ih => rw [List.cons_append, afterLast, ih, Option.some_or]

/-! ## Words -/

/-- The words between runs of blanks. -/
def words (blank : Char → Bool) (s : List Char) : List (List Char) :=
  (s.splitOnP blank).filter fun word => !word.isEmpty

/-- A word has characters, and none of them is a blank. -/
def IsWord (blank : Char → Bool) (word : List Char) : Prop := word ≠ [] ∧ ∀ c ∈ word, blank c = false

/-- Words that are joined by single blanks are found again. -/
theorem words_intercalate {blank : Char → Bool} {sep : Char} (hsep : blank sep = true) {ws : List (List Char)}
    (h : ∀ word ∈ ws, IsWord blank word) : words blank ([sep].intercalate ws) = ws := by
  have hkept {word : List Char} (hword : IsWord blank word) (rest : List (List Char)) :
      (word :: rest).filter (fun word => !word.isEmpty) = word :: rest.filter fun word => !word.isEmpty := by
    refine List.filter_cons_of_pos ?_
    rw [List.isEmpty_eq_false_iff.mpr hword.1]
    rfl
  induction ws with
  | nil => rfl
  | cons word rest ih =>
    have hword := h word List.mem_cons_self
    have hrest := ih fun w hw => h w (List.mem_cons_of_mem _ hw)
    unfold words at hrest ⊢
    cases rest with
    | nil =>
      rw [List.intercalate_singleton, List.splitOnP_eq_singleton hword.2, hkept hword]
      rfl
    | cons next rest =>
      rw [List.intercalate_cons_cons, List.append_assoc, List.singleton_append,
        List.splitOnP_append_cons_of_forall_mem hword.2 sep hsep, hkept hword, hrest]

end Text
