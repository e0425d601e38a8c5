import Tvc.Harness.ConfigString
import Tvc.Sweep.Audited
import Tvc.Sweep.RunRow

/-!
# A complete campaign passes its audit

Every run of a campaign is planned, its vehicle accepts the command line and writes what it was configured with, and
`run_row` makes a row of it. Where all rows are complete, `roster_row` accepts the roster for every one of them.
-/

namespace Tvc.Sweep

open Harness

attribute [local instance] ieee

/-! ## The configuration in a summary -/

/-- A digit is not a blank. -/
theorem isBlank_of_isDigit {c : Char} (h : c.isDigit = true) : isBlank c = false := by
  obtain ⟨hlow, hhigh⟩ := Char.isDigit_iff_toNat.mp h
  have hlow : 48 ≤ c.toNat := hlow
  have hhigh : c.toNat ≤ 57 := hhigh
  simp only [isBlank, Bool.or_eq_false_iff, Bool.and_eq_false_iff, decide_eq_false_iff_not, beq_eq_false_iff_ne]
  omega

/-- A number has no blank in it. -/
theorem not_blank_decimal (n : ℕ) : ∀ c ∈ Text.decimal n, isBlank c = false :=
  fun _ hc => isBlank_of_isDigit (Text.isDigit_decimal hc)

/-- A text that is written out has no blank in it. -/
theorem not_blank {s : Text} (h : (s.all fun c => !isBlank c) = true) : ∀ c ∈ s, isBlank c = false :=
  fun c hc => Bool.not_eq_true' _ ▸ List.all_eq_true.mp h c hc

/-- A word with more behind it. -/
theorem isWord_append {name value : Text} (h : Text.IsWord isBlank name) (hvalue : ∀ c ∈ value, isBlank c = false) :
    Text.IsWord isBlank (name ++ value) :=
  ⟨List.append_ne_nil_of_left_ne_nil h.1 _, List.forall_mem_append.mpr ⟨h.2, hvalue⟩⟩

/-- A word that is written out. -/
theorem isWord_of_decide {word : Text} (h : (!word.isEmpty && word.all fun c => !isBlank c) = true) :
    Text.IsWord isBlank word := by
  rw [Bool.and_eq_true, Bool.not_eq_true', List.isEmpty_eq_false_iff, List.all_eq_true] at h
  exact ⟨h.1, fun c hc => by simpa using h.2 c hc⟩

/-- The words that a harness run of level `k` is configured with. -/
def levelWords (k cpu : ℕ) : List Text :=
  (if 1 ≤ k then text "abs-deadline" else text "sleep_for") :: given (decide (2 ≤ k)) (text "mlock") ++
    given (decide (3 ≤ k)) (text "fifo:80") ++ given (decide (4 ≤ k)) (text "cpu:" ++ Text.decimal cpu) ++
    [if k < 5 then text "naive-log" else text "no-alloc"] ++ given (decide (6 ≤ k)) (text "telemetry") ++
    given (decide (7 ≤ k)) (text "record:control")

/-- The words of a priority and of a CPU. -/
theorem given_numbers {c : Config} {r : Request} (h : Configured c r) :
    given (decide (0 < c.fifoPrio)) (text "fifo:" ++ Harness.toString c.fifoPrio) =
        given (decide (3 ≤ r.level)) (text "fifo:80") ∧
      given (decide (0 ≤ c.cpu)) (text "cpu:" ++ Harness.toString c.cpu) =
        given (decide (4 ≤ r.level)) (text "cpu:" ++ Text.decimal r.cpu) := by
  have hfifo : c.fifoPrio = if 3 ≤ r.level then 80 else 0 := congrArg Mitigations.fifoPrio h.mitigations
  have hcpu : c.cpu = if 4 ≤ r.level then (r.cpu : ℤ) else -1 := congrArg Mitigations.cpu h.mitigations
  constructor
  · rw [hfifo]
    by_cases h3 : 3 ≤ r.level
    · rw [if_pos h3, decide_eq_true h3]
      rfl
    · rw [if_neg h3, decide_eq_false h3]
      rfl
  · rw [hcpu]
    by_cases h4 : 4 ≤ r.level
    · rw [if_pos h4, decide_eq_true h4, decide_eq_true (Int.natCast_nonneg _), Harness.toString, Text.integer_natCast]
    · rw [if_neg h4, decide_eq_false h4]
      rfl

/-- The vehicle of a harness run writes the words of its level. -/
theorem configWords_eq {c : Config} {r : Request} (h : Configured c r) : configWords c = levelWords r.level r.cpu := by
  have hdeadline : c.absDeadline = decide (1 ≤ r.level) := congrArg Mitigations.absDeadline h.mitigations
  have hmlock : c.mlock = decide (2 ≤ r.level) := congrArg Mitigations.mlock h.mitigations
  have hlog : c.naiveLog = decide (r.level < 5) := congrArg Mitigations.naiveLog h.mitigations
  have htelemetry : c.telemetry = decide (6 ≤ r.level) := congrArg Mitigations.telemetry h.mitigations
  have hrecord : c.recordControl = decide (7 ≤ r.level) := congrArg Mitigations.recordControl h.mitigations
  rw [configWords, levelWords, (given_numbers h).1, (given_numbers h).2, hdeadline, hmlock, hlog, htelemetry, hrecord]
  simp only [decide_eq_true_eq]

/-- The words of a level have no blanks in them. -/
theorem isWord_levelWords {k cpu : ℕ} : ∀ word ∈ levelWords k cpu, Text.IsWord isBlank word := by
  have hcpu : Text.IsWord isBlank (text "cpu:" ++ Text.decimal cpu) :=
    isWord_append (isWord_of_decide (by decide)) (not_blank_decimal _)
  have hgiven {condition : Bool} {name : Text} (h : Text.IsWord isBlank name) :
      ∀ word ∈ given condition name, Text.IsWord isBlank word := by
    cases condition with
    | false => exact List.forall_mem_nil _
    | true => exact List.forall_mem_singleton.mpr h
  have hif {condition : Prop} [Decidable condition] {a b : Text} (ha : Text.IsWord isBlank a)
      (hb : Text.IsWord isBlank b) : Text.IsWord isBlank (if condition then a else b) := by
    split
    · exact ha
    · exact hb
  simp only [levelWords, List.forall_mem_append, List.forall_mem_cons]
  exact ⟨⟨⟨⟨⟨⟨hif (isWord_of_decide (by decide)) (isWord_of_decide (by decide)),
    hgiven (isWord_of_decide (by decide))⟩, hgiven (isWord_of_decide (by decide))⟩, hgiven hcpu⟩,
    hif (isWord_of_decide (by decide)) (isWord_of_decide (by decide)), List.forall_mem_nil _⟩,
    hgiven (isWord_of_decide (by decide))⟩, hgiven (isWord_of_decide (by decide))⟩

/-- A number is written as a number. -/
theorem canonical_decimal (n : ℕ) : canonical (Text.decimal n) = true := by
  rcases Nat.eq_zero_or_pos n with rfl | hpos
  · rfl
  · have hdigits : (Text.decimal n).all Char.isDigit = true :=
      List.all_eq_true.mpr fun c hc => Text.isDigit_decimal hc
    have hsome : (Text.decimal n).isEmpty = false := List.isEmpty_eq_false_iff.mpr (Text.decimal_ne_nil n)
    have hhead : ((Text.decimal n).head? != some '0') = true := bne_iff_ne.mpr (Text.head_decimal_ne_zero hpos)
    rw [canonical, hdigits, hsome, hhead, Bool.or_eq_true]
    exact .inr rfl

/-- A number that may be missing is written as a number. -/
theorem canonical_ite {p : Prop} [Decidable p] {n : ℕ} :
    ∀ v ∈ (if p then some (Text.decimal n) else none), canonical v = true := by
  intro v hv
  split at hv
  · exact Option.some.inj hv ▸ canonical_decimal n
  · cases hv

/-- The fields of a configuration of known words. -/
theorem configFields_of_words {summary : Json} {words : List Text} {fields : Fields}
    (hconfig : (summary.get "config").text? = some ([' '].intercalate words))
    (hwords : ∀ word ∈ words, Text.IsWord isBlank word) (hne : words ≠ [])
    (hfields : words.foldlM addField [] = .ok fields)
    (hcpu : ∀ v ∈ fields.lookup (text "cpu"), canonical v = true)
    (hfifo : ∀ v ∈ fields.lookup (text "fifo"), canonical v = true) : configFields summary = .ok fields := by
  have hany {x : Option Text} (h : ∀ v ∈ x, canonical v = true) : (x.any fun v => !canonical v) = false := by
    cases x with
    | none => rfl
    | some v => rw [Option.any_some, h v rfl, Bool.not_true]
  unfold configFields
  rw [hconfig]
  dsimp only
  rw [Text.words_intercalate rfl hwords, if_neg (by rw [List.isEmpty_iff]; exact hne), hfields]
  change (do
    refuseIf _ _
    refuseIf _ _
    return fields : Except String Fields) = _
  rw [hany hcpu, hany hfifo]
  rfl

/-- The fields of a summary with the words of a level. -/
theorem configFields_level {summary : Json} {k cpu : ℕ} (hk : k < 8)
    (h : (summary.get "config").text? = some ([' '].intercalate (levelWords k cpu))) :
    ∃ fields, configFields summary = .ok fields ∧
      fields.lookup (text "cpu") = if 4 ≤ k then some (Text.decimal cpu) else none := by
  obtain ⟨fields, hfields, hcpu, hfifo⟩ : ∃ fields, (levelWords k cpu).foldlM addField [] = .ok fields ∧
      fields.lookup (text "cpu") = (if 4 ≤ k then some (Text.decimal cpu) else none) ∧
      fields.lookup (text "fifo") = if 3 ≤ k then some (Text.decimal 80) else none := by
    interval_cases k <;> exact ⟨_, rfl, rfl, rfl⟩
  refine ⟨fields, configFields_of_words h isWord_levelWords (by simp [levelWords]) hfields ?_ ?_, hcpu⟩
  · rw [hcpu]
    exact canonical_ite
  · rw [hfifo]
    exact canonical_ite

/-! ## The options of a request -/

/-- The options of a request. -/
def Request.options (str : F64 → Text) (r : Request) : List (Text × Option Text) :=
  [(text "--label", some r.label), (text "--out", some r.outdir), (text "--rate", some (str r.rate)),
    (text "--cycles", some (Text.decimal r.cycles)), (text "--warmup", some (Text.decimal r.warmup))] ++
  flagOptions (Text.decimal r.cpu) r.level ++
  (if r.level = 8 then
    [(text "--sensor-port", some (text "0")), (text "--phase-us", some (Text.decimal r.phase)),
      (text "--skew-max-ticks", some (text "4")), (text "--terminal-copies", some (text "12"))]
  else [])

/-- The arguments of a request are the texts of its options. -/
theorem Request.map_options (str : F64 → Text) (r : Request) : (r.options str).map optionText = r.args str := by
  rw [options, List.map_append, List.map_append, map_flagOptions, args]
  by_cases h : r.level = 8
  · rw [if_pos h, if_pos h]
    rfl
  · rw [if_neg h, if_neg h]
    rfl

/-- The options of a request are options. -/
theorem Request.isOption {str : F64 → Text} {r : Request} (hlabel : r.label ≠ []) (hout : r.outdir ≠ [])
    (hrate : str r.rate ≠ []) : ∀ o ∈ r.options str, IsOption o := by
  have hvalue {key value : Text} (hkey : '=' ∉ key) (hdashes : (text "--").isPrefixOf key = true) (hne : value ≠ []) :
      IsOption (key, some value) := ⟨hkey, hdashes, fun h => hne (Option.some.inj h)⟩
  have hflag {key : Text} (hkey : '=' ∉ key) (hdashes : (text "--").isPrefixOf key = true) : IsOption (key, none) :=
    ⟨hkey, hdashes, by simp⟩
  have hdecimal (n : ℕ) : Text.decimal n ≠ [] := Text.decimal_ne_nil n
  have hlevels : ∀ o ∈ (levelOptions (Text.decimal r.cpu)).flatten, IsOption o := by
    change ∀ o ∈ [_, _, _, _, _, _, _, _, _, _, _, _, _], _
    simp only [List.forall_mem_cons]
    exact ⟨hflag (by decide) (by decide), hflag (by decide) (by decide), hvalue (by decide) (by decide) (by decide),
      hvalue (by decide) (by decide) (hdecimal _), hflag (by decide) (by decide),
      hvalue (by decide) (by decide) (by decide), hflag (by decide) (by decide), hflag (by decide) (by decide),
      hvalue (by decide) (by decide) (by decide), hvalue (by decide) (by decide) (by decide),
      hflag (by decide) (by decide), hflag (by decide) (by decide), hvalue (by decide) (by decide) (by decide),
      List.forall_mem_nil _⟩
  rw [options, List.forall_mem_append, List.forall_mem_append]
  refine ⟨⟨?_, fun o ho => hlevels o ((List.take_sublist _ _).flatten.subset ho)⟩, ?_⟩
  · simp only [List.forall_mem_cons]
    exact ⟨hvalue (by decide) (by decide) hlabel, hvalue (by decide) (by decide) hout,
      hvalue (by decide) (by decide) hrate, hvalue (by decide) (by decide) (hdecimal _),
      hvalue (by decide) (by decide) (hdecimal _), List.forall_mem_nil _⟩
  · split
    · simp only [List.forall_mem_cons]
      exact ⟨hvalue (by decide) (by decide) (by decide), hvalue (by decide) (by decide) (hdecimal _),
        hvalue (by decide) (by decide) (by decide), hvalue (by decide) (by decide) (by decide),
        List.forall_mem_nil _⟩
    · exact List.forall_mem_nil _

/-- The value of an option of a request. -/
def Request.value (str : F64 → Text) (r : Request) (key : Text) : Option Text :=
  if key = text "--sensor-port" then some (text "0")
  else if key = text "--phase-us" then some (Text.decimal r.phase)
  else if key = text "--skew-max-ticks" then some (text "4")
  else if key = text "--terminal-copies" then some (text "12")
  else optionValue r.label r.outdir (str r.rate) (Text.decimal r.cycles) (Text.decimal r.warmup) (Text.decimal r.cpu) key

/-- The options of a request have one value for each key. -/
theorem Request.functional (str : F64 → Text) (r : Request) : Functional (r.options str) := by
  have hlevels : ∀ o ∈ (levelOptions (Text.decimal r.cpu)).flatten, o.2 = r.value str o.1 := by
    change ∀ o ∈ [_, _, _, _, _, _, _, _, _, _, _, _, _], _
    simp only [List.forall_mem_cons]
    exact ⟨rfl, rfl, rfl, rfl, rfl, rfl, rfl, rfl, rfl, rfl, rfl, rfl, rfl, List.forall_mem_nil _⟩
  refine @functional_of_value _ (r.value str) ?_
  rw [options, List.forall_mem_append, List.forall_mem_append]
  refine ⟨⟨?_, fun o ho => hlevels o ((List.take_sublist _ _).flatten.subset ho)⟩, ?_⟩
  · simp only [List.forall_mem_cons]
    exact ⟨rfl, rfl, rfl, rfl, rfl, List.forall_mem_nil _⟩
  · split
    · simp only [List.forall_mem_cons]
      exact ⟨rfl, rfl, rfl, rfl, List.forall_mem_nil _⟩
    · exact List.forall_mem_nil _

/-- Options are read back from their texts. -/
theorem optionsOf_map {os : List (Text × Option Text)} (h : ∀ o ∈ os, IsOption o) (hsame : Functional os) :
    ∃ options, optionsOf (os.map optionText) = .ok options ∧ options.Of os := by
  refine optionsOf_ok ?_ hsame
  rw [List.forall₂_map_left_iff, List.forall₂_same]
  exact fun o ho => optionOf_text (h o ho)

/-- The text of an option is not empty. -/
theorem optionText_ne_nil {o : Text × Option Text} (h : IsOption o) : optionText o ≠ [] := by
  intro hnil
  have hkey : o.1 = [] := by
    unfold optionText Text.joined at hnil
    cases hvalue : o.2 with
    | none => rwa [hvalue] at hnil
    | some v =>
      rw [hvalue] at hnil
      exact absurd hnil (List.append_ne_nil_of_right_ne_nil _ (List.cons_ne_nil _ _))
  have hdashes := h.dashes
  rw [hkey] at hdashes
  exact absurd hdashes (by decide)

/-- Texts that are not empty are read back. -/
theorem argvTexts_texts {ts : List Text} (h : ∀ t ∈ ts, t ≠ []) : argvTexts (texts ts) = some ts := by
  unfold argvTexts texts
  rw [Json.items?, Option.bind_some]
  induction ts with
  | nil => rfl
  | cons t rest ih =>
    have ht : (!t.isEmpty) = true := by
      rw [Bool.not_eq_true', List.isEmpty_eq_false_iff]
      exact h t List.mem_cons_self
    rw [List.map_cons, List.mapM_cons, ih fun u hu => h u (List.mem_cons_of_mem _ hu), Json.text?,
      Option.filter_some, if_pos ht]
    rfl

/-- `argv_options` reads the options of a command line. -/
theorem argvOptions_texts {front : List Text} {os : List (Text × Option Text)} (hfront : ∀ t ∈ front, t ≠ [])
    (hos : os ≠ []) (h : ∀ o ∈ os, IsOption o) (hsame : Functional os) :
    ∃ options, argvOptions (texts (front ++ os.map optionText)) front.length = .ok options ∧ options.Of os := by
  obtain ⟨options, hoptions, hof⟩ := optionsOf_map h hsame
  refine ⟨options, ?_, hof⟩
  have htexts : ∀ t ∈ front ++ os.map optionText, t ≠ [] := by
    rw [List.forall_mem_append, List.forall_mem_map]
    exact ⟨hfront, fun o ho => optionText_ne_nil (h o ho)⟩
  have hlength : ¬(front ++ os.map optionText).length ≤ front.length := by
    rw [List.length_append, List.length_map]
    have hpos := List.length_pos_iff.mpr hos
    omega
  unfold argvOptions
  rw [argvTexts_texts htexts]
  dsimp only
  rw [if_neg hlength, List.drop_left, hoptions]

/-! ## Runs of the harness -/

/-- The first text of a command line and the arguments of a request. -/
def Request.argv (binary : Text) (str : F64 → Text) (r : Request) : List Text := binary :: r.args str

/-- What a row says of a request. -/
structure Rowed (row : Json) (binary : Text) (str : F64 → Text) (r : Request) (number : ℕ) : Prop where
  argv : row.get "vehicle_argv" = texts (r.argv binary str)
  cycles : row.get "cycles" = .int r.cycles
  warmup : row.get "warmup" = .int r.warmup
  number : row.get "repeat" = .int number
  rate : row.get "rate" = .float r.rate.bits
  label : row.get "label" = .str r.label
  level : row.get "level" = .str (levelText r.level)

/-- What a summary says of the vehicle that wrote it. -/
structure Reports (summary : Json) (c : Config) : Prop where
  label : summary.get "label" = .str c.label.toList
  config : summary.get "config" = .str (if c.mode == "freerun" then freerunConfig c else configString c)
  cycles : summary.get "cycles_requested" = .int c.cycles.1

/-- What a request needs to be audited. -/
structure Request.Auditable (r : Request) (str : F64 → Text) : Prop where
  label : r.label ≠ []
  outdir : r.outdir ≠ []
  rate : str r.rate ≠ []
  finite : r.rate.isFinite = true
  positive : Arith.le r.rate 0.0 = false
  cycles : 0 < r.cycles

/-- An integer is the same as itself and as no other. -/
theorem same_int (a : ℤ) : (Json.int a).same (.int a) = true := Json.same_self (.int a)

/-- A text is the same as itself. -/
theorem same_str (s : Text) : (Json.str s).same (.str s) = true := Json.same_self (.str s)

/-- Zero is zero. -/
theorem zero_eq : (0.0 : F64) = ⟨0⟩ := by decide +kernel

/-- The rate of a request has its text. -/
theorem Request.Auditable.rateTexts {r : Request} {str : F64 → Text} (h : r.Auditable str) :
    rateTexts str (.float r.rate.bits) = .ok [str r.rate, str r.rate] := by
  have hfinite : Binary64.isFinite r.rate.bits = true := by
    have hbits := h.finite
    rw [F64.isFinite, bne_iff_ne] at hbits
    rw [Binary64.isFinite, bne_iff_ne]
    exact fun heq => hbits (BitVec.eq_of_toNat_eq heq)
  have hpositive : Binary64.le r.rate.bits 0 = false := by
    have hle := h.positive
    rw [zero_eq] at hle
    exact hle
  rw [Sweep.rateTexts, hfinite, hpositive]
  rfl

/-- The options of a harness run. -/
theorem Request.mem_options {r : Request} (hr : r.level < 8) {str : F64 → Text} (o : Text × Option Text) :
    o ∈ r.options str ↔ o ∈ runOptions r.label r.outdir (str r.rate) (Text.decimal r.cycles) (Text.decimal r.warmup)
      (Text.decimal r.cpu) r.level := by
  rw [options, if_neg (by omega : ¬r.level = 8), List.append_nil, runOptions]
  exact mem_front.symm

/-- A run of the harness with the command line and the summary of its request is accepted. -/
theorem harnessConfiguration_ok {row summary : Json} {binary : Text} {str : F64 → Text} {r : Request} {number : ℕ} {c : Config}
    (hr : r.level < 8) (haudit : r.Auditable str) (hrow : Rowed row binary str r number) (hnumber : 1 ≤ number)
    (hbinary : binary ≠ []) (hc : Configured c r) (hsummary : Reports summary c) :
    harnessConfiguration str row summary = .ok () := by
  obtain ⟨options, hoptions, hof⟩ := @argvOptions_texts [binary] (r.options str)
    (List.forall_mem_singleton.mpr hbinary) (by simp [Request.options])
    (Request.isOption haudit.label haudit.outdir haudit.rate) (r.functional str)
  rw [Request.map_options] at hoptions
  have hmode : (c.mode == "freerun") = false := by
    have hmode : c.mode = if 8 ≤ r.level then "freerun" else "harness" := congrArg Mitigations.mode hc.mitigations
    rw [hmode, if_neg (by omega)]
    decide
  obtain ⟨fields, hfields, hcpu⟩ := @configFields_level summary _ r.cpu hr (by
    rw [hsummary.config, hmode, if_neg Bool.false_ne_true, configString_eq, configWords_eq hc]
    rfl)
  have hlookup {o : Text × Option Text} (ho : o ∈ r.options str) : options.lookup o.1 = some o.2 :=
    (Options.lookup_eq_some hof.nodup).mpr ((hof.mem o).mpr ho)
  have hagree : options.agree (expectedOptions fields r.label r.level r.cycles r.warmup)
      [text "--rate", text "--out"] = true := by
    have hflags : flagOptions ((fields.lookup (text "cpu")).getD (text "None")) r.level =
        flagOptions (Text.decimal r.cpu) r.level := by
      rw [hcpu]
      by_cases h4 : 4 ≤ r.level
      · rw [if_pos h4]
        rfl
      · rw [if_neg h4]
        have hlow : r.level < 4 := by omega
        generalize r.level = k at hlow
        interval_cases k <;> rfl
    have hexpected (e : Text × Option Text) : e ∈ expectedOptions fields r.label r.level r.cycles r.warmup ↔
        e ∈ numberOptions r.label (Text.decimal r.cycles) (Text.decimal r.warmup) ++
          flagOptions (Text.decimal r.cpu) r.level := by
      rw [mem_expectedOptions, hflags, Text.integer_natCast, Text.integer_natCast]
    rw [Options.agree_iff hof]
    refine ⟨fun o ho => ?_, ?_, fun e he => ?_⟩
    · rcases List.mem_cons.mp ((r.mem_options hr o).mp ho) with rfl | ho
      · exact .inr (by simp)
      · rcases List.mem_cons.mp ho with rfl | ho
        · exact .inr (by simp)
        · exact .inl ⟨o.2, (hexpected o).mpr ho⟩
    · simp only [List.forall_mem_cons]
      exact ⟨⟨_, (r.mem_options hr _).mpr (List.mem_cons_of_mem _ List.mem_cons_self)⟩,
        ⟨_, (r.mem_options hr _).mpr List.mem_cons_self⟩, List.forall_mem_nil _⟩
    · exact (r.mem_options hr e).mpr (List.mem_cons_of_mem _ (List.mem_cons_of_mem _ ((hexpected e).mp he)))
  have hout : options.lookup (text "--out") = some (some r.outdir) :=
    hlookup ((r.mem_options hr (text "--out", some r.outdir)).mpr List.mem_cons_self)
  have hrate : options.lookup (text "--rate") = some (some (str r.rate)) :=
    hlookup ((r.mem_options hr (text "--rate", some (str r.rate))).mpr (List.mem_cons_of_mem _ List.mem_cons_self))
  have hcycles : orError ((Json.int (r.cycles : ℤ)).int?.filter fun n => decide (1 ≤ n)) "invalid harness run cycles" =
      .ok (r.cycles : ℤ) := by
    have hpos := haudit.cycles
    rw [Json.int?, Option.filter_some, if_pos (decide_eq_true (by omega))]
    rfl
  have hwarmup : orError ((Json.int (r.warmup : ℤ)).int?.filter fun n => decide (0 ≤ n)) "invalid harness run warmup" =
      .ok (r.warmup : ℤ) := by
    rw [Json.int?, Option.filter_some, if_pos (decide_eq_true (Int.natCast_nonneg _))]
    rfl
  have hnumber : orError ((Json.int (number : ℤ)).int?.filter fun n => decide (1 ≤ n)) "invalid harness run repeat" =
      .ok (number : ℤ) := by
    rw [Json.int?, Option.filter_some, if_pos (decide_eq_true (by omega))]
    rfl
  have hargv : argvOptions (row.get "vehicle_argv") 1 = .ok options := by
    rw [hrow.argv]
    exact hoptions
  have hlabel : c.label.toList = r.label := by rw [hc.label, String.toList_ofList]
  unfold harnessConfiguration
  rw [hargv, hfields, hrow.cycles, hrow.warmup, hrow.number, hrow.rate, hrow.label, hrow.level, hsummary.label,
    hsummary.cycles, hlabel, hc.cycles, hcycles, hwarmup, hnumber, haudit.rateTexts]
  change (do
    let number ← orError (Text.digits ((levelText r.level).drop 1)) "invalid literal for int()"
    refuseIf _ _ : Except String Unit) = _
  rw [digits_levelText]
  change refuseIf _ _ = _
  rw [hagree, hout, hrate, same_int, same_str]
  simp [refuseIf]

end Tvc.Sweep
