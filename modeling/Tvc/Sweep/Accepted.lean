import Tvc.Sweep.Peered

/-!
# A complete campaign passes its audit

Where every run of a planned campaign is complete, `roster_row` accepts the roster for each of them and returns its row.
-/

namespace Tvc.Sweep

open Harness

attribute [local instance] ieee

variable {int : Text → Option ℤ} {args : Args} {run : Run} {phases : List ℤ} {k : ℕ}

/-! ## The label of a planned run -/

/-- The part of a label behind its level. -/
structure LabelEnd (run : Run) (k : ℕ) where
  phase : Text
  number : Text
  label : run.label = levelText k ++ phase ++ number
  phases : phase = [] ∨ ∃ p : ℕ, p ∈ [200, 400, 800] ∧ phase = text ".phase" ++ Text.decimal p ∧ run.phaseUs = some (p : ℤ)
  numbers : number = [] ∧ run.number = 1 ∨ 0 < run.number ∧ number = text ".r" ++ Text.decimal run.number

/-- The label of a planned run has such an end. -/
theorem Run.Planned.labelEnd (h : run.Planned args phases k) : Nonempty (LabelEnd run k) := by
  refine ⟨{
    phase := if isGrid phases then text ".phase" ++ cpuText run.phaseUs else []
    number := if 1 < args.repeats then text ".r" ++ Text.decimal run.number else []
    label := h.level ▸ h.label
    phases := ?_
    numbers := ?_ }⟩
  · cases hgrid : isGrid phases with
    | false => exact .inl rfl
    | true =>
      obtain ⟨hk, hphases⟩ := h.grid hgrid
      obtain ⟨phase, hmem, hphase, hlow, _⟩ := h.phase hk
      have hnat : (phase.toNat : ℤ) = phase := Int.toNat_of_nonneg hlow.le
      refine .inr ⟨phase.toNat, ?_, ?_, ?_⟩
      · rw [hphases] at hmem
        simp only [List.mem_cons, List.not_mem_nil, or_false] at hmem ⊢
        omega
      · rw [if_pos rfl, hphase, cpuText, Option.elim_some, integer_toNat hlow.le]
      · rw [hphase, hnat]
  · have hnumber := h.number
    by_cases hrepeats : 1 < args.repeats
    · exact .inr ⟨hnumber.1, if_pos hrepeats⟩
    · exact .inl ⟨if_neg hrepeats, by omega⟩

/-- The number of a planned run is accepted. -/
theorem LabelEnd.numberEnd (e : LabelEnd run k) : numberEnd e.number = true := by
  rcases e.numbers with ⟨hnil, _⟩ | ⟨hpos, hsome⟩
  · rw [hnil]
    rfl
  · have hdrop : (text ".r" ++ Text.decimal run.number).drop 2 = Text.decimal run.number := rfl
    have hzero : (Text.decimal run.number != text "0") = true := bne_iff_ne.mpr fun heq => by
      have hn : run.number = 0 := Text.decimal_injective heq
      omega
    rw [hsome, Sweep.numberEnd, hdrop, canonical_decimal, hzero]
    rfl

/-- The label of a planned run is accepted. -/
theorem LabelEnd.labelPattern (e : LabelEnd run k) (hk : k < 9) : labelPattern run.label = true := by
  have hrest : labelRest (e.phase ++ e.number) = true := by
    rcases e.phases with hnil | ⟨p, hp, hsome, _⟩
    · rw [hnil, List.nil_append, labelRest, e.numberEnd, Bool.true_or]
    · have hall : ∀ p ∈ [200, 400, 800], text ".phase" ++ Text.decimal p ∈
          [text ".phase200", text ".phase400", text ".phase800"] := by decide
      have hsplit : ((text ".phase" ++ Text.decimal p).isPrefixOf (text ".phase" ++ Text.decimal p ++ e.number) &&
          Sweep.numberEnd ((text ".phase" ++ Text.decimal p ++ e.number).drop (text ".phase" ++ Text.decimal p).length)) =
            true := by
        rw [List.drop_left, e.numberEnd, Bool.and_true]
        exact List.isPrefixOf_iff_prefix.mpr (List.prefix_append _ _)
      rw [hsome, labelRest, List.any_eq_true.mpr ⟨_, hall p hp, hsplit⟩, Bool.or_true]
  rw [e.label, List.append_assoc]
  interval_cases k <;> exact hrest

/-- A number has no letter in it. -/
theorem not_mem_decimal_of {c : Char} (hc : c.isDigit = false) (n : ℕ) : c ∉ Text.decimal n := fun h => by
  rw [Text.isDigit_decimal h] at hc
  cases hc

/-- The level of a planned run is read off its label. -/
theorem LabelEnd.cut_label (e : LabelEnd run k) : (Text.cut '.' run.label).1 = levelText k := by
  have hlevel : '.' ∉ levelText k := by
    rw [levelText, List.mem_cons, not_or]
    exact ⟨by decide, not_mem_decimal⟩
  rw [e.label, List.append_assoc]
  rcases e.phases with hnil | ⟨p, _, hsome, _⟩
  · rcases e.numbers with ⟨hnil', _⟩ | ⟨_, hsome'⟩
    · rw [hnil, hnil', List.append_nil, List.append_nil, Text.cut_of_not_mem hlevel]
    · rw [hnil, hsome', List.nil_append]
      exact congrArg Prod.fst (Text.cut_append hlevel _)
  · rw [hsome]
    exact congrArg Prod.fst (Text.cut_append hlevel _)

/-- A letter that is neither in a level nor in a phase. -/
theorem LabelEnd.not_mem (e : LabelEnd run k) {c : Char} (hdigit : c.isDigit = false) (hL : c ≠ 'L')
    (hphase : c ∉ text ".phase") : c ∉ levelText k ++ e.phase := by
  have hnumber (n : ℕ) : c ∉ Text.decimal n := not_mem_decimal_of hdigit n
  rw [List.mem_append, not_or, levelText, List.mem_cons, not_or]
  refine ⟨⟨hL, hnumber k⟩, ?_⟩
  rcases e.phases with hnil | ⟨p, _, hsome, _⟩
  · rw [hnil]
    exact List.not_mem_nil
  · rw [hsome, List.mem_append, not_or]
    exact ⟨hphase, hnumber p⟩

/-- The number of a planned run is read off its label. -/
theorem LabelEnd.afterLast_label (e : LabelEnd run k) :
    (Text.afterLast (text ".r") run.label).elim (.ok 1) (fun rest =>
      orError (Text.digits rest) "invalid literal for int()") = (.ok run.number : Except String ℕ) := by
  have hr : 'r' ∈ text ".r" := by decide
  rcases e.numbers with ⟨hnil, hone⟩ | ⟨_, hsome⟩
  · have hnone := Text.afterLast_of_not_mem hr (e.not_mem (by decide) (by decide) (by decide))
    rw [e.label, hnil, List.append_nil, hnone, hone]
    rfl
  · have hlast : Text.afterLast (text ".r") (text ".r" ++ Text.decimal run.number) = some (Text.decimal run.number) := by
      have hrest : Text.afterLast (text ".r") ('r' :: Text.decimal run.number) = none :=
        Text.afterLast_of_not_mem (c := '.') (by decide) (by
          rw [List.mem_cons, not_or]
          exact ⟨by decide, not_mem_decimal⟩)
      change ((Text.afterLast (text ".r") ('r' :: Text.decimal run.number)).or _) = _
      rw [hrest]
      rfl
    rw [e.label, hsome, Text.afterLast_append hlast, Option.elim_some, Text.digits_decimal]
    rfl

/-- The phase of a planned run is read off its label, if it is there. -/
theorem LabelEnd.after_label (e : LabelEnd run k) (hk : k < 9) : ∃ phase : Option ℕ,
    (Text.after (text ".phase") run.label).elim (.ok none) (fun rest =>
      (orError (Text.digits (Text.cut '.' rest).1) "invalid literal for int()").map some) =
        (.ok phase : Except String (Option ℕ)) ∧ ∀ p ∈ phase, run.phaseUs = some (p : ℤ) := by
  rcases e.phases with hnil | ⟨p, hp, hsome, hphase⟩
  · have hlabel : 'p' ∉ run.label := by
      rw [e.label, List.mem_append, not_or, hnil, List.append_nil, levelText, List.mem_cons, not_or]
      refine ⟨⟨by decide, not_mem_decimal_of (by decide) _⟩, ?_⟩
      rcases e.numbers with ⟨hnumber, _⟩ | ⟨_, hnumber⟩
      · rw [hnumber]
        exact List.not_mem_nil
      · rw [hnumber, List.mem_append, not_or]
        exact ⟨by decide, not_mem_decimal_of (by decide) _⟩
    refine ⟨none, ?_, fun p hp => by cases hp⟩
    rw [Text.after_of_not_mem (c := 'p') (by decide) hlabel]
    rfl
  · have hafter : Text.after (text ".phase") run.label = some (Text.decimal p ++ e.number) := by
      rw [e.label, hsome, List.append_assoc, List.append_assoc]
      interval_cases k <;> rfl
    have hcut : (Text.cut '.' (Text.decimal p ++ e.number)).1 = Text.decimal p := by
      rcases e.numbers with ⟨hnumber, _⟩ | ⟨_, hnumber⟩
      · rw [hnumber, List.append_nil, Text.cut_of_not_mem not_mem_decimal]
      · rw [hnumber]
        exact congrArg Prod.fst (Text.cut_append not_mem_decimal _)
    refine ⟨some p, ?_, fun q hq => Option.some.inj hq ▸ hphase⟩
    rw [hafter, Option.elim_some, hcut, Text.digits_decimal]
    rfl

/-! ## The rows of a campaign -/

/-- A number that may be missing is read as it was written. -/
theorem loaded_optionalInt (n : Option ℤ) : Json.Loaded (optionalInt n) := by
  cases n with
  | none => exact .null
  | some n => exact .int n

/-- The record of the peer of a run is read as it was written. -/
theorem Run.loaded_peer {run : Run} {s : Setup} {met : Meeting} {peer : Json} (h : run.peer s met = .ok peer) :
    Json.Loaded peer := by
  rw [Run.peer] at h
  cases hcpu : run.peerCpu with
  | none =>
    rw [hcpu] at h
    exact Except.ok.inj h ▸ .null
  | some cpu =>
    rw [hcpu] at h
    obtain ⟨_, _, h⟩ := bind_ok h
    obtain ⟨_, _, h⟩ := bind_ok h
    obtain ⟨siblings, _, h⟩ := bind_ok h
    have hrecord : peerRecord met.machine cpu siblings = peer := Except.ok.inj h
    exact hrecord ▸ loaded_peerRecord _ _ _

/-- The fields of a ready line are read as they were written. -/
theorem loaded_readyFields (mode : Text) (port pid : ℕ) (bin consts : Text) :
    Json.Loaded (.obj ((readyFields mode port pid bin consts).map fun field => (field.1, .str field.2))) := by
  refine .obj (by simp [readyFields]) ?_
  rw [List.forall_mem_map]
  exact fun field _ => .str field.2

/-- The row of a run of the harness is read as it was written. -/
theorem loaded_row {run : Run} (hl : run.level ≠ text "L8") (hrate : Binary64.isNaN run.rate.bits = false)
    (vehicleArgv : List Text) : Json.Loaded (.obj (run.fields ++ completed vehicleArgv [] .null)) := by
  rw [Run.fields_harness hl]
  refine .obj (by simp [completed]) ?_
  rw [List.forall_mem_append]
  simp only [completed, List.forall_mem_cons]
  exact ⟨⟨.str _, .str _, loaded_texts _, loaded_optionalInt _, .int _, .int _, .float hrate, .int _, .str _,
    List.forall_mem_nil _⟩, .bool _, .null, .int _, .null, loaded_texts _, loaded_texts _, List.forall_mem_nil _⟩

/-- The row of a run of L8 is read as it was written. -/
theorem loaded_peeredRow {run : Run} (hl : run.level = text "L8") (hrate : Binary64.isNaN run.rate.bits = false)
    {peer ready : Json} (hpeer : Json.Loaded peer) (hready : Json.Loaded ready) (vehicleArgv simArgv : List Text) :
    Json.Loaded (.obj (run.fields ++ completed vehicleArgv simArgv (.int 0) ++ [("peer", peer), ("ready", ready)])) := by
  rw [Run.fields_last hl]
  refine .obj (by simp [completed]) ?_
  rw [List.forall_mem_append, List.forall_mem_append]
  simp only [completed, List.forall_mem_cons]
  exact ⟨⟨⟨.str _, .str _, loaded_texts _, loaded_optionalInt _, .int _, .int _, .float hrate, .int _, .str _,
    loaded_optionalInt _, List.forall_mem_nil _⟩, .bool _, .null, .int _, .int _, loaded_texts _, loaded_texts _,
    List.forall_mem_nil _⟩, hpeer, hready, List.forall_mem_nil _⟩

/-- What a complete run left. -/
inductive Left (run : Run) (s : Setup) (met : Meeting) : Json → Option Json → Prop
  | harness (hl : run.level ≠ text "L8") :
      Left run s met (.obj (run.fields ++ completed (run.vehicleArgv s.binary s.outdir s.str) [] .null)) none
  | peered {port : Text} {peer : Json} {ready : Ready} {report : List (String × Json)} (hl : run.level = text "L8")
      (hthrough : run.Through s met port peer ready) (hreport : met.report = some report) :
      Left run s met
        (.obj (run.fields ++ completed (run.vehicleArgv s.binary s.outdir s.str) (run.simArgv s port) (.int 0) ++
          [("peer", peer), ("ready", .obj (ready.map fun field => (field.1, .str field.2)))]))
        (some (.obj (update report (replayFields run s port met.ticksDeclared peer))))

/-- A complete run left a row, a summary and, if it has a peer, a replay. -/
theorem Run.row_ok {run : Run} {s : Setup} {met : Meeting} {row : Json} {replay : Option Json}
    (h : run.row s met = .ok (row, replay)) : Left run s met row replay ∧ met.summary.isSome = true := by
  obtain ⟨_, _, h⟩ := bind_ok h
  dsimp only at h
  by_cases hl : run.level = text "L8"
  · rw [if_pos (beq_iff_eq.mpr hl)] at h
    obtain ⟨peered, hattempt, h⟩ := bind_ok h
    obtain ⟨hthrough, hsummary, report, hreport, hreplay⟩ := Run.attemptL8_ok hattempt
    cases h
    rw [hreplay]
    exact ⟨.peered hl hthrough hreport, hsummary⟩
  · rw [if_neg (by simpa using hl)] at h
    obtain ⟨_, hattempt, h⟩ := bind_ok h
    obtain ⟨_, _, hattempt⟩ := bind_ok hattempt
    obtain ⟨summary, hsummary, _⟩ := bind_ok hattempt
    cases h
    exact ⟨.harness hl, Option.isSome_of_eq_some (orError_ok hsummary)⟩

/-- The files that a complete campaign left: the roster, and the result, the summary and the replay of each run. -/
structure Kept (files : Directory) (runs : List Run) (met : Run → Meeting) (rows : Run → Json)
    (replays : Run → Option Json) : Prop where
  roster : files (text "sweep.json") = some (.obj [("format", .str (text "tvc-sweep-1")), ("complete", .bool true),
    ("runs", .arr (runs.map rows))])
  result : ∀ run ∈ runs, files (run.label ++ text ".result.json") = some (rows run)
  summary : ∀ run ∈ runs, files (run.label ++ text ".summary.json") = (met run).summary
  replay : ∀ run ∈ runs, ∀ replay ∈ replays run, files (run.label ++ text ".replay.json") = some replay

/-- A document that is there. -/
theorem Directory.read_ok {files : Directory} {name : Text} {j : Json} (h : files name = some j) :
    files.read name = .ok j := by
  rw [Directory.read, h]
  rfl

/-- The row of a planned run passes the checks of its label. -/
theorem checkRow_eq {str : F64 → Text} {files : Directory} {seen : List Text} {row summary : Json} {s : Setup}
    (hrow : RowOf row run s) (hlevel : run.level = levelText k) (hk : k < 9) (e : LabelEnd run k)
    (hfresh : run.label ∉ seen) (hsame : row.same row = true)
    (hresult : files (run.label ++ text ".result.json") = some row)
    (hsummary : files (run.label ++ text ".summary.json") = some summary) :
    checkRow str files seen row = (do
      if (Json.str run.level).same (.str (text "L8")) then
        refuseIf (!((row.get "sim_exit").int?.any fun code => code == 0)) "failed peer in roster"
        let replay ← files.read (run.label ++ text ".replay.json")
        l8Configuration row summary replay
      else harnessConfiguration str row summary
      return run.label) := by
  obtain ⟨phase, hphase, hphaseUs⟩ := e.after_label hk
  have hcomplete : (row.fields?.isNone || !(row.get "complete").isTrue) = false := by
    rw [hrow.complete, Option.isNone_eq_false_iff.mpr hrow.fields]
    rfl
  have hlabel : (Json.str run.label).text?.filter (fun label => Sweep.labelPattern label && !seen.contains label) =
      some run.label := by
    have hseen : seen.contains run.label = false := by
      rw [← Bool.not_eq_true, List.contains_iff_mem]
      exact hfresh
    rw [Json.text?, Option.filter_some, e.labelPattern hk, hseen]
    rfl
  have hlevelSame : (!(Json.str run.level).same (.str (Text.cut '.' run.label).1)) = false := by
    rw [e.cut_label, hlevel, same_str]
    rfl
  have hnumber : (!((Json.int run.number).int?.any fun n => n == (run.number : ℤ))) = false := by
    rw [Json.int?, Option.any_some, beq_self_eq_true]
    rfl
  have hphaseSame : (phase.any fun phase => !(optionalInt run.phaseUs).same (.int (phase : ℕ))) = false := by
    cases phase with
    | none => rfl
    | some p =>
      rw [Option.any_some, hphaseUs p rfl, optionalInt, Option.elim_some, same_int]
      rfl
  have hmissing : (files (run.label ++ text ".summary.json")).isNone = false := by
    rw [hsummary]
    rfl
  have hexit : (!((Json.int 0).int?.any fun code => code == 0)) = false := rfl
  unfold checkRow
  rw [refuse_pass hcomplete, hrow.label, hlabel]
  change (do
    refuseIf (!(row.get "level").same (.str (Text.cut '.' run.label).1)) _
    _ : Except String Text) = _
  rw [hrow.level, refuse_pass hlevelSame, e.afterLast_label, ok_bind, hrow.number, refuse_pass hnumber, hphase, ok_bind,
    hrow.phase, refuse_pass hphaseSame, refuse_pass hmissing, Directory.read_ok hresult, ok_bind,
    refuse_pass (show (!row.same row) = false by rw [hsame]; rfl), hrow.vehicleExit, refuse_pass hexit,
    Directory.read_ok hsummary, ok_bind]

/-- A finite number is a number. -/
theorem isNaN_of_isFinite {x : F64} (h : x.isFinite = true) : Binary64.isNaN x.bits = false := by
  rw [F64.isFinite, bne_iff_ne] at h
  have hexponent : (Binary64.exponent x.bits == 2047) = false :=
    beq_eq_false_iff_ne.mpr fun heq => h (BitVec.eq_of_toNat_eq heq)
  rw [Binary64.isNaN, hexponent, Bool.false_and]

/-- The request of a planned run is audited. -/
theorem Run.Planned.auditable {r : Request} {s : Setup} (h : run.Planned args phases k) (hchecked : args.Checked)
    (hr : r.By args run k s.outdir) (hs : s.Sound) : r.Auditable s.str where
  label := by
    rw [hr.label, h.label, h.level]
    exact List.cons_ne_nil _ _
  outdir := hr.outdir ▸ hs.outdir
  rate := hs.nonempty _
  finite := by
    rw [hr.rate, h.rate]
    exact hchecked.finite
  positive := by
    rw [hr.rate, h.rate]
    exact hchecked.rate
  cycles := hr.admitted.cycles

/-- What a row says of the request of its run. -/
theorem RowOf.rowed {r : Request} {s : Setup} {row : Json} (hrow : RowOf row run s) (hlevel : run.level = levelText k)
    (hr : r.By args run k s.outdir) : Rowed row s.binary s.str r run.number where
  argv := by
    rw [Json.get, hrow.vehicleArgv, Request.argv, ← hr.args s.binary s.str]
    rfl
  cycles := hr.cycles ▸ hrow.cycles
  warmup := hr.warmup ▸ hrow.warmup
  number := hrow.number
  rate := hr.rate ▸ hrow.rate
  label := hr.label ▸ hrow.label
  level := by rw [hrow.level, hlevel, hr.level]

/-- What is written into a summary is what its vehicle was configured with. -/
def Truthful (strtod : Text → Option F64) (run : Run) (s : Setup) (summary : Json) : Prop :=
  ∀ c, parse strtod ((run.vehicleArgv s.binary s.outdir s.str).drop 1) = .ok c →
    Reports summary c ∧ (run.level = text "L8" → ReportsFree summary c)

/-- The row of a complete run is accepted. -/
theorem Left.checkRow_ok {strtod : Text → Option F64} {s : Setup} {met : Meeting} {row summary : Json} {replay : Option Json}
    {files : Directory} {seen : List Text} (hleft : Left run s met row replay) (h : run.Planned args phases k)
    (hchecked : args.Checked) (hfits : args.Fits) (hs : s.Sound) (hmet : run.level = text "L8" → met.Sound run)
    (hrate : strtod (s.str args.rate) = some args.rate) (htruthful : Truthful strtod run s summary)
    (hfresh : run.label ∉ seen) (hresult : files (run.label ++ text ".result.json") = some row)
    (hsummary : files (run.label ++ text ".summary.json") = some summary)
    (hreplay : ∀ j ∈ replay, files (run.label ++ text ".replay.json") = some j) :
    checkRow s.str files seen row = .ok run.label := by
  obtain ⟨r, hr⟩ := h.request hchecked hfits s.outdir
  have hread : strtod (s.str r.rate) = some r.rate := by rw [hr.rate, h.rate, hrate]
  have hparse : parse strtod ((run.vehicleArgv s.binary s.outdir s.str).drop 1) = .ok r.config := by
    rw [hr.args, Request.parse_args hr.admitted hread]
  obtain ⟨hreports, hfree⟩ := htruthful _ hparse
  have haudit := h.auditable hchecked hr hs
  have hnan : Binary64.isNaN run.rate.bits = false := isNaN_of_isFinite (h.rate ▸ hchecked.finite)
  obtain ⟨e⟩ := h.labelEnd
  have hlast := levelText_eq_last h.bound
  rw [← h.level] at hlast
  cases hleft with
  | harness hl =>
    have hk : k ≠ 8 := fun hk => hl (beq_iff_eq.mp (hlast.trans (decide_eq_true hk)))
    have hother : ¬(Json.str run.level).same (.str (text "L8")) = true := fun hsame =>
      hl (Option.some.inj (beq_iff_eq.mp hsame)).symm
    have hrowed : Rowed _ s.binary s.str r run.number := (rowOf hl s).rowed h.level hr
    have hlevel := h.bound
    rw [checkRow_eq (rowOf hl s) h.level h.bound e hfresh (Json.same_self (loaded_row hl hnan _)) hresult hsummary,
      if_neg hother, harnessConfiguration_ok (by rw [hr.level]; omega) haudit hrowed h.number.1 hs.binary r.configured
        hreports]
    rfl
  | @peered port peer ready report hl hthrough hreport =>
    obtain rfl : k = 8 := of_decide_eq_true (hlast.symm.trans (beq_iff_eq.mpr hl))
    have hsame : (Json.str run.level).same (.str (text "L8")) = true := by
      rw [hl]
      exact same_str _
    have hqualified : QUALIFIED_CYCLES ≤ run.cycles → run.peerCpu.isSome = true := by
      rw [h.cycles, h.peerCpu rfl]
      exact h.qualified rfl
    have hready : Json.Loaded (.obj (ready.map fun field => (field.1, .str field.2))) := by
      obtain ⟨n, bin, _, _, _, rfl⟩ := hthrough.ready_eq (hmet hl)
      exact loaded_readyFields _ _ _ _ _
    have hrow := peeredRow hl s port peer ready
    rw [checkRow_eq hrow.toRowOf h.level h.bound e hfresh
      (Json.same_self (loaded_peeredRow hl hnan (Run.loaded_peer hthrough.peer) hready _ _)) hresult hsummary,
      if_pos hsame, hrow.simExit, refuse_pass (show (!((Json.int 0).int?.any fun code => code == 0)) = false from rfl),
      Directory.read_ok (hreplay _ rfl), ok_bind,
      l8Configuration_ok hr haudit h.number.1 hs (hmet hl) hqualified r.configured hreports (hfree hl) hthrough hrow hreport]
    rfl

/-! ## The roster -/

/-- The labels of a planned campaign differ. -/
theorem Outcome.labels_nodup {runs : List Run} (o : Outcome int args runs) : (runs.map Run.label).Nodup := by
  have hnodup := o.nodup
  rw [List.Nodup, List.pairwise_map] at hnodup ⊢
  refine hnodup.imp_of_mem fun {run other} hrun hother hne heq => hne ?_
  obtain ⟨k, hk⟩ := o.planned hrun
  obtain ⟨l, hl⟩ := o.planned hother
  have hstarts : (run.label ++ ['.']) <+: (other.label ++ '.' :: []) := by rw [heq]
  exact hk.eq_of_isPrefix hl hstarts

/-- The rows of runs with their labels apart are checked one after the other. -/
theorem foldlM_rosterStep {str : F64 → Text} {files : Directory} {name : Text} {rows : Run → Json} {runs : List Run}
    (hnodup : (runs.map Run.label).Nodup)
    (hrows : ∀ run ∈ runs, ∀ seen, run.label ∉ seen → checkRow str files seen (rows run) = .ok run.label)
    (seen : List Text) (found : Option Json) (hseen : ∀ run ∈ runs, run.label ∉ seen) :
    ∃ seen', (runs.map rows).foldlM (rosterStep str files name) (seen, found) =
      .ok (seen', ((runs.find? fun run => run.label == name).map rows).or found) := by
  induction runs generalizing seen found with
  | nil => exact ⟨seen, rfl⟩
  | cons run rest ih =>
    obtain ⟨hfresh, hrest⟩ := List.nodup_cons.mp hnodup
    have hstep : rosterStep str files name (seen, found) (rows run) =
        .ok (run.label :: seen, if run.label = name then some (rows run) else found) := by
      rw [rosterStep, hrows run List.mem_cons_self seen (hseen run List.mem_cons_self)]
      rfl
    obtain ⟨seen', hfold⟩ := ih hrest (fun other hother => hrows other (List.mem_cons_of_mem _ hother))
      (run.label :: seen) (if run.label = name then some (rows run) else found) fun other hother => by
        rw [List.mem_cons, not_or]
        exact ⟨fun heq => hfresh (heq ▸ List.mem_map_of_mem hother), hseen other (List.mem_cons_of_mem _ hother)⟩
    refine ⟨seen', ?_⟩
    rw [List.map_cons, List.foldlM_cons, hstep, ok_bind, hfold]
    by_cases hname : run.label = name
    · have hnone : rest.find? (fun other => other.label == name) = none :=
        List.find?_eq_none.mpr fun other hother heq =>
          hfresh (hname.trans (beq_iff_eq.mp heq).symm ▸ List.mem_map_of_mem hother)
      rw [if_pos hname, hnone, List.find?_cons, beq_iff_eq.mpr hname]
      rfl
    · rw [if_neg hname, List.find?_cons, beq_eq_false_iff_ne.mpr hname]

/-- Where every run of a planned campaign is complete, `roster_row` accepts the roster for each of them and returns its
row: the audit refuses no campaign that was run as it was planned. -/
theorem rosterRow_planned {planned : List Run × Option String} (h : planRuns int args = .ok planned) (hfits : args.Fits)
    {s : Setup} (hs : s.Sound) {strtod : Text → Option F64} (hrate : strtod (s.str args.rate) = some args.rate)
    {met : Run → Meeting} (hmet : ∀ run ∈ planned.1, run.level = text "L8" → (met run).Sound run)
    (htruthful : ∀ run ∈ planned.1, ∀ summary ∈ (met run).summary, Truthful strtod run s summary)
    {rows : Run → Json} {replays : Run → Option Json}
    (hrows : ∀ run ∈ planned.1, run.row s (met run) = .ok (rows run, replays run))
    {files : Directory} (hfiles : Kept files planned.1 met rows replays) {run : Run} (hrun : run ∈ planned.1) :
    rosterRow s.str files run.label = .ok (rows run) := by
  obtain ⟨o⟩ := planRuns_outcome h
  have hcheck : ∀ run ∈ planned.1, ∀ seen, run.label ∉ seen →
      checkRow s.str files seen (rows run) = .ok run.label := by
    intro run hrun seen hfresh
    obtain ⟨k, hk⟩ := o.planned hrun
    obtain ⟨hleft, hsome⟩ := Run.row_ok (hrows run hrun)
    obtain ⟨summary, hsummary⟩ := Option.isSome_iff_exists.mp hsome
    exact hleft.checkRow_ok hk o.checked hfits hs (hmet run hrun) hrate (htruthful run hrun summary hsummary) hfresh
      (hfiles.result run hrun) ((hfiles.summary run hrun).trans hsummary) (hfiles.replay run hrun)
  obtain ⟨seen, hfold⟩ := @foldlM_rosterStep _ _ run.label _ _ o.labels_nodup hcheck [] none
    fun _ _ => List.not_mem_nil
  have hfind : planned.1.find? (fun other => other.label == run.label) = some run := by
    obtain ⟨other, hother⟩ := Option.isSome_iff_exists.mp
      (List.find?_isSome (p := fun other : Run => other.label == run.label) |>.mpr ⟨run, hrun, beq_self_eq_true _⟩)
    have hlabel : other.label = run.label := beq_iff_eq.mp (List.find?_some (p := fun o : Run => o.label == run.label) hother)
    rw [hother, List.inj_on_of_nodup_map o.labels_nodup (List.mem_of_find?_eq_some hother) hrun hlabel]
  have hne : (!(planned.1.map rows).isEmpty) = true := by
    rw [Bool.not_eq_true', List.isEmpty_eq_false_iff, ne_eq, List.map_eq_nil_iff]
    exact List.ne_nil_of_mem hrun
  unfold rosterRow
  rw [Directory.read_ok hfiles.roster, ok_bind]
  change (do
    let rows ← orError ((Json.arr (planned.1.map rows)).items?.filter fun rows => !rows.isEmpty) _
    let final ← rows.foldlM (rosterStep s.str files run.label) ([], none)
    orError final.2 _ : Except String Json) = _
  rw [Json.items?, Option.filter_some, if_pos hne]
  change ((planned.1.map rows).foldlM (rosterStep s.str files run.label) ([], none) >>= _) = _
  rw [hfold, ok_bind, hfind]
  rfl

/-! ## A campaign of one run -/

/-- Where the campaign runs; every rate is written as the one that there is. -/
def trialSetup : Setup where
  binary := text "/tvc/build/tvc_harness"
  outdir := text "/tvc/results"
  python := text "/usr/bin/python3"
  scenario := text "/tvc/sim/scenarios/S1-hold.json"
  str _ := text "500.0"

theorem trialSetup_sound : trialSetup.Sound where
  binary := by decide
  outdir := by decide
  python := by decide
  scenario := by decide
  rate _ _ := rfl
  nonempty _ := List.cons_ne_nil _ _

/-- A summary of what the vehicle was configured with. -/
def summaryOf (c : Config) : Json :=
  .obj [("mode", .str c.mode.toList), ("label", .str c.label.toList),
    ("config", .str (if c.mode == "freerun" then freerunConfig c else configString c)),
    ("cycles_requested", .int c.cycles.1), ("cycles", .int c.cycles.1), ("warmup", .int c.warmup.1),
    ("phase_us", .int c.phaseUs.1), ("period_us", .int 2000), ("ground", .obj [("requested", .bool false)]),
    ("applied", .obj [("mlock", .bool true), ("fifo", .bool true), ("cpu", .bool true), ("telemetry", .bool true),
      ("link", .bool true), ("ground", .bool false)])]

/-- What the run meets with. -/
def trialMeeting : Meeting where
  names := [text "sweep.json"]
  pid := 77
  line := readyText (text "freerun") 40000 77 (text "1a2b") (text "0xe77201ca")
  machine := ⟨[], [], [], fun _ => none, fun _ => []⟩
  idleAfter := []
  vehicleExit := 0
  simExit := 0
  expired := false
  report := some [("seed", .int 1), ("delay_ticks", .int 1), ("ticks", .int 1033), ("rate_hz", .int 500),
    ("period_ns", .int 2000000)]
  ticksDeclared := 10000
  audit := .ok ()
  summary := (parse (fun _ => some 500.0) (((trialRun 1 (text "L8")).vehicleArgv trialSetup.binary trialSetup.outdir trialSetup.str).drop 1)).toOption.map summaryOf

theorem trialMeeting_sound : trialMeeting.Sound (trialRun 1 (text "L8")) where
  line := ⟨40000, text "1a2b", text "0xe77201ca", by decide, by decide, not_blank (by decide), not_blank (by decide), rfl⟩
  report := by
    rintro report ⟨⟩
    exact ⟨rfl, rfl, rfl, rfl, rfl⟩
  ticksDeclared := rfl
  siblings := by
    intro a b xs ys h
    cases h

/-- What the run left. -/
def trialLeft : Json × Option Json :=
  (((trialRun 1 (text "L8")).row trialSetup trialMeeting).toOption).getD (.null, none)

/-- The files of the campaign. -/
def trialFiles : Directory := fun name =>
  if name = text "sweep.json" then
    some (.obj [("format", .str (text "tvc-sweep-1")), ("complete", .bool true), ("runs", .arr [trialLeft.1])])
  else if name = text "L8.result.json" then some trialLeft.1
  else if name = text "L8.summary.json" then trialMeeting.summary
  else trialLeft.2

theorem trial_row : ((trialRun 1 (text "L8")).row trialSetup trialMeeting).isOk = true := by decide +kernel

/-- The roster of a campaign of one run of L8 is accepted. -/
theorem rosterRow_planned_trial : rosterRow trialSetup.str trialFiles (text "L8") = .ok trialLeft.1 := by
  have hrow : (trialRun 1 (text "L8")).row trialSetup trialMeeting = .ok (trialLeft.1, trialLeft.2) := by
    have hok := trial_row
    unfold trialLeft
    cases h : (trialRun 1 (text "L8")).row trialSetup trialMeeting with
    | ok x => rfl
    | error e =>
      rw [h] at hok
      cases hok
  have htruthful : Truthful (fun _ => some 500.0) (trialRun 1 (text "L8")) trialSetup ((trialMeeting.summary).getD .null) := by
    intro c hc
    have hsummary : trialMeeting.summary = some (summaryOf c) := by
      unfold trialMeeting
      dsimp only
      rw [hc]
      rfl
    rw [hsummary]
    exact ⟨⟨rfl, rfl, rfl⟩, fun _ => ⟨rfl, rfl, rfl⟩⟩
  have hkept : Kept trialFiles [trialRun 1 (text "L8")] (fun _ => trialMeeting) (fun _ => trialLeft.1) fun _ => trialLeft.2 := by
    refine ⟨rfl, fun run hrun => ?_, fun run hrun => ?_, fun run hrun replay hreplay => ?_⟩
    · exact List.mem_singleton.mp hrun ▸ rfl
    · exact List.mem_singleton.mp hrun ▸ rfl
    · obtain rfl := List.mem_singleton.mp hrun
      exact hreplay
  refine @rosterRow_planned trialInt (trialArgs 1) _ trial_planned trial_fits trialSetup trialSetup_sound
    (fun _ => some 500.0) rfl (fun _ => trialMeeting) (fun run hrun _ => List.mem_singleton.mp hrun ▸ trialMeeting_sound)
    (fun run hrun summary hsummary => ?_) (fun _ => trialLeft.1) (fun _ => trialLeft.2)
    (fun run hrun => List.mem_singleton.mp hrun ▸ hrow) trialFiles hkept (trialRun 1 (text "L8")) (List.mem_singleton.mpr rfl)
  obtain rfl := List.mem_singleton.mp hrun
  rw [hsummary] at htruthful
  exact htruthful

end Tvc.Sweep
