import Tvc.Sweep.Complete

/-!
# A complete run of L8 passes its audit

The command lines of the vehicle and of the peer, what the ready line says and what the replay says of both are
expected by `l8_configuration`.
-/

namespace Tvc.Sweep

open Harness

attribute [local instance] ieee

/-! ## The vehicle -/

/-- The words that a free run on a CPU is configured with. -/
def lastWords (cpu : Text) : List Text :=
  [text "mode:freerun", text "abs-deadline", text "mlock", text "fifo:80", text "cpu:" ++ cpu, text "telemetry",
    text "record:control"]

/-- The fields of these words. -/
def lastFields (cpu : Text) : Fields :=
  [(text "mode", text "freerun"), (text "abs-deadline", []), (text "mlock", []), (text "fifo", text "80"),
    (text "cpu", cpu), (text "telemetry", []), (text "record", text "control")]

/-- The vehicle of L8 writes these words. -/
theorem freerunWords_eq {c : Config} {r : Request} (h : Configured c r) (hr : r.level = 8) :
    freerunWords c = lastWords (Text.decimal r.cpu) := by
  have hmlock : c.mlock = decide (2 ≤ r.level) := congrArg Mitigations.mlock h.mitigations
  rw [freerunWords, (given_numbers h).1, (given_numbers h).2, hmlock, hr]
  rfl

/-- The fields of a summary with these words. -/
theorem configFields_last {summary : Json} {cpu : ℕ}
    (h : (summary.get "config").text? = some ([' '].intercalate (lastWords (Text.decimal cpu)))) :
    configFields summary = .ok (lastFields (Text.decimal cpu)) := by
  refine configFields_of_words h ?_ (List.cons_ne_nil _ _) rfl ?_ ?_
  · simp only [lastWords, List.forall_mem_cons]
    exact ⟨isWord_of_decide (by decide), isWord_of_decide (by decide), isWord_of_decide (by decide),
      isWord_of_decide (by decide), isWord_append (isWord_of_decide (by decide)) (not_blank_decimal _),
      isWord_of_decide (by decide), isWord_of_decide (by decide), List.forall_mem_nil _⟩
  · rintro v ⟨⟩
    exact canonical_decimal cpu
  · rintro v ⟨⟩
    rfl

/-- The options of a request of L8. -/
def lastOptions (label out rate cycles warmup cpu phase : Text) : List (Text × Option Text) :=
  [(text "--label", some label), (text "--out", some out), (text "--rate", some rate), (text "--cycles", some cycles),
    (text "--warmup", some warmup)] ++ (levelOptions cpu).flatten ++
  [(text "--sensor-port", some (text "0")), (text "--phase-us", some phase), (text "--skew-max-ticks", some (text "4")),
    (text "--terminal-copies", some (text "12"))]

/-- A request of L8 has these options. -/
theorem Request.options_last {r : Request} (hr : r.level = 8) (str : F64 → Text) :
    r.options str = lastOptions r.label r.outdir (str r.rate) (Text.decimal r.cycles) (Text.decimal r.warmup)
      (Text.decimal r.cpu) (Text.decimal r.phase) := by
  rw [options, if_pos hr, hr]
  rfl

/-- The vehicle of a request has the options that are expected of it. -/
theorem vehicle_expected {vehicle : Options} {label out rate cpu : Text} {cycles warmup phase : ℕ}
    (h : vehicle.Of (lastOptions label out rate (Text.decimal cycles) (Text.decimal warmup) cpu (Text.decimal phase))) :
    (vehicle.all fun o => ((expectedVehicle (lastFields cpu) label cycles warmup phase).lookup o.1).isSome ||
        [text "--rate", text "--out", text "--no-naive-log"].contains o.1) = true ∧
      ((expectedVehicle (lastFields cpu) label cycles warmup phase).all fun e => vehicle.lookup e.1 == some e.2) = true ∧
      vehicle.value (text "--rate") = rate ∧ vehicle.value (text "--out") = out := by
  have hlookup {o : Text × Option Text}
      (ho : o ∈ lastOptions label out rate (Text.decimal cycles) (Text.decimal warmup) cpu (Text.decimal phase)) :
      vehicle.lookup o.1 = some o.2 := (Options.lookup_eq_some h.nodup).mpr ((h.mem o).mpr ho)
  refine ⟨List.all_eq_true.mpr fun o ho => ?_, List.all_eq_true.mpr fun e he => ?_, ?_, ?_⟩
  · have hall : ∀ o ∈ lastOptions label out rate (Text.decimal cycles) (Text.decimal warmup) cpu (Text.decimal phase),
        (((expectedVehicle (lastFields cpu) label cycles warmup phase).lookup o.1).isSome ||
          [text "--rate", text "--out", text "--no-naive-log"].contains o.1) = true := by
      change ∀ o ∈ [_, _, _, _, _, _, _, _, _, _, _, _, _, _, _, _, _, _, _, _, _, _], _
      simp only [List.forall_mem_cons]
      exact ⟨rfl, rfl, rfl, rfl, rfl, rfl, rfl, rfl, rfl, rfl, rfl, rfl, rfl, rfl, rfl, rfl, rfl, rfl, rfl, rfl, rfl, rfl,
        List.forall_mem_nil _⟩
    exact hall o ((h.mem o).mp ho)
  · have hall : ∀ e ∈ expectedVehicle (lastFields cpu) label cycles warmup phase,
        e ∈ lastOptions label out rate (Text.decimal cycles) (Text.decimal warmup) cpu (Text.decimal phase) := by
      change ∀ e ∈ [_, _, _, _, _, _, _, _, _, _, _, _, _, _, _, _], _
      simp only [List.forall_mem_cons, Text.integer_natCast]
      simp [lastOptions, levelOptions]
    exact beq_iff_eq.mpr (hlookup (hall e he))
  · unfold Options.value
    rw [hlookup (o := (text "--rate", some rate)) (by simp [lastOptions])]
    rfl
  · unfold Options.value
    rw [hlookup (o := (text "--out", some out)) (by simp [lastOptions])]
    rfl

/-! ## The peer -/

/-- The options of the peer. -/
def peerOptions (scenario label out ticks port : Text) : List (Text × Option Text) :=
  [(text "--mode", some (text "freerun")), (text "--scenario", some scenario), (text "--seed", some (text "1")),
    (text "--loss", some (text "0.0")), (text "--delay-ticks", some (text "1")), (text "--ticks", some ticks),
    (text "--vehicle", some (text "127.0.0.1:" ++ port)), (text "--bind-port", some (text "0")),
    (text "--terminal-copies", some (text "12")), (text "--out", some out), (text "--label", some label)]

/-- The command line of the peer. -/
theorem Run.simArgv_eq (run : Run) (s : Setup) (port : Text) :
    run.simArgv s port = [s.python, text "-B", text "-m", text "sim.run_sim"] ++
      (peerOptions s.scenario run.label s.outdir (Text.integer (peerTicks run.cycles run.warmup)) port).map optionText :=
  rfl

/-- The options of the peer are options. -/
theorem isOption_peerOptions {scenario label out ticks port : Text} (hscenario : scenario ≠ []) (hlabel : label ≠ [])
    (hout : out ≠ []) (hticks : ticks ≠ []) : ∀ o ∈ peerOptions scenario label out ticks port, IsOption o := by
  have hvalue {key value : Text} (hkey : '=' ∉ key) (hdashes : (text "--").isPrefixOf key = true) (hne : value ≠ []) :
      IsOption (key, some value) := ⟨hkey, hdashes, fun h => hne (Option.some.inj h)⟩
  simp only [peerOptions, List.forall_mem_cons]
  exact ⟨hvalue (by decide) (by decide) (by decide), hvalue (by decide) (by decide) hscenario,
    hvalue (by decide) (by decide) (by decide), hvalue (by decide) (by decide) (by decide),
    hvalue (by decide) (by decide) (by decide), hvalue (by decide) (by decide) hticks,
    hvalue (by decide) (by decide) (List.cons_ne_nil _ _), hvalue (by decide) (by decide) (by decide),
    hvalue (by decide) (by decide) (by decide), hvalue (by decide) (by decide) hout,
    hvalue (by decide) (by decide) hlabel, List.forall_mem_nil _⟩

/-- The value of an option of the peer. -/
def peerValue (scenario label out ticks port : Text) (key : Text) : Option Text :=
  if key = text "--mode" then some (text "freerun")
  else if key = text "--scenario" then some scenario
  else if key = text "--seed" then some (text "1")
  else if key = text "--loss" then some (text "0.0")
  else if key = text "--delay-ticks" then some (text "1")
  else if key = text "--ticks" then some ticks
  else if key = text "--vehicle" then some (text "127.0.0.1:" ++ port)
  else if key = text "--bind-port" then some (text "0")
  else if key = text "--terminal-copies" then some (text "12")
  else if key = text "--out" then some out
  else some label

/-- The options of the peer have one value for each key. -/
theorem functional_peerOptions (scenario label out ticks port : Text) :
    Functional (peerOptions scenario label out ticks port) := by
  refine @functional_of_value _ (peerValue scenario label out ticks port) ?_
  simp only [peerOptions, List.forall_mem_cons]
  exact ⟨rfl, rfl, rfl, rfl, rfl, rfl, rfl, rfl, rfl, rfl, rfl, List.forall_mem_nil _⟩

/-- The peer has the options that are expected of it. -/
theorem peer_expected {peer : Options} {scenario label out port : Text} {ticks : ℤ}
    (h : peer.Of (peerOptions scenario label out (Text.integer ticks) port)) :
    peer.agree (expectedPeer label out ticks) [text "--scenario", text "--vehicle"] = true ∧
      peer.value (text "--vehicle") = text "127.0.0.1:" ++ port ∧ peer.value (text "--scenario") = scenario := by
  have hlookup {o : Text × Option Text} (ho : o ∈ peerOptions scenario label out (Text.integer ticks) port) :
      peer.lookup o.1 = some o.2 := (Options.lookup_eq_some h.nodup).mpr ((h.mem o).mpr ho)
  refine ⟨(Options.agree_iff h).mpr ⟨?_, ?_, ?_⟩, ?_, ?_⟩
  · have hin {o : Text × Option Text} (ho : o ∈ expectedPeer label out ticks) :
        (∃ value, (o.1, value) ∈ expectedPeer label out ticks) ∨ o.1 ∈ [text "--scenario", text "--vehicle"] :=
      .inl ⟨o.2, ho⟩
    intro o ho
    by_cases hother : o.1 ∈ [text "--scenario", text "--vehicle"]
    · exact .inr hother
    · refine hin ?_
      revert o
      simp only [peerOptions, List.forall_mem_cons]
      simp [expectedPeer]
  · simp only [List.forall_mem_cons]
    exact ⟨⟨some scenario, by simp [peerOptions]⟩, ⟨some (text "127.0.0.1:" ++ port), by simp [peerOptions]⟩,
      List.forall_mem_nil _⟩
  · simp only [expectedPeer, List.forall_mem_cons]
    simp [peerOptions]
  · unfold Options.value
    rw [hlookup (o := (text "--vehicle", some (text "127.0.0.1:" ++ port))) (by simp [peerOptions])]
    rfl
  · unfold Options.value
    rw [hlookup (o := (text "--scenario", some scenario)) (by simp [peerOptions])]
    rfl

/-! ## The ready line -/

/-- The ready line is words with blanks between them. -/
theorem readyText_eq (mode : Text) (port pid : ℕ) (bin consts : Text) : readyText mode port pid bin consts =
    [' '].intercalate [text "ready", text "mode=" ++ mode, text "sensor_port=" ++ Text.decimal port,
      text "command_port=0", text "pid=" ++ Text.decimal pid, text "bin=" ++ bin, text "consts=" ++ consts] := by
  have h1 : text "ready mode=" = text "ready" ++ ' ' :: text "mode=" := rfl
  have h2 : text " sensor_port=" = ' ' :: text "sensor_port=" := rfl
  have h3 : text " command_port=0 pid=" = ' ' :: text "command_port=0" ++ ' ' :: text "pid=" := rfl
  have h4 : text " bin=" = ' ' :: text "bin=" := rfl
  have h5 : text " consts=" = ' ' :: text "consts=" := rfl
  unfold readyText
  rw [h1, h2, h3, h4, h5]
  simp only [List.intercalate_cons_cons, List.intercalate_singleton]
  simp

/-- The fields of a ready line. -/
def readyFields (mode : Text) (port pid : ℕ) (bin consts : Text) : Ready :=
  [("mode", mode), ("sensor_port", Text.decimal port), ("command_port", text "0"), ("pid", Text.decimal pid),
    ("bin", bin), ("consts", consts)]

/-- A word of a ready line with a new key. -/
theorem addReady_eq {fields : Ready} {key : String} (hkey : '=' ∉ text key) (hfresh : key ∉ fields.map Prod.fst)
    (value : Text) : addReady fields (text key ++ '=' :: value) = .ok (fields ++ [(key, value)]) := by
  have hfilter : fields.filter (fun field => field.1 != key) = fields :=
    List.filter_eq_self.mpr fun field hfield => bne_iff_ne.mpr fun heq => hfresh (heq ▸ List.mem_map_of_mem hfield)
  have hof : String.ofList (text key) = key := String.ofList_toList
  rw [addReady, Text.cut_append hkey, hof, hfilter]
  rfl

/-- A ready line is read as it was written. -/
theorem readyLine_readyText {mode bin consts : Text} {port pid : ℕ} (hmode : ∀ c ∈ mode, isBlank c = false)
    (hbin : ∀ c ∈ bin, isBlank c = false) (hconsts : ∀ c ∈ consts, isBlank c = false) (hlow : 0 < port)
    (hhigh : port ≤ 65535) :
    readyLine mode pid (readyText mode port pid bin consts) = .ok (readyFields mode port pid bin consts) := by
  have hwords : Text.words isBlank (readyText mode port pid bin consts) =
      [text "ready", text "mode=" ++ mode, text "sensor_port=" ++ Text.decimal port,
        text "command_port=0", text "pid=" ++ Text.decimal pid, text "bin=" ++ bin, text "consts=" ++ consts] := by
    rw [readyText_eq]
    refine Text.words_intercalate rfl ?_
    simp only [List.forall_mem_cons]
    exact ⟨isWord_of_decide (by decide), isWord_append (isWord_of_decide (by decide)) hmode,
      isWord_append (isWord_of_decide (by decide)) (not_blank_decimal _), isWord_of_decide (by decide),
      isWord_append (isWord_of_decide (by decide)) (not_blank_decimal _),
      isWord_append (isWord_of_decide (by decide)) hbin, isWord_append (isWord_of_decide (by decide)) hconsts,
      List.forall_mem_nil _⟩
  have hready : (text "ready ").isPrefixOf (readyText mode port pid bin consts) = true := rfl
  have hfields : [text "mode=" ++ mode, text "sensor_port=" ++ Text.decimal port, text "command_port=0",
      text "pid=" ++ Text.decimal pid, text "bin=" ++ bin, text "consts=" ++ consts].foldlM addReady [] =
      (.ok (readyFields mode port pid bin consts) : Except String Ready) := by
    have hstep {fields : Ready} {key : String} {value : Text} {rest : List Text} (hkey : '=' ∉ text key)
        (hfresh : key ∉ fields.map Prod.fst) : ((text key ++ '=' :: value) :: rest).foldlM addReady fields =
          rest.foldlM addReady (fields ++ [(key, value)]) := by
      rw [List.foldlM_cons, addReady_eq hkey hfresh]
      rfl
    change [text "mode" ++ '=' :: mode, text "sensor_port" ++ '=' :: Text.decimal port,
      text "command_port" ++ '=' :: text "0", text "pid" ++ '=' :: Text.decimal pid, text "bin" ++ '=' :: bin,
      text "consts" ++ '=' :: consts].foldlM addReady [] = _
    rw [hstep (by decide) (by simp), hstep (by decide) (by simp), hstep (by decide) (by simp), hstep (by decide) (by simp),
      hstep (by decide) (by simp), hstep (by decide) (by simp)]
    rfl
  have hmodes : (readyFields mode port pid bin consts).lookup "mode" = some mode := by simp [readyFields]
  have hports : (readyFields mode port pid bin consts).lookup "sensor_port" = some (Text.decimal port) := by
    simp [readyFields, List.lookup_cons]
  have hcommand : (readyFields mode port pid bin consts).lookup "command_port" = some (text "0") := by
    simp [readyFields, List.lookup_cons]
  have hpids : (readyFields mode port pid bin consts).lookup "pid" = some (Text.decimal pid) := by
    simp [readyFields, List.lookup_cons]
  have hall : (["mode", "sensor_port", "command_port", "pid", "bin", "consts"].all fun key =>
      ((readyFields mode port pid bin consts).lookup key).isSome) = true := by
    simp [readyFields, List.lookup_cons]
  unfold readyLine
  rw [hready, hwords, List.drop_succ_cons, List.drop_zero, hfields, ok_bind, hall, hmodes, hports, hcommand, hpids,
    Option.getD_some, Option.getD_some, Text.digits_decimal, Text.digits_decimal]
  have hrange : ¬(port = 0 ∨ 65535 < port) := by omega
  simp [refuseIf, orError, ok_bind, hrange]

/-! ## The row and the replay -/

/-- A key that is updated has its new value. -/
theorem lookup_update_of_mem {fields more : List (String × Json)} {key : String} (h : key ∈ more.map Prod.fst) :
    (update fields more).lookup key = more.lookup key := by
  have hnone : (fields.filter fun field => !(more.map Prod.fst).contains field.1).lookup key = none := by
    refine List.lookup_eq_none_iff.mpr fun field hfield => ?_
    rw [List.mem_filter, Bool.not_eq_true', ← Bool.not_eq_true, List.contains_iff_mem] at hfield
    exact bne_iff_ne.mpr fun heq => hfield.2 (heq ▸ h)
  rw [update, List.lookup_append, hnone, Option.none_or]

/-- A key that is not updated keeps its value. -/
theorem lookup_update_of_not_mem {fields more : List (String × Json)} {key : String} (h : key ∉ more.map Prod.fst) :
    (update fields more).lookup key = fields.lookup key := by
  have hmore : more.lookup key = none := List.lookup_eq_none_iff.mpr fun field hfield =>
    bne_iff_ne.mpr fun heq => h (heq ▸ List.mem_map_of_mem hfield)
  rw [update, List.lookup_append, hmore, Option.or_none]
  induction fields with
  | nil => rfl
  | cons field rest ih =>
    by_cases hkey : key = field.1
    · have hkeep : (!(more.map Prod.fst).contains field.1) = true := by
        rw [Bool.not_eq_true', ← Bool.not_eq_true, List.contains_iff_mem, ← hkey]
        exact h
      rw [List.filter_cons, if_pos hkeep, List.lookup_cons, List.lookup_cons, beq_iff_eq.mpr hkey]
    · rw [List.lookup_cons, beq_eq_false_iff_ne.mpr hkey, ← ih, List.filter_cons]
      split
      · rw [List.lookup_cons, beq_eq_false_iff_ne.mpr hkey]
      · rfl

/-- What the row of a complete run says. -/
structure RowOf (row : Json) (run : Run) (s : Setup) : Prop where
  fields : row.fields?.isSome = true
  complete : row.get "complete" = .bool true
  level : row.get "level" = .str run.level
  label : row.get "label" = .str run.label
  cycles : row.get "cycles" = .int run.cycles
  warmup : row.get "warmup" = .int run.warmup
  rate : row.get "rate" = .float run.rate.bits
  number : row.get "repeat" = .int run.number
  phase : row.get "phase_us" = optionalInt run.phaseUs
  vehicleExit : row.get "vehicle_exit" = .int 0
  vehicleArgv : row.get? "vehicle_argv" = some (texts (run.vehicleArgv s.binary s.outdir s.str))

/-- What the row of a complete run of L8 says. -/
structure PeeredRow (row : Json) (run : Run) (s : Setup) (port : Text) (peer : Json) (ready : Ready) : Prop
    extends RowOf row run s where
  simExit : row.get "sim_exit" = .int 0
  simArgv : row.get? "sim_argv" = some (texts (run.simArgv s port))
  peerCpu : row.get? "peer_cpu" = some (optionalInt run.peerCpu)
  peer : row.get? "peer" = some peer
  ready : row.get "ready" = .obj (ready.map fun field => (field.1, .str field.2))

/-- The fields of a run of the harness. -/
theorem Run.fields_harness {run : Run} (hl : run.level ≠ text "L8") :
    run.fields = [("level", .str run.level), ("description", .str run.description.toList), ("flags", texts run.flags),
      ("phase_us", optionalInt run.phaseUs), ("cycles", .int run.cycles), ("warmup", .int run.warmup),
      ("rate", .float run.rate.bits), ("repeat", .int run.number), ("label", .str run.label)] := by
  rw [Run.fields, beq_eq_false_iff_ne.mpr hl]
  rfl

/-- The fields of a run of L8. -/
theorem Run.fields_last {run : Run} (hl : run.level = text "L8") :
    run.fields = [("level", .str run.level), ("description", .str run.description.toList), ("flags", texts run.flags),
      ("phase_us", optionalInt run.phaseUs), ("cycles", .int run.cycles), ("warmup", .int run.warmup),
      ("rate", .float run.rate.bits), ("repeat", .int run.number), ("label", .str run.label),
      ("peer_cpu", optionalInt run.peerCpu)] := by
  rw [Run.fields, hl]
  rfl

/-- The row of a run of the harness. -/
theorem rowOf {run : Run} (hl : run.level ≠ text "L8") (s : Setup) :
    RowOf (.obj (run.fields ++ completed (run.vehicleArgv s.binary s.outdir s.str) [] .null)) run s := by
  rw [Run.fields_harness hl]
  constructor <;> rfl

/-- The row of a run of L8. -/
theorem peeredRow {run : Run} (hl : run.level = text "L8") (s : Setup) (port : Text) (peer : Json) (ready : Ready) :
    PeeredRow (.obj (run.fields ++ completed (run.vehicleArgv s.binary s.outdir s.str) (run.simArgv s port) (.int 0) ++
      [("peer", peer), ("ready", .obj (ready.map fun field => (field.1, .str field.2)))])) run s port peer ready := by
  rw [Run.fields_last hl]
  exact ⟨by constructor <;> rfl, rfl, rfl, rfl, rfl, rfl⟩

/-- What `run_row` adds to the report of the peer. -/
def replayFields (run : Run) (s : Setup) (port : Text) (ticksDeclared : ℤ) (peer : Json) : List (String × Json) :=
  [("vehicle_argv", texts (run.vehicleArgv s.binary s.outdir s.str)), ("sim_argv", texts (run.simArgv s port)),
    ("ticks_declared", .int ticksDeclared), ("ticks_resolved", .int (peerTicks run.cycles run.warmup)),
    ("loss", .obj [("p_up", .float 0), ("p_down", .float 0)]), ("scenario", .str (text "S1-hold")),
    ("peer_cpu", optionalInt run.peerCpu), ("peer", peer)]

/-- A run of L8 that went through. -/
structure Run.Through (run : Run) (s : Setup) (met : Meeting) (port : Text) (peer : Json) (ready : Ready) : Prop where
  line : readyLine (text "freerun") met.pid met.line = .ok ready
  consts : ready.lookup "consts" = some (text "0xe77201ca")
  port : ready.lookup "sensor_port" = some port
  peer : run.peer s met = .ok peer

/-- What a run of L8 that went through did. -/
theorem Run.attemptL8_ok {run : Run} {s : Setup} {met : Meeting} {peered : Peered} (h : run.attemptL8 s met = .ok peered) :
    run.Through s met peered.port peered.peer peered.ready ∧ met.summary.isSome = true ∧
      ∃ report, met.report = some report ∧
        peered.replay = .obj (update report (replayFields run s peered.port met.ticksDeclared peered.peer)) := by
  obtain ⟨ready, hline, h⟩ := bind_ok h
  obtain ⟨_, hconsts, h⟩ := bind_ok h
  obtain ⟨port, hport, h⟩ := bind_ok h
  obtain ⟨peer, hpeer, h⟩ := bind_ok h
  obtain ⟨_, _, h⟩ := bind_ok h
  obtain ⟨_, _, h⟩ := bind_ok h
  obtain ⟨_, _, h⟩ := bind_ok h
  obtain ⟨report, hreport, h⟩ := bind_ok h
  obtain ⟨_, _, h⟩ := bind_ok h
  obtain ⟨summary, hsummary, h⟩ := bind_ok h
  obtain ⟨_, _, h⟩ := bind_ok h
  cases h
  have hconsts := refuseIf_ok hconsts
  exact ⟨⟨hline, bne_eq_false_iff_eq.mp hconsts, orError_ok hport, hpeer⟩, by rw [orError_ok hsummary]; rfl, report,
    orError_ok hreport, rfl⟩

/-! ## The CPU of the peer -/

/-- A CPU is among the siblings of its siblings. -/
def Machine.Mutual (m : Machine) : Prop :=
  ∀ a b xs ys, m.siblings a = some xs → b ∈ xs → m.siblings b = some ys → a ∈ ys

/-- What the admission of a CPU for the peer says. -/
structure Machine.Admits (m : Machine) (cpu vehicle : ℤ) : Prop where
  nonneg : 0 ≤ cpu
  apart : cpu ≠ vehicle
  siblings : ∃ ss, m.siblings vehicle = some ss ∧ cpu ∉ ss
  idle : m.idleStates cpu ≠ []
  disabled : ∀ state ∈ m.idleStates cpu, state.2 = 1

/-- A CPU that is admitted. -/
theorem Machine.admit_ok {m : Machine} {cpu : ℤ} {vehicle : Option ℤ} {u : Unit} (h : m.admit cpu vehicle = .ok u) :
    ∃ v, vehicle = some v ∧ m.Admits cpu v := by
  obtain ⟨_, hnonneg, h⟩ := bind_ok h
  obtain ⟨_, _, h⟩ := bind_ok h
  obtain ⟨_, _, h⟩ := bind_ok h
  obtain ⟨v, hv, h⟩ := bind_ok h
  obtain ⟨_, hapart, h⟩ := bind_ok h
  obtain ⟨ss, hss, h⟩ := bind_ok h
  obtain ⟨_, hcpu, h⟩ := bind_ok h
  obtain ⟨_, _, h⟩ := bind_ok h
  obtain ⟨_, hidle, h⟩ := bind_ok h
  refine ⟨v, orError_ok hv, not_lt.mp (of_decide_eq_false (refuseIf_ok hnonneg)),
    beq_eq_false_iff_ne.mp (refuseIf_ok hapart), ⟨ss, orError_ok hss, ?_⟩,
    List.isEmpty_eq_false_iff.mp (refuseIf_ok hidle), fun state hstate => ?_⟩
  · intro hmem
    exact absurd (List.contains_iff_mem.mpr hmem) (Bool.not_eq_true _ ▸ refuseIf_ok hcpu)
  · cases hfind : (m.idleStates cpu).find? fun state => state.2 != 1 with
    | none => exact Decidable.not_not.mp fun hne => List.find?_eq_none.mp hfind state hstate (bne_iff_ne.mpr hne)
    | some found =>
      rw [hfind] at h
      cases h

/-- The record of a peer. -/
def peerRecord (m : Machine) (cpu : ℤ) (siblings : List ℤ) : Json :=
  .obj [("cpu", .int cpu), ("siblings", .arr ((siblings.mergeSort (· ≤ ·)).map .int)),
    ("idle_states", idleJson (m.idleStates cpu)), ("affinity", .arr [.int cpu]), ("policy", .str (text "SCHED_OTHER"))]

/-- The record of a peer is read as it was read. -/
theorem loaded_peerRecord (m : Machine) (cpu : ℤ) (siblings : List ℤ) : Json.Loaded (peerRecord m cpu siblings) := by
  refine .obj (by simp) ?_
  simp only [List.forall_mem_cons]
  refine ⟨.int _, .arr ?_, .arr ?_, .arr (List.forall_mem_singleton.mpr (.int _)), .str _, List.forall_mem_nil _⟩
  · exact List.forall_mem_map.mpr fun n _ => .int n
  · refine List.forall_mem_map.mpr fun state _ => .obj (by simp) ?_
    simp only [List.forall_mem_cons]
    exact ⟨.str _, .int _, List.forall_mem_nil _⟩

/-- The record of an admitted peer is accepted. -/
theorem peerRecordProblem_none {m : Machine} {cpu v : ℤ} (h : m.Admits cpu v) (siblings : List ℤ) :
    peerRecordProblem (.int cpu) (peerRecord m cpu siblings) = none := by
  have hcpu : ((Json.int cpu).int?.any fun n => decide (0 ≤ n)) = true := decide_eq_true h.nonneg
  have hsame : ((peerRecord m cpu siblings).get "cpu").same (.int cpu) = true := same_int cpu
  have haffinity : ((peerRecord m cpu siblings).get "affinity").same (.arr [.int cpu]) = true :=
    Json.same_self (j := .arr [.int cpu]) (.arr (List.forall_mem_singleton.mpr (.int _)))
  have hpolicy : ((peerRecord m cpu siblings).get "policy").same (.str (text "SCHED_OTHER")) = true := same_str _
  have hidle : (((peerRecord m cpu siblings).get "idle_states").items?.any fun states => !states.isEmpty &&
      states.all fun state => state.fields?.isSome && (state.get "name").text?.isSome &&
        (state.get "disable").same (.int 1)) = true := by
    change (!((m.idleStates cpu).map _).isEmpty && ((m.idleStates cpu).map _).all _) = true
    rw [Bool.and_eq_true, Bool.not_eq_true', List.isEmpty_eq_false_iff, ne_eq, List.map_eq_nil_iff, List.all_map,
      List.all_eq_true]
    refine ⟨h.idle, fun state hstate => ?_⟩
    change (Json.int state.2).same (.int 1) = true
    rw [h.disabled state hstate]
    exact same_int 1
  have hsiblings : (((peerRecord m cpu siblings).get "siblings").items?.any fun siblings =>
      siblings.all fun cpu => cpu.int?.isSome) = true := by
    change (((siblings.mergeSort (· ≤ ·)).map Json.int).all fun cpu => cpu.int?.isSome) = true
    rw [List.all_map]
    exact List.all_eq_true.mpr fun _ _ => rfl
  rw [peerRecordProblem, hcpu, hsame, haffinity, hpolicy, hidle, hsiblings]
  rfl

/-- An integer is the same as another one only if it is that one. -/
theorem same_int_iff {a b : ℤ} : (Json.int a).same (.int b) = true ↔ a = b := by
  have hone : (Binary64.one : ℤ) ≠ 0 := by
    unfold Binary64.one
    positivity
  rw [Json.same, beq_iff_eq]
  constructor
  · intro h
    have hworth : b * (Binary64.one : ℤ) = a * Binary64.one := Json.Worth.units.inj (Option.some.inj h)
    exact (mul_right_cancel₀ hone hworth).symm
  · rintro rfl
    rfl

/-- The peer of a run keeps its discipline. -/
theorem peerDiscipline_ok {row replay peer : Json} {run : Run} {s : Setup} {met : Meeting} {cpu : ℕ}
    (hrow : row.get? "peer_cpu" = some (optionalInt run.peerCpu) ∧ row.get? "peer" = some peer)
    (hreplay : replay.get? "peer_cpu" = some (optionalInt run.peerCpu) ∧ replay.get? "peer" = some peer)
    (hpeer : run.peer s met = .ok peer)
    (hvehicle : vehicleCpu (run.vehicleArgv s.binary s.outdir s.str) = .ok (some (cpu : ℤ)))
    (hmutual : met.machine.Mutual) (hqualified : QUALIFIED_CYCLES ≤ run.cycles → run.peerCpu.isSome = true) :
    peerDiscipline row replay run.cycles (some (Text.decimal cpu)) = .ok () := by
  have hsame {x : Json} (hx : Json.Loaded x) {key : String} (h : replay.get? key = some x) (h' : row.get? key = some x) :
      sameUnder key replay row = true := by
    rw [sameUnder, h, h']
    exact Json.same_self hx
  have hgets : row.get "peer_cpu" = optionalInt run.peerCpu ∧ row.get "peer" = peer := by
    rw [Json.get, Json.get, hrow.1, hrow.2]
    exact ⟨rfl, rfl⟩
  unfold peerDiscipline
  rw [hgets.1, hgets.2, hrow.1, hrow.2]
  cases hcpu : run.peerCpu with
  | none =>
    have hnull : peer = .null := by
      rw [Run.peer, hcpu] at hpeer
      exact (Except.ok.inj hpeer).symm
    have hshort : ¬QUALIFIED_CYCLES ≤ run.cycles := fun h => by
      have hsome := hqualified h
      rw [hcpu] at hsome
      cases hsome
    rw [hcpu] at hreplay hrow
    rw [hsame .null hreplay.1 hrow.1, hsame (hnull ▸ .null) hreplay.2 hrow.2, hnull, decide_eq_false hshort]
    rfl
  | some p =>
    rw [Run.peer, hcpu] at hpeer
    obtain ⟨vehicle, hv, hpeer⟩ := bind_ok hpeer
    obtain ⟨_, hadmit, hrecord⟩ := bind_ok hpeer
    obtain ⟨v, rfl, hadmits⟩ := Machine.admit_ok hadmit
    obtain ⟨siblings, hsiblings, hrecord⟩ := bind_ok hrecord
    have hpeerEq : peerRecord met.machine p siblings = peer := Except.ok.inj hrecord
    obtain rfl : v = cpu := Option.some.inj (Except.ok.inj (hv.symm.trans hvehicle))
    obtain ⟨others, hothers, hfresh⟩ := hadmits.siblings
    have hvehicleFresh : (cpu : ℤ) ∉ siblings := fun hmem =>
      hfresh (hmutual p cpu siblings others (orError_ok hsiblings) hmem hothers)
    have hnone : peerRecordProblem (.int p) peer = none := hpeerEq ▸ peerRecordProblem_none hadmits siblings
    have hshares : ((some cpu).any fun (n : ℕ) => (Json.int p).same (.int n) ||
        ((peer.get "siblings").items?.getD []).any fun s => s.same (.int n)) = false := by
      rw [Option.any_some, Bool.or_eq_false_iff, ← Bool.not_eq_true, same_int_iff, ← hpeerEq]
      refine ⟨hadmits.apart, List.any_eq_false.mpr ?_⟩
      change ∀ s ∈ (siblings.mergeSort (· ≤ ·)).map Json.int, _
      refine List.forall_mem_map.mpr fun n hn => ?_
      rw [same_int_iff]
      rintro rfl
      exact hvehicleFresh (List.mem_mergeSort.mp hn)
    rw [hcpu] at hreplay hrow
    rw [hsame (.int p) hreplay.1 hrow.1, hsame (hpeerEq ▸ loaded_peerRecord _ _ _) hreplay.2 hrow.2]
    change (do
      (peerRecordProblem (.int p) peer).elim (.ok ()) .error
      refuseIf _ _ : Except String Unit) = _
    rw [hnone]
    change refuseIf (((some (Text.decimal cpu)).bind Text.digits).any fun (n : ℕ) => (Json.int p).same (.int n) ||
      ((peer.get "siblings").items?.getD []).any fun s => s.same (.int n)) _ = _
    rw [Option.bind_some, Text.digits_decimal, hshares]
    rfl

/-! ## The audit of L8 -/

/-- What a summary of a free run says besides. -/
structure ReportsFree (summary : Json) (c : Config) : Prop where
  warmup : summary.get "warmup" = .int c.warmup.1
  phase : summary.get "phase_us" = .int c.phaseUs.1
  period : summary.get "period_us" = .int 2000

/-- What the report of the peer says of its command line. -/
structure ReportsPeer (report : List (String × Json)) (ticks : ℤ) : Prop where
  seed : report.lookup "seed" = some (.int 1)
  delay : report.lookup "delay_ticks" = some (.int 1)
  ticks : report.lookup "ticks" = some (.int ticks)
  rate : report.lookup "rate_hz" = some (.int 500)
  period : report.lookup "period_ns" = some (.int 2000000)

/-- What the replay of a complete run of L8 says. -/
structure Replayed (replay : Json) (run : Run) (s : Setup) (port : Text) (peer : Json) : Prop where
  fields : replay.fields?.isSome = true
  expected : ∀ e ∈ expectedReplay (peerTicks run.cycles run.warmup), replay.get? e.1 = some e.2
  vehicleArgv : replay.get? "vehicle_argv" = some (texts (run.vehicleArgv s.binary s.outdir s.str))
  simArgv : replay.get? "sim_argv" = some (texts (run.simArgv s port))
  peerCpu : replay.get? "peer_cpu" = some (optionalInt run.peerCpu)
  peer : replay.get? "peer" = some peer

/-- The replay of a run. -/
theorem replayed {report : List (String × Json)} {run : Run} (hreport : ReportsPeer report (peerTicks run.cycles run.warmup))
    (s : Setup) (port : Text) (peer : Json) :
    Replayed (.obj (update report (replayFields run s port 10000 peer))) run s port peer := by
  have hnew {key : String} {x : Json} (h : (replayFields run s port 10000 peer).lookup key = some x) :
      (Json.obj (update report (replayFields run s port 10000 peer))).get? key = some x := by
    have hmem : key ∈ (replayFields run s port 10000 peer).map Prod.fst := by
      obtain ⟨field, hfield, heq⟩ := List.lookup_isSome_iff.mp (Option.isSome_of_eq_some h)
      exact eq_of_beq heq ▸ List.mem_map_of_mem hfield
    exact (lookup_update_of_mem hmem).trans h
  have hold {key : String} {x : Json} (hkey : key ∉ (replayFields run s port 10000 peer).map Prod.fst)
      (h : report.lookup key = some x) :
      (Json.obj (update report (replayFields run s port 10000 peer))).get? key = some x :=
    (lookup_update_of_not_mem hkey).trans h
  refine ⟨rfl, ?_, hnew rfl, hnew rfl, hnew rfl, hnew rfl⟩
  simp only [expectedReplay, List.forall_mem_cons]
  exact ⟨hold (by simp [replayFields]) hreport.seed, hold (by simp [replayFields]) hreport.delay,
    hold (by simp [replayFields]) hreport.ticks, hnew rfl, hnew rfl, hnew rfl,
    hold (by simp [replayFields]) hreport.rate, hold (by simp [replayFields]) hreport.period, hnew rfl,
    List.forall_mem_nil _⟩

/-- Texts are read as they were written. -/
theorem loaded_texts (ts : List Text) : Json.Loaded (texts ts) :=
  .arr (List.forall_mem_map.mpr fun t _ => .str t)

/-- A double that is 500 is the integer 500. -/
theorem same_rate {x : F64} (h : Freerun.differ x 500.0 = false) : (Json.float x.bits).same (.int 500) = true := by
  rw [Freerun.differ, Bool.not_eq_false', Bool.and_eq_true] at h
  have hworth : (Json.float x.bits).worth = (Json.float (500.0 : F64).bits).worth := Json.worth_of_le h.1 h.2
  have hnan : Binary64.isNaN x.bits = false := by
    have hle : Binary64.le x.bits (500.0 : F64).bits = true := h.1
    rw [Binary64.le, Bool.and_eq_true, Bool.and_eq_true] at hle
    exact Bool.not_eq_true' _ ▸ hle.1.1
  have hint : (Json.int 500).worth = (Json.float (500.0 : F64).bits).worth := by decide +kernel
  rw [Json.same, hnan, hint, hworth]
  exact beq_self_eq_true _

/-- What is promised of the programs and paths of a campaign. -/
structure Setup.Sound (s : Setup) : Prop where
  binary : s.binary ≠ []
  outdir : s.outdir ≠ []
  python : s.python ≠ []
  scenario : pathName s.scenario = text "S1-hold.json"
  rate : ∀ x, Freerun.differ x 500.0 = false → s.str x = text "500.0"
  nonempty : ∀ x, s.str x ≠ []

/-- What a run of L8 meets with: the vehicle prints its ready line, the peer reports what it was asked for, and the
machine knows its CPUs. -/
structure Meeting.Sound (met : Meeting) (run : Run) : Prop where
  line : ∃ port bin consts, 0 < port ∧ port ≤ 65535 ∧ (∀ c ∈ bin, isBlank c = false) ∧
    (∀ c ∈ consts, isBlank c = false) ∧ met.line = readyText (text "freerun") port met.pid bin consts
  report : ∀ report ∈ met.report, ReportsPeer report (peerTicks run.cycles run.warmup)
  ticksDeclared : met.ticksDeclared = 10000
  siblings : met.machine.Mutual

/-- The ready line of a run that went through. -/
theorem Run.Through.ready_eq {run : Run} {s : Setup} {met : Meeting} {port : Text} {peer : Json} {ready : Ready}
    (h : run.Through s met port peer ready) (hmet : met.Sound run) : ∃ n bin, 0 < n ∧ n ≤ 65535 ∧ port = Text.decimal n ∧
      ready = readyFields (text "freerun") n met.pid bin (text "0xe77201ca") := by
  obtain ⟨n, bin, consts, hlow, hhigh, hbin, hconsts, hline⟩ := hmet.line
  have hready := h.line
  rw [hline, readyLine_readyText (not_blank (by decide)) hbin hconsts hlow hhigh] at hready
  obtain rfl := Except.ok.inj hready
  have hequal : consts = text "0xe77201ca" := Option.some.inj h.consts
  exact ⟨n, bin, hlow, hhigh, (Option.some.inj h.port).symm, by rw [hequal]⟩

/-- The endpoint of a vehicle on this machine has its port. -/
theorem endpointPort_decimal {n : ℕ} (h : 0 < n) : endpointPort (text "127.0.0.1:" ++ Text.decimal n) = some (Text.decimal n) := by
  have hzero : (Text.decimal n != text "0") = true := bne_iff_ne.mpr fun heq => by
    have hn : n = 0 := Text.decimal_injective heq
    omega
  have hstart : (text "127.0.0.1:").isPrefixOf (text "127.0.0.1:" ++ Text.decimal n) = true := rfl
  have hdrop : (text "127.0.0.1:" ++ Text.decimal n).drop 10 = Text.decimal n := rfl
  rw [endpointPort, hstart, hdrop, canonical_decimal, hzero]
  rfl

/-- The options of the vehicle of a request of L8 are read. -/
theorem Request.argvOptions_last {r : Request} (hr : r.level = 8) {str : F64 → Text} {binary : Text} (hbinary : binary ≠ [])
    (haudit : r.Auditable str) : ∃ vehicle : Options, argvOptions (texts (r.argv binary str)) 1 = .ok vehicle ∧
      vehicle.Of (lastOptions r.label r.outdir (str r.rate) (Text.decimal r.cycles) (Text.decimal r.warmup)
        (Text.decimal r.cpu) (Text.decimal r.phase)) := by
  have hne : r.options str ≠ [] :=
    List.append_ne_nil_of_left_ne_nil (List.append_ne_nil_of_left_ne_nil (List.cons_ne_nil _ _) _) _
  obtain ⟨vehicle, hvehicle, hof⟩ := argvOptions_texts (List.forall_mem_singleton.mpr hbinary) hne
    (Request.isOption haudit.label haudit.outdir haudit.rate) (r.functional str)
  rw [Request.map_options] at hvehicle
  rw [Request.options_last hr] at hof
  exact ⟨vehicle, hvehicle, hof⟩

/-- The options of the peer are read. -/
theorem Run.argvOptions_peer {run : Run} {s : Setup} (hs : s.Sound) (hlabel : run.label ≠ [])
    (hticks : Text.integer (peerTicks run.cycles run.warmup) ≠ []) (port : Text) :
    ∃ peer : Options, argvOptions (texts (run.simArgv s port)) 4 = .ok peer ∧
      peer.Of (peerOptions s.scenario run.label s.outdir (Text.integer (peerTicks run.cycles run.warmup)) port) := by
  have hscenario : s.scenario ≠ [] := fun h => by
    have hname := hs.scenario
    rw [h] at hname
    cases hname
  have hfront : ∀ t ∈ [s.python, text "-B", text "-m", text "sim.run_sim"], t ≠ [] := by
    simp only [List.forall_mem_cons]
    exact ⟨hs.python, by decide, by decide, by decide, List.forall_mem_nil _⟩
  have hne : peerOptions s.scenario run.label s.outdir (Text.integer (peerTicks run.cycles run.warmup)) port ≠ [] :=
    List.cons_ne_nil _ _
  have hread := argvOptions_texts hfront hne (isOption_peerOptions hscenario hlabel hs.outdir hticks)
    (functional_peerOptions _ _ _ _ port)
  rw [← Run.simArgv_eq] at hread
  exact hread

/-- The CPU of the vehicle of a request of L8. -/
theorem vehicleCpu_last {argv : List Text} {vehicle : Options} {label out rate cycles warmup phase : Text} {cpu : ℕ}
    (h : argvOptions (texts argv) 1 = .ok vehicle)
    (hof : vehicle.Of (lastOptions label out rate cycles warmup (Text.decimal cpu) phase)) :
    vehicleCpu argv = .ok (some (cpu : ℤ)) := by
  have hlookup : vehicle.lookup (text "--cpu") = some (some (Text.decimal cpu)) :=
    (Options.lookup_eq_some hof.nodup (o := (text "--cpu", some (Text.decimal cpu)))).mpr
      ((hof.mem _).mpr (by simp [lastOptions, levelOptions]))
  have hvalue : vehicle.value (text "--cpu") = Text.decimal cpu := by
    rw [Options.value, hlookup]
    rfl
  have hsome : ¬(Text.decimal cpu).isEmpty = true := fun h => Text.decimal_ne_nil cpu (List.isEmpty_iff.mp h)
  unfold vehicleCpu
  rw [h, ok_bind, hvalue]
  dsimp only
  rw [if_neg hsome, Text.digits_decimal]
  rfl

/-- What is expected of the replay is read as it was written. -/
theorem loaded_expectedReplay {ticks : ℤ} : ∀ e ∈ expectedReplay ticks, Json.Loaded e.2 := by
  have hzero : Binary64.isNaN 0 = false := by decide
  simp only [expectedReplay, List.forall_mem_cons]
  refine ⟨.int _, .int _, .int _, .int _, .int _, .str _, .int _, .int _, .obj (by decide) ?_, List.forall_mem_nil _⟩
  simp only [List.forall_mem_cons]
  exact ⟨.float hzero, .float hzero, List.forall_mem_nil _⟩

/-- An integer that is there. -/
theorem orError_int (n : ℤ) (message : String) : orError (Json.int n).int? message = .ok n := rfl

/-- A text that is there. -/
theorem orError_text (t : Text) (message : String) : orError (Json.str t).text? message = .ok t := rfl

/-- A complete run of L8 is accepted. -/
theorem l8Configuration_ok {args : Args} {run : Run} {s : Setup} {met : Meeting} {port : Text} {peer row summary : Json}
    {ready : Ready} {report : List (String × Json)} {r : Request} {c : Config} (hr : r.By args run 8 s.outdir)
    (haudit : r.Auditable s.str) (hnumber : 1 ≤ run.number) (hs : s.Sound) (hmet : met.Sound run)
    (hqualified : QUALIFIED_CYCLES ≤ run.cycles → run.peerCpu.isSome = true) (hc : Configured c r)
    (hsummary : Reports summary c) (hfree : ReportsFree summary c) (hthrough : run.Through s met port peer ready)
    (hrow : PeeredRow row run s port peer ready) (hreport : met.report = some report) :
    l8Configuration row summary (.obj (update report (replayFields run s port met.ticksDeclared peer))) = .ok () := by
  have hlevel : r.level = 8 := hr.level
  obtain ⟨n, bin, hlow, hhigh, hport, hready⟩ := hthrough.ready_eq hmet
  have hreplay := replayed (hmet.report report hreport) s port peer
  rw [hmet.ticksDeclared]
  generalize Json.obj (update report (replayFields run s port 10000 peer)) = replay at hreplay ⊢
  have hargv : run.vehicleArgv s.binary s.outdir s.str = r.argv s.binary s.str := by
    rw [Request.argv, ← hr.args s.binary s.str]
    rfl
  obtain ⟨vehicle, hvehicle, hvehicleOf⟩ := r.argvOptions_last hlevel hs.binary haudit
  rw [← hargv] at hvehicle
  obtain ⟨hknown, hexpected, hrateValue, houtValue⟩ := vehicle_expected hvehicleOf
  have hcycles := hr.cycles
  have hwarmup := hr.warmup
  have hticks : Text.integer (peerTicks run.cycles run.warmup) ≠ [] := by
    have hnat : peerTicks run.cycles run.warmup = ((r.cycles + r.warmup + 33 : ℕ) : ℤ) := by
      rw [peerTicks, ← hcycles, ← hwarmup]
      omega
    rw [hnat, Text.integer_natCast]
    exact Text.decimal_ne_nil _
  obtain ⟨peerOpts, hpeerOpts, hpeerOf⟩ := run.argvOptions_peer hs (hr.label ▸ haudit.label) hticks port
  obtain ⟨hagree, hendpoint, hscenario⟩ := peer_expected hpeerOf
  have hsame {key : String} {x : Json} (hx : Json.Loaded x) (h : row.get? key = some x)
      (h' : replay.get? key = some x) : (!sameUnder key replay row) = false := by
    rw [sameUnder, h, h', Bool.not_eq_false']
    exact Json.same_self hx
  have hvehicleArgv : row.get "vehicle_argv" = texts (run.vehicleArgv s.binary s.outdir s.str) := by
    rw [Json.get, hrow.vehicleArgv]
    rfl
  have hsimArgv : row.get "sim_argv" = texts (run.simArgv s port) := by
    rw [Json.get, hrow.simArgv]
    rfl
  have hinvocation : (!(Json.arr ((((texts (run.simArgv s port)).items?.getD []).take 4).drop 1)).same
      (.arr [.str (text "-B"), .str (text "-m"), .str (text "sim.run_sim")])) = false := by
    have hitems : Json.arr ((((texts (run.simArgv s port)).items?.getD []).take 4).drop 1) =
        texts [text "-B", text "-m", text "sim.run_sim"] := rfl
    rw [hitems, Bool.not_eq_false']
    exact Json.same_self (loaded_texts _)
  unfold l8Configuration
  rw [refuse_pass (Option.isNone_eq_false_iff.mpr hreplay.fields),
    refuse_pass (hsame (loaded_texts _) hrow.vehicleArgv hreplay.vehicleArgv),
    refuse_pass (hsame (loaded_texts _) hrow.simArgv hreplay.simArgv),
    hvehicleArgv, hsimArgv, hvehicle, ok_bind, hpeerOpts, ok_bind, refuse_pass hinvocation]
  have hcyclesRow : row.get "cycles" = .int (r.cycles : ℤ) := hcycles ▸ hrow.cycles
  have hwarmupRow : row.get "warmup" = .int (r.warmup : ℤ) := hwarmup ▸ hrow.warmup
  have hphaseRow : row.get "phase_us" = .int (r.phase : ℤ) := by
    rw [hrow.phase, hr.phase rfl]
    rfl
  have hlabelRow : row.get "label" = .str r.label := hr.label ▸ hrow.label
  have hrateRow : row.get "rate" = .float r.rate.bits := hr.rate ▸ hrow.rate
  obtain ⟨hdiffer, hlong, _⟩ := hr.admitted.limits hlevel
  have hphase := r.phase_range
  have hconfiguration : (decide ((r.cycles : ℤ) < 1000) || decide ((r.warmup : ℤ) < 0) || decide ((run.number : ℤ) < 1) ||
      !(decide (0 < (r.phase : ℤ)) && decide ((r.phase : ℤ) < 2000)) ||
      !(kind (.float r.rate.bits) == 2 || kind (.float r.rate.bits) == 3) ||
      !(Json.float r.rate.bits).same (.int 500)) = false := by
    rw [same_rate hdiffer, decide_eq_false (by omega), decide_eq_false (by omega), decide_eq_false (by omega),
      decide_eq_true hphase.1, decide_eq_true hphase.2]
    rfl
  have hcSummary : (!(summary.get "label").same (.str r.label) || !(summary.get "cycles_requested").same (.int r.cycles) ||
      !(summary.get "warmup").same (.int r.warmup) || !(summary.get "phase_us").same (.int r.phase) ||
      !(summary.get "period_us").same (.int 2000)) = false := by
    rw [hsummary.label, hsummary.cycles, hfree.warmup, hfree.phase, hfree.period, hc.label, String.toList_ofList, hc.cycles,
      hc.warmup, (hc.last hlevel).2.1, same_str, same_int, same_int, same_int, same_int]
    rfl
  have hmode : (c.mode == "freerun") = true := by
    have hmode : c.mode = if 8 ≤ r.level then "freerun" else "harness" := congrArg Mitigations.mode hc.mitigations
    rw [hmode, if_pos (by omega)]
    decide
  have hconfig : configFields summary = .ok (lastFields (Text.decimal r.cpu)) := configFields_last (by
    rw [hsummary.config, hmode, if_pos rfl, freerunConfig_eq, freerunWords_eq hc hlevel]
    rfl)
  rw [hcyclesRow, hwarmupRow, hphaseRow, hrow.number, hrateRow, hlabelRow, orError_int, ok_bind, orError_int, ok_bind,
    orError_int, ok_bind, orError_int, ok_bind, refuse_pass hconfiguration, orError_text, ok_bind, refuse_pass hcSummary,
    hconfig, ok_bind]
  have habsent : ([text "mlock", text "cpu", text "fifo"].any fun key =>
      ((lastFields (Text.decimal r.cpu)).lookup key).isNone && (vehicle.lookup (text "--" ++ key)).isSome) = false := rfl
  have hrateText : (!([text "500", text "500.0"].contains (vehicle.value (text "--rate"))) ||
      (vehicle.value (text "--out")).isEmpty) = false := by
    rw [hrateValue, houtValue, hs.rate r.rate hdiffer, List.isEmpty_eq_false_iff.mpr haudit.outdir]
    rfl
  have hpeerAgree : (!peerOpts.agree (expectedPeer r.label (vehicle.value (text "--out")) (peerTicks r.cycles r.warmup))
      [text "--scenario", text "--vehicle"]) = false := by
    rw [houtValue, hr.label, hr.outdir, hcycles, hwarmup, hagree]
    rfl
  have hendpointValue : endpointPort (peerOpts.value (text "--vehicle")) = some (Text.decimal n) := by
    rw [hendpoint, hport, endpointPort_decimal hlow]
  have hresolved : (!(((some (Text.decimal n)).bind Text.digits).any fun port => decide (port ≤ 65535)) ||
      pathName (peerOpts.value (text "--scenario")) != text "S1-hold.json") = false := by
    rw [Option.bind_some, Text.digits_decimal, Option.any_some, decide_eq_true hhigh, hscenario, hs.scenario]
    decide
  have hbound : ((row.get "ready").fields?.isNone || !((row.get "ready").get "mode").same (.str (text "freerun")) ||
      !((row.get "ready").get "command_port").same (.str (text "0")) ||
      !((row.get "ready").get "consts").same (.str (text "0xe77201ca")) ||
      !((row.get "ready").get "sensor_port").same (.str ((some (Text.decimal n)).getD []))) = false := by
    rw [hrow.ready, hready]
    change (!(Json.str (text "freerun")).same (.str (text "freerun")) || !(Json.str (text "0")).same (.str (text "0")) ||
      !(Json.str (text "0xe77201ca")).same (.str (text "0xe77201ca")) ||
      !(Json.str (Text.decimal n)).same (.str (Text.decimal n))) = false
    rw [same_str, same_str, same_str, same_str]
    rfl
  have hreplayed : (!(expectedReplay (peerTicks r.cycles r.warmup)).all fun e =>
      (replay.get? e.1).any fun found => kind found == kind e.2 && found.same e.2) = false := by
    rw [hcycles, hwarmup, Bool.not_eq_false', List.all_eq_true]
    intro e he
    rw [hreplay.expected e he, Option.any_some, beq_self_eq_true, Bool.true_and]
    exact Json.same_self (loaded_expectedReplay e he)
  rw [refuse_pass habsent]
  dsimp only
  rw [hknown, hexpected, refuse_pass (show (!true || !true) = false from rfl), refuse_pass hrateText, refuse_pass hpeerAgree, hendpointValue,
    refuse_pass hresolved, refuse_pass hbound, refuse_pass hreplayed, hcycles]
  exact peerDiscipline_ok ⟨hrow.peerCpu, hrow.peer⟩ ⟨hreplay.peerCpu, hreplay.peer⟩ hthrough.peer
    (vehicleCpu_last hvehicle hvehicleOf) hmet.siblings hqualified

end Tvc.Sweep
