import Tvc.Admission.Provenance
import Tvc.Freerun.Bookkeeping
import Tvc.Freerun.Nominal
import Tvc.Freerun.World

/-!
# The vehicle's end

The cycle that ends the run makes the reply that every copy repeats. Once it has run, the reason, the interval and
the reply stay. What the vehicle knows of the simulator's end it has from the frames that it took.
-/

namespace Tvc.Freerun

/-! ## The reply -/

/-- The second byte of a status word. -/
theorem status_second (state reason : U8) (rung : U32) :
    (state.setWidth 32 ||| (reason.setWidth 32 <<< 8) ||| (rung <<< 16) : U32).toNat / 256 % 256 = reason.toNat := by
  generalize hword : (state.setWidth 32 ||| (reason.setWidth 32 <<< 8) ||| (rung <<< 16) : U32) = word
  have h : word.extractLsb' 8 8 = reason := by
    refine BitVec.eq_of_getLsbD_eq fun i hi => ?_
    rw [← hword]
    have hstate : state.getLsbD (8 + i) = false := BitVec.getLsbD_of_ge _ _ (by omega)
    simp only [BitVec.getLsbD_extractLsb', BitVec.getLsbD_or, BitVec.getLsbD_setWidth, BitVec.getLsbD_shiftLeft, hi,
      hstate, show 8 + i < 32 by omega, show 8 + i < 16 by omega, show ¬8 + i < 8 by omega, decide_true, decide_false,
      Bool.not_true, Bool.not_false, Bool.and_false, Bool.false_and, Bool.or_false, Bool.false_or, Bool.true_and,
      Nat.add_sub_cancel_left, show i < 32 by omega]
  rw [← h, BitVec.extractLsb'_toNat, Nat.shiftRight_eq_div_pow]

variable [Arith F64]

omit [Arith F64] in
/-- The simulator reads the mode and the reason in the reply of a cycle. -/
theorem reply_tells (i : EpisodeInput F64) (admission : Admission) (cycle : ℕ) (e : BodyEvent) (deadline : ℤ)
    (result : EpisodeOutput F64) : ∃ value,
      decodeReply (replyOf i cycle (recordOf i admission e deadline result) e) = .ok value ∧
        stateByte value = result.state.mode.toNat ∧
        (result.state.mode = .terminated →
          reasonByte value = ((result.state.terminal.map TerminalResult.reason).getD .none).toNat) := by
  obtain ⟨value, hdecode, hstate, -⟩ := reply_reads i admission cycle e deadline result
  refine ⟨value, hdecode, hstate, fun hmode => ?_⟩
  obtain rfl := Except.ok.inj ((Lockstep.decode_replyFrame cycle _).symm.trans hdecode)
  refine (status_second (recordOf i admission e deadline result).state (recordOf i admission e deadline result).reason
    (BitVec.ofNat 32 (Lockstep.rungOf i.staleness i.fresh))).trans ?_
  unfold recordOf
  dsimp only
  rw [if_pos (beq_iff_eq.mpr hmode)]
  generalize (result.state.terminal.map TerminalResult.reason).getD .none = reason
  cases reason <;> rfl

omit [Arith F64] in
/-- A sleep that lets the cycle go on. -/
theorem slept_iff (sleepError : ℕ) : slept sleepError = true ↔ sleepError = 0 ∨ sleepError = EINTR := by
  simp [slept]

namespace VehicleSide

variable {cfg : RunConfig} {clock : ℕ → ℤ} {moment : ℕ} {v v' : VehicleSide}

/-- What an act of the vehicle comes to, with what it needs. -/
inductive Acted (cfg : RunConfig) (clock : ℕ → ℤ) (v : VehicleSide) (moment : ℕ) :
    VehicleAct → Outcome VehicleSide → Prop
  | listened {opened arrival : ℕ} {frame : Bytes} {o : Origin} (hgrounded : v.flight = none)
      (horigin : originOf cfg (.ok ⟨frame, false⟩) true (clock arrival) = some o)
      (horder : v.last < opened ∧ opened < moment ∧ moment < arrival) (hfits : o.fits cfg = true) :
      Acted cfg clock v moment (.listen opened arrival frame)
        { side := { v with last := arrival, opened, flight := some (o, .initial cfg.toConfig o.tickBase o.origin) }
          room := 1
          taken := [frame] }
  | overslept {sleepError : ℕ} {o : Origin} {x : Loop} (hflight : v.flight = some (o, x)) (hidle : v.polled = none)
      (hlater : v.last < moment) (hgoes : x.goesOn cfg.toConfig = true) (hsleep : slept sleepError = false) :
      Acted cfg clock v moment (.oversleep sleepError)
        { side := { v with last := moment, flight := some (o, x.body cfg.toConfig o.carry (overslept sleepError)) } }
  | polled {sleepError woke : ℕ} {received : Except ℕ Batch} {o : Origin} {x : Loop} (hflight : v.flight = some (o, x))
      (hidle : v.polled = none) (horder : v.last < woke ∧ woke < moment) (hgoes : x.goesOn cfg.toConfig = true)
      (hsleep : slept sleepError = true) (hwhole : whole received = true) :
      Acted cfg clock v moment (.poll sleepError woke received)
        { side := { v with last := moment, polled := some ⟨sleepError, woke, received⟩ }
          room := if received.toOption.isSome then kBatchSize else 0
          taken := framesOf received }
  | cycled {moments : CycleMoments} {stop sent pushed : Bool} {o : Origin} {x y : Loop} {polled : Polled}
      (hflight : v.flight = some (o, x)) (hpolled : v.polled = some polled) (horder : moments.InOrder v.last moment)
      (hruns : x.Runs cfg.toConfig (polled.event clock moments stop sent pushed))
      (hbody : x.body cfg.toConfig o.carry (polled.event clock moments stop sent pushed) = y) :
      Acted cfg clock v moment (.cycle moments stop sent pushed)
        { side := v.cycled moments o y, handed := if sent then some y.r.reply else none }
  | closed {o : Origin} {x : Loop} (hflight : v.flight = some (o, x)) (hidle : v.polled = none) (hopen : v.closed = none)
      (hlater : v.last < moment) (hover : x.goesOn cfg.toConfig = false) :
      Acted cfg clock v moment .close { side := { v with last := moment, closed := some moment } }
  | copied {sent : Bool} {tx : ℕ} {o : Origin} {x : Loop} (hflight : v.flight = some (o, x))
      (horder : v.last < moment ∧ moment < tx) (hclosed : v.closed.isSome = true) (hrunning : v.finished = false)
      (hended : x.r.terminalCycle ≠ 0) (hleft : v.copies + 1 < cfg.terminalCopies) :
      Acted cfg clock v moment (.copy sent tx)
        { side :=
            { v with
              last := tx
              flight := some (o, { x with r := x.r.noteCopy ⟨false, 0, sent, clock tx⟩ })
              copies := v.copies + 1 }
          handed := if sent then some x.r.reply else none }
  | quitted {e : CopyEvent} {o : Origin} {x : Loop} (hflight : v.flight = some (o, x)) (hlater : v.last < moment)
      (hclosed : v.closed.isSome = true) (hrunning : v.finished = false)
      (hdone : x.r.terminalCycle = 0 ∨ cfg.terminalCopies ≤ v.copies + 1 ∨ e.stop = true ∨ e.sleepError ≠ 0) :
      Acted cfg clock v moment (.quit e) { side := { v with last := moment, finished := true } }

/-- An act that happens. -/
theorem acted {a : VehicleAct} {out : Outcome VehicleSide} (h : v.act cfg clock moment a = some out) :
    Acted cfg clock v moment a out := by
  unfold act at h
  cases a with
  | listen opened arrival frame =>
    dsimp only at h
    split at h
    · rename_i o hgrounded horigin
      split at h
      · rename_i hguard
        obtain rfl := Option.some.inj h
        exact .listened hgrounded horigin ⟨hguard.1, hguard.2.1, hguard.2.2.1⟩ hguard.2.2.2
      · nomatch h
    · nomatch h
  | oversleep sleepError =>
    dsimp only at h
    split at h
    · rename_i o x hflight hidle
      split at h
      · rename_i hguard
        obtain rfl := Option.some.inj h
        exact .overslept hflight hidle hguard.1 hguard.2.1 hguard.2.2
      · nomatch h
    · nomatch h
  | poll sleepError woke received =>
    dsimp only at h
    split at h
    · rename_i o x hflight hidle
      split at h
      · rename_i hguard
        obtain rfl := Option.some.inj h
        exact .polled hflight hidle ⟨hguard.1, hguard.2.1⟩ hguard.2.2.1 hguard.2.2.2.1 hguard.2.2.2.2
      · nomatch h
    · nomatch h
  | cycle moments stop sent pushed =>
    dsimp only at h
    split at h
    · rename_i o x polled hflight hpolled
      split at h
      · rename_i hguard
        obtain ⟨horder, hgoes, hsleep⟩ := hguard
        obtain ⟨hrunning, hn⟩ := Bool.and_eq_true_iff.mp hgoes
        obtain rfl := Option.some.inj h
        exact .cycled hflight hpolled horder ⟨hrunning, of_decide_eq_true hn, (slept_iff _).mp hsleep⟩ rfl
      · nomatch h
    · nomatch h
  | close =>
    dsimp only at h
    split at h
    · rename_i o x hflight hidle hopen
      split at h
      · rename_i hguard
        obtain rfl := Option.some.inj h
        exact .closed hflight hidle hopen hguard.1 hguard.2
      · nomatch h
    · nomatch h
  | copy sent tx =>
    dsimp only at h
    split at h
    · rename_i o x hflight
      split at h
      · rename_i hguard
        obtain ⟨hlater, hafter, hclosed, hrunning, hended, hleft⟩ := hguard
        obtain rfl := Option.some.inj h
        exact .copied hflight ⟨hlater, hafter⟩ hclosed hrunning hended hleft
      · nomatch h
    · nomatch h
  | quit e =>
    dsimp only at h
    split at h
    · rename_i o x hflight
      split at h
      · rename_i hguard
        obtain rfl := Option.some.inj h
        exact .quitted hflight hguard.1 hguard.2.1 hguard.2.2.1 hguard.2.2.2
      · nomatch h
    · nomatch h

omit [Arith F64] in
/-- The moments of a cycle, in order. -/
theorem inOrder_cycle {moments : CycleMoments} {last : ℕ} (h : moments.InOrder last moment) :
    last < moments.started ∧
      (moments.started < moments.stepped ∧ moments.stepped < moments.terminated ∧ moments.terminated < moment) ∧
      moment < moments.done := by
  simp only [CycleMoments.InOrder, List.isChain_cons_cons, List.isChain_singleton, and_true] at h
  omega

omit [Arith F64] in
/-- The vehicle has ended the run, in an interval, with a result that its reply tells. -/
def Over (v : VehicleSide) (t : TerminalResult) (span : Span) (data : Bytes) : Prop :=
  ∃ o x, v.flight = some (o, x) ∧ x.r.terminalCycle ≠ 0 ∧ x.r.state.terminal = some t ∧ x.r.reply = data ∧
    v.ended = some span

omit [Arith F64] in
/-- One state of the vehicle comes after another: an end stays. -/
structure Later (v v' : VehicleSide) : Prop where
  last : v.last ≤ v'.last
  ends : ∀ t span data, v.Over t span data → v'.Over t span data

/-- The loop of a vehicle with the end it has, if it has one. -/
structure Flown (cfg : Config) (clock : ℕ → ℤ) (o : Origin) (x : Loop) (ended : Option Span) (last : ℕ) : Prop where
  scheduled : ∃ history, Scheduled cfg o.tickBase history x
  living : x.running = true → x.r.terminalCycle = 0
  unended : x.r.terminalCycle = 0 →
    ended = none ∧ x.r.state.terminal = none ∧ x.r.terminationBeforeNs = 0 ∧ x.r.terminationNs = 0
  interval : x.r.terminalCycle ≠ 0 → ∃ t span value, x.r.state.terminal = some t ∧ ended = some span ∧
    span.before < span.moment ∧ span.moment < span.after ∧ span.after < last ∧
    x.r.terminationBeforeNs = clock span.before ∧ x.r.terminationNs = clock span.after ∧
    decodeReply x.r.reply = .ok value ∧ stateByte value = 3 ∧ reasonByte value = t.reason.toNat

/-- What the vehicle's side keeps. -/
structure Kept (cfg : RunConfig) (clock : ℕ → ℤ) (v : VehicleSide) : Prop where
  grounded : v.flight = none → v.ended = none
  whole : ∀ polled, v.polled = some polled → whole polled.received = true
  flown : ∀ o x, v.flight = some (o, x) → Flown cfg.toConfig clock o x v.ended v.last

omit [Arith F64] in
/-- The simulator's reason, as far as the vehicle has seen it. -/
def simSeen (v : VehicleSide) : Option U32 := v.flight.bind fun flight => flight.2.r.simSeen

/-- What an act of the vehicle does to the end: what is kept stays kept, and what is handed does not tell of the end,
or is the reply that does. -/
structure Advanced (cfg : RunConfig) (clock : ℕ → ℤ) (moment : ℕ) (v : VehicleSide) (out : Outcome VehicleSide) :
    Prop where
  kept : Kept cfg clock out.side
  later : Later v out.side
  after : v.last < moment ∧ moment ≤ out.side.last
  handed : ∀ data ∈ out.handed, (∀ value, decodeReply data = .ok value → stateByte value ≠ 3) ∨
    ∃ t span, out.side.Over t span data ∧ span.after < moment
  sight : ∀ span, out.side.ended = some span → v.ended = some span ∧ out.side.simSeen = v.simSeen ∨
    v.last < span.before ∧ out.taken = []

/-- A cycle that runs, with the end it may bring. -/
theorem Flown.cycle {c : Config} {o : Origin} {x y : Loop} {moments : CycleMoments} {polled : Polled}
    {stop sent pushed : Bool} {ended : Option Span} {last : ℕ} (h : Flown c clock o x ended last)
    (hruns : x.Runs c (polled.event clock moments stop sent pushed))
    (hbody : x.body c o.carry (polled.event clock moments stop sent pushed) = y)
    (horder : moments.InOrder last moment) :
    Flown c clock o y (if y.running then ended else some ⟨moments.started, moments.stepped, moments.terminated⟩)
        moments.done ∧ ended = none ∧
      ((∀ value, decodeReply y.r.reply = .ok value → stateByte value ≠ 3) ∨
        y.r.terminalCycle ≠ 0 ∧ y.running = false) := by
  obtain ⟨history, hscheduled⟩ := h.scheduled
  have hafter := hscheduled.turn o.carry (polled.event clock moments stop sent pushed)
  rw [hbody] at hafter
  have hsound : y.r.state.mode = .terminated ↔ y.r.state.terminal.isSome = true := by
    rw [hafter.state]
    exact (Episode.sound_run c.autoArm _).terminal
  obtain ⟨hended, -, hbefore, hzero⟩ := h.unended (h.living hruns.1)
  obtain ⟨hfirst, ⟨hsecond, hthird, hfourth⟩, hlast⟩ := inOrder_cycle horder
  obtain ⟨errors, errno, refused, hcycled⟩ := Loop.body_eq o.carry hruns
  rw [hbody] at hcycled
  obtain ⟨value, hdecode, hmode, htells⟩ := reply_tells
    (x.input c o.carry (polled.event clock moments stop sent pushed))
    (x.admitted o.carry (polled.event clock moments stop sent pushed)) x.n (polled.event clock moments stop sent pushed)
    (x.r.origin + x.n * kPeriodNs) (x.output c o.carry (polled.event clock moments stop sent pushed))
  have hdecode : decodeReply y.r.reply = .ok value := by rw [hcycled]; exact hdecode
  have hstate : (x.output c o.carry (polled.event clock moments stop sent pushed)).state = y.r.state := by rw [hcycled]; rfl
  rw [hstate] at hmode htells
  cases hends : x.ends c o.carry (polled.event clock moments stop sent pushed) with
  | false =>
    have hlive : y.r.state.mode ≠ .terminated := by
      rw [← hstate]
      exact bne_iff_ne.mp (by simpa [Loop.ends] using hends)
    have hterminal : y.r.state.terminal = none := by
      rw [← Option.isNone_iff_eq_none, ← Option.isSome_eq_false_iff]
      exact Bool.eq_false_iff.mpr fun hsome => hlive (hsound.mpr hsome)
    have hrunning : y.running = true := by rw [hcycled]; simp [Loop.cycled, hends]
    have hcycle : y.r.terminalCycle = x.r.terminalCycle := by rw [hcycled]; simp [Loop.cycled, hends]
    have hcycle := hcycle.trans (h.living hruns.1)
    have hbeforeNs : y.r.terminationBeforeNs = x.r.terminationBeforeNs := by rw [hcycled]; simp [Loop.cycled, hends]
    have hafterNs : y.r.terminationNs = x.r.terminationNs := by rw [hcycled]; simp [Loop.cycled, hends]
    rw [hrunning, if_pos rfl]
    refine ⟨⟨⟨_, hafter⟩, fun _ => hcycle, fun _ => ⟨hended, hterminal, hbeforeNs.trans hbefore, hafterNs.trans hzero⟩,
      fun hne => absurd hcycle hne⟩, hended, .inl fun value' hvalue => ?_⟩
    obtain rfl := Except.ok.inj (hdecode.symm.trans hvalue)
    rw [hmode]
    cases hm : y.r.state.mode with
    | terminated => exact absurd hm hlive
    | _ => decide
  | true =>
    have hover : y.r.state.mode = .terminated := by
      rw [← hstate]
      exact beq_iff_eq.mp hends
    obtain ⟨t, hterminal⟩ := Option.isSome_iff_exists.mp (hsound.mp hover)
    have hrunning : y.running = false := by rw [hcycled]; simp [Loop.cycled, hends]
    have hcycle : y.r.terminalCycle = 1 := by rw [hcycled]; simp [Loop.cycled, hends]
    have hbeforeNs : y.r.terminationBeforeNs = clock moments.started := by
      rw [hcycled]
      simp only [Loop.cycled, hends, if_true]
      rfl
    have hafterNs : y.r.terminationNs = clock moments.terminated := by
      rw [hcycled]
      simp only [Loop.cycled, hends, if_true]
      rfl
    have htells := htells hover
    rw [hterminal] at htells
    rw [hrunning, if_neg Bool.false_ne_true]
    refine ⟨⟨⟨_, hafter⟩, fun htrue => absurd htrue (by rw [hrunning]; decide), fun hzero => absurd hzero (by rw [hcycle]; decide),
      fun _ => ⟨t, _, value, hterminal, rfl, hsecond, hthird, hfourth.trans hlast, hbeforeNs, hafterNs, hdecode, ?_, htells⟩⟩,
      hended, .inr ⟨by rw [hcycle]; decide, rfl⟩⟩
    rw [hmode, hover]
    rfl

/-- What leaves the end of a loop keeps it. -/
theorem Flown.keeps {c : Config} {o : Origin} {x y : Loop} {ended : Option Span} {last last' : ℕ}
    (h : Flown c clock o x ended last) (hlast : last ≤ last') (hscheduled : ∃ history, Scheduled c o.tickBase history y)
    (hrunning : y.running = true → x.running = true) (hcycle : y.r.terminalCycle = x.r.terminalCycle)
    (hterminal : y.r.state.terminal = x.r.state.terminal) (hreply : y.r.reply = x.r.reply)
    (hbefore : y.r.terminationBeforeNs = x.r.terminationBeforeNs) (hafter : y.r.terminationNs = x.r.terminationNs) :
    Flown c clock o y ended last' := by
  refine ⟨hscheduled, fun htrue => hcycle.trans (h.living (hrunning htrue)), fun hzero => ?_, fun hne => ?_⟩
  · obtain ⟨hended, hnone, hbeforeNs, hafterNs⟩ := h.unended (hcycle.symm.trans hzero)
    exact ⟨hended, hterminal.trans hnone, hbefore.trans hbeforeNs, hafter.trans hafterNs⟩
  · obtain ⟨t, span, value, hsome, hended, h1, h2, h3, h4, h5, hdecode, hstate, hreason⟩ :=
      h.interval (hcycle ▸ hne)
    exact ⟨t, span, value, hterminal.trans hsome, hended, h1, h2, h3.trans_le hlast, hbefore.trans h4, hafter.trans h5,
      by rw [hreply]; exact hdecode, hstate, hreason⟩

omit [Arith F64] in
/-- An end stays with what leaves it. -/
theorem later_of_flight (hlast : v.last ≤ v'.last) (hended : v'.ended = v.ended)
    (hflight : ∀ o x, v.flight = some (o, x) → ∃ y : Loop, v'.flight = some (o, y) ∧
      y.r.terminalCycle = x.r.terminalCycle ∧ y.r.state.terminal = x.r.state.terminal ∧ y.r.reply = x.r.reply) :
    Later v v' := by
  refine ⟨hlast, fun t span data hover => ?_⟩
  obtain ⟨o, x, hsome, hcycle, hterminal, hreply, hspan⟩ := hover
  obtain ⟨y, hsome', hcycle', hterminal', hreply'⟩ := hflight o x hsome
  exact ⟨o, y, hsome', by rw [hcycle']; exact hcycle, hterminal'.trans hterminal, hreply'.trans hreply,
    hended.trans hspan⟩

/-- An act of the vehicle. -/
theorem Kept.act {a : VehicleAct} {out : Outcome VehicleSide} (h : Kept cfg clock v)
    (hact : v.act cfg clock moment a = some out) : Advanced cfg clock moment v out := by
  cases acted hact with
  | @listened opened arrival frame o hgrounded horigin horder hfits =>
    have hended := h.grounded hgrounded
    have hlater : Later v { v with
        last := arrival, opened, flight := some (o, .initial cfg.toConfig o.tickBase o.origin) } := by
      refine later_of_flight (by show v.last ≤ arrival; omega) rfl fun o x hsome => ?_
      nomatch hgrounded.symm.trans hsome
    refine ⟨⟨nofun, h.whole, fun o' x hsome => ?_⟩, hlater, ⟨by omega, horder.2.2.le⟩, nofun,
      fun span hspan => absurd (hspan.symm.trans hended) (Option.some_ne_none span)⟩
    obtain ⟨rfl, rfl⟩ := Prod.mk.inj (Option.some.inj hsome)
    exact ⟨⟨_, scheduled_run cfg.toConfig o.tickBase o.origin o.carry []⟩, fun _ => rfl,
      fun _ => ⟨hended, rfl, rfl, rfl⟩, fun hne => absurd rfl hne⟩
  | @overslept sleepError o x hflight hidle hlater hgoes hsleep =>
    obtain ⟨hrunning, hn⟩ := Bool.and_eq_true_iff.mp hgoes
    have hfails : ¬(sleepError = 0 ∨ sleepError = EINTR) := by
      rw [← slept_iff, hsleep]
      exact Bool.false_ne_true
    have hbody := Loop.body_of_failed o.carry (e := Freerun.overslept sleepError) hrunning (of_decide_eq_true hn) hfails
    have hflown := h.flown o x hflight
    refine ⟨⟨nofun, h.whole, fun o' y hsome => ?_⟩, later_of_flight hlater.le rfl fun o' x' hsome => ?_,
      ⟨hlater, le_rfl⟩, nofun, fun span hspan => .inl ⟨hspan, ?_⟩⟩
    · obtain ⟨rfl, rfl⟩ := Prod.mk.inj (Option.some.inj hsome)
      obtain ⟨history, hscheduled⟩ := hflown.scheduled
      refine hflown.keeps hlater.le ⟨_, hscheduled.turn o.carry (Freerun.overslept sleepError)⟩ ?_ ?_ ?_ ?_ ?_ ?_
      all_goals rw [hbody]
      exact fun _ => hrunning
    · obtain ⟨rfl, rfl⟩ := Prod.mk.inj (Option.some.inj (hflight.symm.trans hsome))
      exact ⟨_, rfl, by rw [hbody], by rw [hbody], by rw [hbody]⟩
    · unfold simSeen
      rw [hflight, hbody]
      rfl
  | @polled sleepError woke received o x hflight hidle horder hgoes hsleep hwhole =>
    have hlast : v.last < moment := horder.1.trans horder.2
    refine ⟨⟨h.grounded, fun polled hsome => ?_, fun o' x' hsome => ?_⟩,
      later_of_flight hlast.le rfl fun o x hsome => ⟨x, hsome, rfl, rfl, rfl⟩, ⟨hlast, le_rfl⟩, nofun,
      fun span hspan => .inl ⟨hspan, rfl⟩⟩
    · obtain rfl := Option.some.inj hsome
      exact hwhole
    · have hflown := h.flown o' x' hsome
      exact hflown.keeps hlast.le hflown.scheduled id rfl rfl rfl rfl rfl
  | @cycled moments stop sent pushed o x y polled hflight hpolled horder hruns hbody =>
    obtain ⟨hfirst, ⟨hsecond, hthird, hfourth⟩, hlast⟩ := inOrder_cycle horder
    obtain ⟨hflown, hended, htells⟩ := (h.flown o x hflight).cycle hruns hbody horder
    have hpast : v.last < moment := by omega
    refine ⟨⟨nofun, nofun, fun o' y' hsome => ?_⟩, ⟨(hpast.trans hlast).le, fun t span data hover => ?_⟩,
      ⟨hpast, hlast.le⟩, fun data hdata => ?_, fun span hspan => .inr ⟨?_, rfl⟩⟩
    · obtain ⟨rfl, rfl⟩ := Prod.mk.inj (Option.some.inj hsome)
      exact hflown
    · obtain ⟨-, -, -, -, -, -, hspan⟩ := hover
      nomatch hended.symm.trans hspan
    · cases sent with
      | false => nomatch hdata
      | true =>
        obtain rfl := Option.some.inj hdata
        refine htells.imp id fun hover => ?_
        obtain ⟨hcycle, hrunning⟩ := hover
        obtain ⟨t, span, value, hterminal, hspan, -, -, -, -⟩ := hflown.interval hcycle
        refine ⟨t, span, ⟨o, y, rfl, hcycle, hterminal, rfl, hspan⟩, ?_⟩
        rw [hrunning, if_neg Bool.false_ne_true] at hspan
        obtain rfl := Option.some.inj hspan
        exact hfourth
    · have hspan : (if y.running then v.ended else
          some ⟨moments.started, moments.stepped, moments.terminated⟩) = some span := hspan
      rw [hended] at hspan
      split at hspan
      · nomatch hspan
      · obtain rfl := Option.some.inj hspan
        exact hfirst
  | @closed o x hflight hidle hopen hlater hover =>
    refine ⟨⟨h.grounded, h.whole, fun o' x' hsome => ?_⟩,
      later_of_flight hlater.le rfl fun o x hsome => ⟨x, hsome, rfl, rfl, rfl⟩, ⟨hlater, le_rfl⟩, nofun,
      fun span hspan => .inl ⟨hspan, rfl⟩⟩
    have hflown := h.flown o' x' hsome
    exact hflown.keeps hlater.le hflown.scheduled id rfl rfl rfl rfl rfl
  | @copied sent tx o x hflight horder hclosed hrunning hended hleft =>
    have hflown := h.flown o x hflight
    have hlast : v.last ≤ tx := by omega
    have hlater : Later v { v with
        last := tx
        flight := some (o, { x with r := x.r.noteCopy ⟨false, 0, sent, clock tx⟩ })
        copies := v.copies + 1 } := by
      refine later_of_flight hlast rfl fun o' x' hsome => ?_
      obtain ⟨rfl, rfl⟩ := Prod.mk.inj (Option.some.inj (hflight.symm.trans hsome))
      exact ⟨_, rfl, rfl, rfl, rfl⟩
    refine ⟨⟨nofun, h.whole, fun o' y hsome => ?_⟩, hlater, ⟨horder.1, horder.2.le⟩, fun data hdata => .inr ?_,
      fun span hspan => .inl ⟨hspan, ?_⟩⟩
    · obtain ⟨rfl, rfl⟩ := Prod.mk.inj (Option.some.inj hsome)
      obtain ⟨history, hs⟩ := hflown.scheduled
      exact hflown.keeps hlast
        ⟨history, hs.between, hs.base, hs.length, hs.sensed, hs.state, hs.held, hs.commands, hs.fitting⟩ id rfl rfl rfl rfl rfl
    · cases sent with
      | false => nomatch hdata
      | true =>
        obtain rfl := Option.some.inj hdata
        obtain ⟨t, span, value, hterminal, hspan, -, -, hbefore, -⟩ := hflown.interval hended
        exact ⟨t, span, hlater.ends t span _ ⟨o, x, hflight, hended, hterminal, rfl, hspan⟩, hbefore.trans horder.1⟩
    · unfold simSeen
      rw [hflight]
      rfl
  | @quitted e o x hflight hlater hclosed hrunning hdone =>
    refine ⟨⟨h.grounded, h.whole, fun o' x' hsome => ?_⟩,
      later_of_flight hlater.le rfl fun o x hsome => ⟨x, hsome, rfl, rfl, rfl⟩, ⟨hlater, le_rfl⟩, nofun,
      fun span hspan => .inl ⟨hspan, rfl⟩⟩
    have hflown := h.flown o' x' hsome
    exact hflown.keeps hlater.le hflown.scheduled id rfl rfl rfl rfl rfl

/-! ## What the vehicle has taken -/

variable {K L : Frame → Prop}

/-- What the vehicle holds, and the reason it has seen, comes of frames with a property. -/
structure Heeds (K : Frame → Prop) (v : VehicleSide) : Prop where
  carry : ∀ o x, v.flight = some (o, x) → Admission.Bears K o.carry
  admitted : ∀ o x, v.flight = some (o, x) → Admission.From K x.r.admission
  polled : ∀ polled, v.polled = some polled → ∀ data ∈ framesOf polled.received, Admission.Bears K ⟨data, false⟩
  seen : ∀ r, v.simSeen = some r → ∃ f, K f ∧ f.terminal = true ∧ f.fields.simReason = r

omit [Arith F64] in
/-- A weaker property. -/
theorem Heeds.mono (h : Heeds K v) (hKL : ∀ f, K f → L f) : Heeds L v where
  carry o x hsome f hf := hKL f (h.carry o x hsome f hf)
  admitted o x hsome := (h.admitted o x hsome).mono hKL
  polled polled hsome data hdata f hf := hKL f (h.polled polled hsome data hdata f hf)
  seen r hr := by
    obtain ⟨f, hf, hrest⟩ := h.seen r hr
    exact ⟨f, hKL f hf, hrest⟩

omit [Arith F64] in
/-- The datagrams of a receive call that was not cut short. -/
theorem bears_batch {polled : Polled} (hwhole : whole polled.received = true) {moments : CycleMoments}
    {stop sent pushed : Bool} (h : ∀ data ∈ framesOf polled.received, Admission.Bears K ⟨data, false⟩) :
    ∀ d ∈ batchOf (polled.event clock moments stop sent pushed), Admission.Bears K d := by
  intro d hd
  unfold batchOf Polled.event at hd
  unfold whole at hwhole
  unfold framesOf at h
  dsimp only at hd
  cases hreceived : polled.received with
  | error errno =>
    rw [hreceived] at hd
    nomatch hd
  | ok batch =>
    rw [hreceived] at hd hwhole h
    have hd : d ∈ batch.datagrams := hd
    obtain ⟨bytes, truncated⟩ := d
    have htruncated : truncated = false := by simpa using List.all_eq_true.mp hwhole _ hd
    rw [htruncated]
    exact h bytes (List.mem_map.mpr ⟨_, hd, rfl⟩)

/-- An act of the vehicle: it heeds what it has taken. -/
theorem Heeds.act {a : VehicleAct} {out : Outcome VehicleSide} (h : Heeds K v) (hkept : Kept cfg clock v)
    (hact : v.act cfg clock moment a = some out) (htaken : ∀ data ∈ out.taken, Admission.Bears K ⟨data, false⟩) :
    Heeds K out.side := by
  cases acted hact with
  | @listened opened arrival frame o hgrounded horigin horder hfits =>
    have hcarry : o.carry = ⟨frame, false⟩ := by
      unfold originOf at horigin
      dsimp only at horigin
      split at horigin
      · nomatch horigin
      · obtain rfl := Option.some.inj horigin
        rfl
    refine ⟨fun o' x hsome => ?_, fun o' x hsome => ?_, h.polled, nofun⟩
    · obtain ⟨rfl, -⟩ := Prod.mk.inj (Option.some.inj hsome)
      rw [hcarry]
      exact htaken frame (List.mem_singleton_self frame)
    · obtain ⟨rfl, rfl⟩ := Prod.mk.inj (Option.some.inj hsome)
      exact Admission.from_initial ..
  | @overslept sleepError o x hflight hidle hlater hgoes hsleep =>
    obtain ⟨hrunning, hn⟩ := Bool.and_eq_true_iff.mp hgoes
    have hfails : ¬(sleepError = 0 ∨ sleepError = EINTR) := by
      rw [← slept_iff, hsleep]
      exact Bool.false_ne_true
    have hbody := Loop.body_of_failed o.carry (e := Freerun.overslept sleepError) hrunning (of_decide_eq_true hn) hfails
    refine ⟨fun o' y hsome => ?_, fun o' y hsome => ?_, h.polled, fun r hr => h.seen r ?_⟩
    · obtain ⟨rfl, -⟩ := Prod.mk.inj (Option.some.inj hsome)
      exact h.carry o x hflight
    · obtain ⟨rfl, rfl⟩ := Prod.mk.inj (Option.some.inj hsome)
      rw [hbody]
      exact h.admitted o x hflight
    · unfold simSeen at hr ⊢
      rw [hbody] at hr
      rw [hflight]
      exact hr
  | polled => exact ⟨h.carry, h.admitted, fun polled hsome => Option.some.inj hsome ▸ htaken, h.seen⟩
  | @cycled moments stop sent pushed o x y polled hflight hpolled horder hruns hbody =>
    obtain ⟨history, hscheduled⟩ := (hkept.flown o x hflight).scheduled
    obtain ⟨hadmission, -, -, -, -, hsight, -⟩ := Loop.body_of_runs o.carry hruns
    rw [hbody] at hadmission hsight
    have hbears : ∀ d ∈ datagramsOf x.n o.carry (polled.event clock moments stop sent pushed), Admission.Bears K d := by
      intro d hd
      rcases List.mem_append.mp hd with hd | hd
      · split at hd
        · obtain rfl := List.mem_singleton.mp hd
          exact h.carry o x hflight
        · nomatch hd
      · exact bears_batch (hkept.whole polled hpolled) (h.polled polled hpolled) d hd
    have hfrom : Admission.From K y.r.admission := by
      rw [hadmission]
      unfold Loop.admitted
      rw [hscheduled.base]
      exact (h.admitted o x hflight).cycle hscheduled.between hbears
    refine ⟨fun o' y' hsome => ?_, fun o' y' hsome => ?_, nofun, fun r hr => ?_⟩
    · obtain ⟨rfl, -⟩ := Prod.mk.inj (Option.some.inj hsome)
      exact h.carry o x hflight
    · obtain ⟨rfl, rfl⟩ := Prod.mk.inj (Option.some.inj hsome)
      exact hfrom
    · have hr : y.r.simSeen = some r := hr
      rw [hsight] at hr
      rcases Option.or_eq_some_iff.mp hr with hnew | ⟨-, hold⟩
      · obtain ⟨t, hterminal, rfl⟩ := Option.map_eq_some_iff.mp hnew
        rw [← hadmission] at hterminal
        obtain ⟨f, hf, hflag, rfl⟩ := hfrom.terminal t hterminal
        exact ⟨f, hf, hflag, rfl⟩
      · refine h.seen r ?_
        unfold simSeen
        rw [hflight]
        exact hold
  | closed => exact ⟨h.carry, h.admitted, h.polled, h.seen⟩
  | @copied sent tx o x hflight horder hclosed hrunning hended hleft =>
    refine ⟨fun o' y hsome => ?_, fun o' y hsome => ?_, h.polled, fun r hr => h.seen r ?_⟩
    · obtain ⟨rfl, -⟩ := Prod.mk.inj (Option.some.inj hsome)
      exact h.carry o x hflight
    · obtain ⟨rfl, rfl⟩ := Prod.mk.inj (Option.some.inj hsome)
      exact h.admitted o x hflight
    · unfold simSeen at hr ⊢
      rw [hflight]
      exact hr
  | quitted => exact ⟨h.carry, h.admitted, h.polled, h.seen⟩

end VehicleSide

end Tvc.Freerun
