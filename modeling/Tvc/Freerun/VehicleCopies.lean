import Tvc.Freerun.Handshake
import Tvc.Freerun.Receipt

/-!
# What the vehicle counts of the terminal exchange

The vehicle counts the terminal frames that it takes: what a receive call brings, in the cycle after it. Of its own
replies that tell of the end it counts those that were sent. Once its schedule is over it only sends copies.
-/

namespace Tvc.Freerun

/-! ## The frames of the two ends -/

/-- The bytes are a frame that tells of the simulator's end. -/
def endFrame (data : Bytes) : Bool :=
  match (Datagram.mk data false).frame with
  | .ok f => f.terminal
  | .error _ => false

/-- The bytes are a reply that tells of the vehicle's end. -/
def endReply (data : Bytes) : Bool :=
  match decodeReply data with
  | .ok value => stateByte value == 3
  | .error _ => false

/-- A frame that tells of the simulator's end. -/
theorem endFrame_iff {data : Bytes} : endFrame data = true ↔ AnnouncesEnd data := by
  unfold endFrame AnnouncesEnd
  cases (Datagram.mk data false).frame with
  | error e => exact ⟨fun h => absurd h Bool.false_ne_true, fun ⟨_, hf, _⟩ => absurd hf (by simp)⟩
  | ok f => exact ⟨fun h => ⟨f, rfl, h⟩, fun ⟨g, hg, h⟩ => Except.ok.inj hg ▸ h⟩

/-- A reply that tells of the vehicle's end. -/
theorem endReply_iff {data : Bytes} : endReply data = true ↔ TellsEnd data := by
  unfold endReply TellsEnd
  cases decodeReply data with
  | error e => exact ⟨fun h => absurd h Bool.false_ne_true, fun ⟨_, hvalue, _⟩ => absurd hvalue (by simp)⟩
  | ok value =>
    exact ⟨fun h => ⟨value, rfl, beq_iff_eq.mp h⟩, fun ⟨_, hvalue, h⟩ => beq_iff_eq.mpr (Except.ok.inj hvalue ▸ h)⟩

instance (data : Bytes) : Decidable (AnnouncesEnd data) := decidable_of_iff _ endFrame_iff

instance (data : Bytes) : Decidable (TellsEnd data) := decidable_of_iff _ endReply_iff

/-! ## What a cycle of the vehicle takes -/

namespace Admission

variable {s : Admission} {tickBase n : ℕ}

/-- Absorbing a frame counts it if it is terminal. -/
theorem absorb_raw (s : Admission) (f : Frame) (kind : SensorClass) :
    (s.countRx.absorb f kind).terminalCounts.receivedRaw = s.terminalCounts.receivedRaw + f.terminal.toNat := by
  cases hterminal : f.terminal <;> cases kind <;> simp [absorb, hterminal, countRx, envelopeCounts]

/-- A datagram that there is room for is taken, and counted if it is terminal. -/
theorem receive_raw (hopen : s.isOpen = true) (hroom : s.cycle.rxCount < s.batchCap) {d : Datagram}
    (hwhole : d.truncated = false) :
    (s.receive d).1.isOpen = true ∧ (s.receive d).1.cycle.rxCount = s.cycle.rxCount + 1 ∧
      (s.receive d).1.batchCap = s.batchCap ∧
      (s.receive d).1.terminalCounts.receivedRaw = s.terminalCounts.receivedRaw + (endFrame d.bytes).toNat := by
  obtain ⟨bytes, truncated⟩ := d
  obtain rfl : truncated = false := hwhole
  rw [receive_of_accepts ⟨hopen, hroom⟩]
  unfold endFrame
  cases (Datagram.mk bytes false).frame with
  | error e => exact ⟨hopen, rfl, rfl, rfl⟩
  | ok f => exact ⟨hopen, rfl, rfl, absorb_raw s f _⟩

/-- Datagrams that there is room for are taken, and the terminal ones counted. -/
theorem receives_raw {datagrams : List Datagram} (hopen : s.isOpen = true)
    (hroom : s.cycle.rxCount + datagrams.length ≤ s.batchCap) (hwhole : ∀ d ∈ datagrams, d.truncated = false) :
    (Machine.run call s (datagrams.map .receive)).1.terminalCounts.receivedRaw =
      s.terminalCounts.receivedRaw + (datagrams.map Datagram.bytes).countP endFrame := by
  induction datagrams generalizing s with
  | nil => rfl
  | cons d datagrams ih =>
    rw [List.length_cons] at hroom
    obtain ⟨hfirst, hrest⟩ := List.forall_mem_cons.mp hwhole
    obtain ⟨hstill, hrx, hcap, hraw⟩ := receive_raw hopen (by omega) hfirst
    have hlater := ih hstill (by omega) hrest
    rw [List.map_cons, Machine.run_cons]
    refine hlater.trans ?_
    rw [hraw, List.map_cons, List.countP_cons, Nat.add_assoc, Nat.add_comm (endFrame d.bytes).toNat]
    cases endFrame d.bytes <;> rfl

/-- A scheduled cycle counts the terminal frames that it takes. -/
theorem Between.raw (h : Between tickBase n s) {datagrams : List Datagram}
    (hroom : datagrams.length ≤ if n = 0 then 9 else 8) (hwhole : ∀ d ∈ datagrams, d.truncated = false) :
    (Machine.run call s (cycleCalls (tickBase + n) datagrams)).1.terminalCounts.receivedRaw =
      s.terminalCounts.receivedRaw + (datagrams.map Datagram.bytes).countP endFrame := by
  have hcap : (s.opened (tickBase + n)).batchCap = if n = 0 then 9 else 8 := by
    unfold batchCap
    rw [show (s.opened (tickBase + n)).cycles = n from h.cycles]
    simp
  have hraw := receives_raw (s := s.opened (tickBase + n)) rfl
    (by rw [hcap, show (s.opened (tickBase + n)).cycle.rxCount = 0 from rfl, Nat.zero_add]; exact hroom) hwhole
  rw [(h.closes datagrams).1]
  exact hraw

end Admission

/-! ## What the vehicle counts -/

/-- The moment that a side notes of a frame which it sends. -/
def VehicleAct.stamp : VehicleAct → Option ℕ
  | .cycle moments _ _ _ => some moments.tx
  | .copy _ tx => some tx
  | _ => none

namespace VehicleSide

/-- The terminal frames that the vehicle has counted. -/
def upReceived (v : VehicleSide) : ℕ :=
  v.flight.elim 0 fun flight => flight.2.r.admission.terminalCounts.receivedRaw

/-- What was taken for the next cycle: the first frame before the first cycle, and what the receive call brought. -/
def uncounted (o : Origin) (x : Loop) (polled : Option Polled) : List Bytes :=
  (if x.n = 0 then [o.carry.bytes] else []) ++ polled.elim [] fun polled => framesOf polled.received

/-- The vehicle has counted the terminal frames that it took, and sent the copies that it has counted. -/
structure Counts (v : VehicleSide) (taken sent : List Bytes) : Prop where
  grounded : v.flight = none → taken = [] ∧ v.polled = none
  carried : ∀ o x, v.flight = some (o, x) → o.carry.truncated = false
  received : ∀ o x, v.flight = some (o, x) → taken.countP endFrame =
    x.r.admission.terminalCounts.receivedRaw + (uncounted o x v.polled).countP endFrame
  sent : ∀ o x, v.flight = some (o, x) → x.r.termSent ≤ sent.countP endReply
  unsent : ∀ o x, v.flight = some (o, x) → x.r.terminalCycle = 0 → x.r.termSent = 0
  fresh : ∀ o x, v.flight = some (o, x) → x.n = 0 → x.r.terminalCycle = 0 ∧ x.r.simSeen = none

variable [Arith F64] {cfg : RunConfig} {clock : ℕ → ℤ} {moment : ℕ} {v : VehicleSide} {taken sent : List Bytes}

omit [Arith F64] in
/-- What leaves the flight and takes and sends nothing keeps the counts. -/
theorem Counts.of_flight {v' : VehicleSide} (h : Counts v taken sent) (hflight : v'.flight = v.flight)
    (hpolled : v'.polled = v.polled) : Counts v' (taken ++ []) (sent ++ []) := by
  rw [List.append_nil, List.append_nil]
  constructor
  · rw [hflight, hpolled]
    exact h.grounded
  · rw [hflight]
    exact h.carried
  · rw [hflight, hpolled]
    exact h.received
  · rw [hflight]
    exact h.sent
  · rw [hflight]
    exact h.unsent
  · rw [hflight]
    exact h.fresh

omit [Arith F64] in
/-- The datagrams of a cycle are what was taken for it. -/
theorem datagramsOf_uncounted {o : Origin} {x : Loop} {polled : Polled} (hcarried : o.carry.truncated = false)
    (hwhole : whole polled.received = true) (clock : ℕ → ℤ) (moments : CycleMoments) (stop sent pushed : Bool) :
    let datagrams := datagramsOf x.n o.carry (polled.event clock moments stop sent pushed)
    datagrams.map Datagram.bytes = uncounted o x (some polled) ∧ (∀ d ∈ datagrams, d.truncated = false) ∧
      datagrams.length ≤ if x.n = 0 then 9 else 8 := by
  intro datagrams
  have hbatch : (batchOf (polled.event clock moments stop sent pushed)).map Datagram.bytes = framesOf polled.received ∧
      (∀ d ∈ batchOf (polled.event clock moments stop sent pushed), d.truncated = false) ∧
      (batchOf (polled.event clock moments stop sent pushed)).length ≤ 8 := by
    unfold batchOf Polled.event framesOf
    dsimp only
    generalize polled.received = received at hwhole ⊢
    cases received with
    | error errno => exact ⟨rfl, List.forall_mem_nil _, Nat.zero_le 8⟩
    | ok batch => exact ⟨rfl, fun d hd => by simpa using List.all_eq_true.mp hwhole d hd, batch.fits⟩
  obtain ⟨hbytes, hcut, hlength⟩ := hbatch
  by_cases hn : x.n = 0
  · refine ⟨?_, fun d hd => ?_, ?_⟩
    · simp only [datagrams, datagramsOf, uncounted, if_pos hn, List.map_append, hbytes]
      rfl
    · simp only [datagrams, datagramsOf, if_pos hn, List.mem_append, List.mem_singleton] at hd
      rcases hd with rfl | hd
      · exact hcarried
      · exact hcut d hd
    · simp only [datagrams, datagramsOf, if_pos hn, List.length_append, List.length_singleton]
      omega
  · refine ⟨?_, fun d hd => ?_, ?_⟩
    · simp only [datagrams, datagramsOf, uncounted, if_neg hn, List.nil_append, hbytes]
      rfl
    · simp only [datagrams, datagramsOf, if_neg hn, List.nil_append] at hd
      exact hcut d hd
    · simp only [datagrams, datagramsOf, if_neg hn, List.nil_append]
      exact hlength

/-- The reply of a vehicle that has ended the run tells of the end. -/
theorem Flown.reply_ends {c : Config} {o : Origin} {x : Loop} {ended : Option Span} {last : ℕ}
    (h : Flown c clock o x ended last) (hcycle : x.r.terminalCycle ≠ 0) : endReply x.r.reply = true := by
  obtain ⟨t, span, value, -, -, -, -, -, -, -, hdecode, hstate, -⟩ := h.interval hcycle
  exact endReply_iff.mpr ⟨value, hdecode, hstate⟩

/-- An act of the vehicle keeps its counts. -/
theorem Counts.act {a : VehicleAct} {out : Outcome VehicleSide} (h : Counts v taken sent) (hkept : Kept cfg clock v)
    (hact : v.act cfg clock moment a = some out) :
    Counts out.side (taken ++ out.taken) (sent ++ out.handed.toList) := by
  have hdone := hkept.act hact
  cases acted hact with
  | @listened opened arrival frame o hgrounded horigin horder hfits =>
    have hcarry : o.carry = ⟨frame, false⟩ := by
      unfold originOf at horigin
      dsimp only at horigin
      split at horigin
      · nomatch horigin
      · obtain rfl := Option.some.inj horigin
        rfl
    obtain ⟨rfl, hpolled⟩ := h.grounded hgrounded
    refine ⟨nofun, fun o' x hsome => ?_, fun o' x hsome => ?_, fun o' x hsome => ?_, fun o' x hsome _ => ?_,
      fun o' x hsome _ => ?_⟩
    all_goals obtain ⟨rfl, rfl⟩ := Prod.mk.inj (Option.some.inj hsome)
    · rw [hcarry]
    · show [frame].countP endFrame = 0 + (uncounted _ _ v.polled).countP endFrame
      rw [hpolled, Nat.zero_add, uncounted, hcarry]
      rfl
    · exact Nat.zero_le _
    · rfl
    · exact ⟨rfl, rfl⟩
  | @overslept sleepError o x hflight hidle hlater hgoes hsleep =>
    obtain ⟨hrunning, hn⟩ := Bool.and_eq_true_iff.mp hgoes
    have hfails : ¬(sleepError = 0 ∨ sleepError = EINTR) := by
      rw [← slept_iff, hsleep]
      exact Bool.false_ne_true
    have hbody := Loop.body_of_failed o.carry (e := Freerun.overslept sleepError) hrunning (of_decide_eq_true hn) hfails
    simp only [hbody, List.append_nil, Option.toList_none]
    refine ⟨nofun, fun o' y hsome => ?_, fun o' y hsome => ?_, fun o' y hsome => ?_, fun o' y hsome => ?_,
      fun o' y hsome => ?_⟩
    all_goals obtain ⟨rfl, rfl⟩ := Prod.mk.inj (Option.some.inj hsome)
    · exact h.carried o x hflight
    · exact h.received o x hflight
    · exact h.sent o x hflight
    · exact h.unsent o x hflight
    · exact h.fresh o x hflight
  | @polled sleepError woke received o x hflight hidle horder hgoes hsleep hwhole =>
    rw [Option.toList_none, List.append_nil]
    refine ⟨fun hnone => absurd (hnone.symm.trans hflight) (Option.some_ne_none _).symm, h.carried, fun o' x' hsome => ?_, h.sent,
      h.unsent, h.fresh⟩
    have hreceived := h.received o' x' hsome
    rw [hidle, uncounted, Option.elim_none, List.append_nil] at hreceived
    rw [List.countP_append, hreceived, uncounted, Option.elim_some, List.countP_append, Nat.add_assoc]
  | @cycled moments stop sent' pushed o x y polled hflight hpolled horder hruns hbody =>
    obtain ⟨history, hscheduled⟩ := (hkept.flown o x hflight).scheduled
    obtain ⟨errors, errno, refused, hcycled⟩ := Loop.body_eq o.carry hruns
    rw [hbody] at hcycled
    obtain ⟨hbytes, hcut, hlength⟩ := datagramsOf_uncounted (x := x) (h.carried o x hflight)
      (hkept.whole polled hpolled) clock moments stop sent' pushed
    have hraw : y.r.admission.terminalCounts.receivedRaw =
        x.r.admission.terminalCounts.receivedRaw + (uncounted o x (some polled)).countP endFrame := by
      have hadmission : y.r.admission = x.admitted o.carry (polled.event clock moments stop sent' pushed) := by rw [hcycled]; rfl
      rw [hadmission, Loop.admitted, hscheduled.base, hscheduled.between.raw hlength hcut, hbytes]
    have hn : y.n = x.n + 1 := by rw [hcycled]; rfl
    have hunsent := h.unsent o x hflight ((hkept.flown o x hflight).living hruns.1)
    have hsent : y.r.termSent =
        (x.ends cfg.toConfig o.carry (polled.event clock moments stop sent' pushed) && sent').toNat := by
      rw [hcycled, ← Nat.zero_add (Bool.toNat _), ← hunsent]
      rfl
    have hcycle : y.r.terminalCycle =
        if x.ends cfg.toConfig o.carry (polled.event clock moments stop sent' pushed) then 1 else x.r.terminalCycle := by
      rw [hcycled]
      rfl
    refine ⟨nofun, fun o' x' hsome => ?_, fun o' x' hsome => ?_, fun o' x' hsome => ?_, fun o' x' hsome hzero => ?_,
      fun o' x' hsome hzero => ?_⟩
    all_goals obtain ⟨rfl, rfl⟩ := Prod.mk.inj (Option.some.inj hsome)
    · exact h.carried o x hflight
    · have hreceived := h.received o x hflight
      rw [hpolled, ← hraw] at hreceived
      rw [List.append_nil, hreceived, uncounted, if_neg (by omega)]
      rfl
    · rw [hsent, List.countP_append]
      cases hends : x.ends cfg.toConfig o.carry (polled.event clock moments stop sent' pushed) && sent' with
      | false => exact Nat.zero_le _
      | true =>
        obtain ⟨hends, rfl⟩ := Bool.and_eq_true_iff.mp hends
        have hreply := (hdone.kept.flown o y rfl).reply_ends (by rw [hcycle, if_pos hends]; exact one_ne_zero)
        rw [if_pos rfl, Option.toList_some, List.countP_singleton, if_pos hreply]
        exact Nat.le_add_left ..
    · rw [hsent]
      cases hends : x.ends cfg.toConfig o.carry (polled.event clock moments stop sent' pushed) with
      | false => rfl
      | true =>
        rw [hcycle, if_pos hends] at hzero
        exact absurd hzero one_ne_zero
    · omega
  | closed => exact h.of_flight rfl rfl
  | @copied sent' tx o x hflight horder hclosed hrunning hended hleft =>
    refine ⟨nofun, fun o' x' hsome => ?_, fun o' x' hsome => ?_, fun o' x' hsome => ?_, fun o' x' hsome hzero => ?_,
      fun o' x' hsome => ?_⟩
    all_goals obtain ⟨rfl, rfl⟩ := Prod.mk.inj (Option.some.inj hsome)
    · exact h.carried o x hflight
    · rw [List.append_nil]
      exact h.received o x hflight
    · have hreply := (hkept.flown o x hflight).reply_ends hended
      have hcounted := h.sent o x hflight
      show x.r.termSent + sent'.toNat ≤ _
      rw [List.countP_append]
      cases sent' with
      | false => exact hcounted.trans (Nat.le_add_right ..)
      | true =>
        rw [if_pos rfl, Option.toList_some, List.countP_singleton, if_pos hreply]
        exact Nat.add_le_add_right hcounted 1
    · exact absurd hzero hended
    · exact h.fresh o x hflight
  | quitted => exact h.of_flight rfl rfl

/-- What an act of the vehicle does to the copies that it has counted: it sends none, as there is no end, or leaves
them as they are, or it sends one more, at a moment that it notes. -/
theorem sends_act {a : VehicleAct} {out : Outcome VehicleSide} (h : Counts v taken sent) (hkept : Kept cfg clock v)
    (hact : v.act cfg clock moment a = some out) {o : Origin} {y : Loop} (hsome : out.side.flight = some (o, y)) :
    y.r.termSent = 0 ∨
      (∃ x, v.flight = some (o, x) ∧ y.r.termSent = x.r.termSent ∧ y.r.termLast = x.r.termLast) ∨
      ∃ tx, a.stamp = some tx ∧ moment < tx ∧ tx ≤ out.side.last ∧ y.r.termLast = clock tx ∧
        ((∃ x, v.flight = some (o, x) ∧ y.r.termSent = x.r.termSent) ∨ ∃ data ∈ out.handed, TellsEnd data) := by
  have hdone := hkept.act hact
  have hstays (hflight : out.side.flight = v.flight) :
      ∃ x, v.flight = some (o, x) ∧ y.r.termSent = x.r.termSent ∧ y.r.termLast = x.r.termLast :=
    ⟨y, hflight.symm.trans hsome, rfl, rfl⟩
  cases acted hact with
  | listened =>
    obtain ⟨rfl, rfl⟩ := Prod.mk.inj (Option.some.inj hsome)
    exact .inl rfl
  | @overslept sleepError o' x hflight hidle hlater hgoes hsleep =>
    obtain ⟨hrunning, hn⟩ := Bool.and_eq_true_iff.mp hgoes
    have hfails : ¬(sleepError = 0 ∨ sleepError = EINTR) := by
      rw [← slept_iff, hsleep]
      exact Bool.false_ne_true
    have hbody := Loop.body_of_failed o'.carry (e := Freerun.overslept sleepError) hrunning (of_decide_eq_true hn) hfails
    rw [hbody] at hsome
    obtain ⟨rfl, rfl⟩ := Prod.mk.inj (Option.some.inj hsome)
    exact .inr (.inl ⟨x, hflight, rfl, rfl⟩)
  | polled => exact .inr (.inl (hstays rfl))
  | @cycled moments stop sent' pushed o' x y' polled hflight hpolled horder hruns hbody =>
    obtain ⟨rfl, rfl⟩ := Prod.mk.inj (Option.some.inj hsome)
    obtain ⟨errors, errno, refused, hcycled⟩ := Loop.body_eq o'.carry hruns
    rw [hbody] at hcycled
    have hunsent := h.unsent o' x hflight ((hkept.flown o' x hflight).living hruns.1)
    cases hends : x.ends cfg.toConfig o'.carry (polled.event clock moments stop sent' pushed) with
    | false =>
      refine .inl ?_
      rw [hcycled]
      simp [Loop.cycled, hends, hunsent]
    | true =>
      have hcycle : y'.r.terminalCycle ≠ 0 := by
        rw [hcycled]
        simp [Loop.cycled, hends]
      have hlast : y'.r.termLast = clock moments.tx := by
        rw [hcycled]
        simp only [Loop.cycled, hends, if_true]
        rfl
      simp only [CycleMoments.InOrder, List.isChain_cons_cons, List.isChain_singleton, and_true] at horder
      refine .inr (.inr ⟨moments.tx, rfl, by omega, by show moments.tx ≤ moments.done; omega, hlast, ?_⟩)
      cases sent' with
      | false =>
        refine .inl ⟨x, hflight, ?_⟩
        rw [hcycled]
        simp [Loop.cycled, Polled.event]
      | true =>
        have hreply := (hdone.kept.flown o' y' rfl).reply_ends hcycle
        exact .inr ⟨y'.r.reply, rfl, endReply_iff.mp hreply⟩
  | closed => exact .inr (.inl (hstays rfl))
  | @copied sent' tx o' x hflight horder hclosed hrunning hended hleft =>
    obtain ⟨rfl, rfl⟩ := Prod.mk.inj (Option.some.inj hsome)
    refine .inr (.inr ⟨tx, rfl, horder.2, le_rfl, rfl, ?_⟩)
    cases sent' with
    | false => exact .inl ⟨x, hflight, rfl⟩
    | true => exact .inr ⟨x.r.reply, rfl, endReply_iff.mp ((hkept.flown o' x hflight).reply_ends hended)⟩
  | quitted => exact .inr (.inl (hstays rfl))

/-- A vehicle whose schedule is over leaves everything as it is, but for the copies that it sends. -/
theorem acted_of_over {a : VehicleAct} {out : Outcome VehicleSide} {o : Origin} {x : Loop}
    (hflight : v.flight = some (o, x)) (hover : x.goesOn cfg.toConfig = false)
    (hact : v.act cfg clock moment a = some out) :
    out.taken = [] ∧ (out.side.flight = some (o, x) ∧ out.handed = none ∨
      ∃ sent tx, a = .copy sent tx ∧ v.last < tx ∧ out.side.last = tx ∧
        out.side.flight = some (o, { x with r := x.r.noteCopy ⟨false, 0, sent, clock tx⟩ }) ∧
        out.handed = if sent then some x.r.reply else none) := by
  have hsame : ∀ {o' x'}, v.flight = some (o', x') → x' = x := fun hsome =>
    (Prod.mk.inj (Option.some.inj (hsome.symm.trans hflight))).2
  cases acted hact with
  | listened hgrounded => nomatch hgrounded.symm.trans hflight
  | overslept hflight' _ _ hgoes =>
    rw [hsame hflight', hover] at hgoes
    nomatch hgoes
  | polled hflight' _ _ hgoes =>
    rw [hsame hflight', hover] at hgoes
    nomatch hgoes
  | cycled hflight' _ _ hruns =>
    have hgoes : x.goesOn cfg.toConfig = true := by
      rw [← hsame hflight']
      exact Bool.and_eq_true_iff.mpr ⟨hruns.1, decide_eq_true hruns.2.1⟩
    nomatch hover.symm.trans hgoes
  | closed => exact ⟨rfl, .inl ⟨hflight, rfl⟩⟩
  | @copied sent tx _ _ hflight' horder =>
    obtain ⟨rfl, rfl⟩ := Prod.mk.inj (Option.some.inj (hflight'.symm.trans hflight))
    exact ⟨rfl, .inr ⟨sent, tx, rfl, horder.1.trans horder.2, rfl, rfl, rfl⟩⟩
  | quitted => exact ⟨rfl, .inl ⟨hflight, rfl⟩⟩

end VehicleSide

end Tvc.Freerun
