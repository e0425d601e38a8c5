import Tvc.Freerun.SimCopies
import Tvc.Lib.InOrder

/-!
# The accounts of the terminal exchange

Over ways that lose nothing, a side has counted what was sent to it of the other's end, but for what it has not read
when it closes and for what an exception took away. Where no such thing happens to what is required, each side has
counted what was sent to it before it closed.
-/

namespace Tvc.Freerun

open Reconcile (terminalOrder causalOrder measured Order Termination)

variable [Arith F64]

/-! ## Ways that lose nothing -/

/-- What was sent and not yet taken. -/
def Way.waiting (way : Way) : List Bytes := InOrder.waiting way.sent way.taken

/-- The ways lose, repeat and reorder nothing: what is taken is the first of what waits. -/
def Setting.Lossless (s : Setting) : Prop :=
  ∀ room way taken, s.discipline room way taken = true → taken <+: way.waiting

/-! ## What is required -/

/-- The order of the ends that the reports give. -/
def World.order (domain : String) (w : World) : Except String (Option Order) :=
  terminalOrder (w.vehicle.termination domain) (w.sim.termination domain)

/-- The simulator's frame is required to come through. -/
def World.RequiresUp (domain : String) (w : World) : Prop := w.order domain = .ok (some .simFirst)

/-- The vehicle's reply is required to come through. -/
def World.RequiresDown (domain : String) (w : World) : Prop :=
  w.order domain = .ok (some .vehicleFirst) ∨ w.RequiresUp domain ∧ 0 < w.vehicle.upReceived

instance (domain : String) (w : World) : Decidable (w.RequiresUp domain) := inferInstanceAs (Decidable (_ = _))

instance (domain : String) (w : World) : Decidable (w.RequiresDown domain) := inferInstanceAs (Decidable (_ ∨ _))

/-- The vehicle runs no more cycle. -/
def VehicleSide.Landed (cfg : RunConfig) (v : VehicleSide) : Prop :=
  ∃ o x, v.flight = some (o, x) ∧ x.goesOn cfg.toConfig = false

/-- The vehicle has run no cycle. -/
def VehicleSide.Unflown (v : VehicleSide) : Prop := ∃ o x, v.flight = some (o, x) ∧ x.n = 0

/-- The simulator's end is what it is. -/
def SimSide.Settled (d : SimSide) : Prop :=
  d.process.terminationSource.isSome = true ∨ d.process.code.isSome = true

/-- The order of the ends is what it is. -/
def World.Settled (s : Setting) (w : World) : Prop := w.vehicle.Landed s.cfg ∧ w.sim.Settled

/-- The simulator's frame came through, or can no longer be required. -/
def World.UpExcused (s : Setting) (domain : String) (w : World) : Prop :=
  0 < w.vehicle.upReceived ∨ w.Settled s ∧ ¬w.RequiresUp domain ∨ w.vehicle.Unflown

/-- The vehicle's reply came through, or can no longer be required. -/
def World.DownExcused (s : Setting) (domain : String) (w : World) : Prop :=
  0 < w.sim.process.copies.survived ∨ w.Settled s ∧ ¬w.RequiresDown domain

/-! ## What stays -/

section Stays

variable {s : Setting} {domain : String} {moment : ℕ} {w w' : World} {a : Act}

/-- A vehicle that has landed stays so, and says of its end what it has said. -/
theorem VehicleSide.Landed.act {cfg : RunConfig} {clock : ℕ → ℤ} {v : VehicleSide} {a : VehicleAct}
    {out : Outcome VehicleSide} (h : v.Landed cfg) (hact : v.act cfg clock moment a = some out) (domain : String) :
    out.side.Landed cfg ∧ out.side.upReceived = v.upReceived ∧ out.side.termination domain = v.termination domain ∧
      (v.Unflown → out.side.Unflown) := by
  obtain ⟨o, x, hflight, hover⟩ := h
  have hn : v.Unflown → x.n = 0 := by
    rintro ⟨o', x', hsome, hzero⟩
    obtain ⟨-, rfl⟩ := Prod.mk.inj (Option.some.inj (hsome.symm.trans hflight))
    exact hzero
  obtain ⟨-, ⟨hsame, -⟩ | ⟨sent, tx, -, -, -, hcopied, -⟩⟩ := acted_of_over hflight hover hact
  · refine ⟨⟨o, x, hsame, hover⟩, ?_, ?_, fun hunflown => ⟨o, x, hsame, hn hunflown⟩⟩
    · unfold VehicleSide.upReceived
      rw [hsame, hflight]
    · unfold VehicleSide.termination VehicleSide.simSeen
      rw [hsame, hflight]
  · refine ⟨⟨o, _, hcopied, hover⟩, ?_, ?_, fun hunflown => ⟨o, _, hcopied, hn hunflown⟩⟩
    · unfold VehicleSide.upReceived
      rw [hcopied, hflight]
      rfl
    · unfold VehicleSide.termination VehicleSide.simSeen
      rw [hcopied, hflight]
      rfl

/-- A process that has finished takes nothing. -/
theorem Process.drains_of_code (spec : Scenario F64) (copies : ℕ) {p : Process} (h : p.code.isSome = true) :
    p.drains spec copies = false := by
  unfold Process.code at h
  unfold Process.drains
  split at h
  · rename_i code hphase
    rw [hphase]
  · nomatch h

/-- A simulator that has settled stays so, and says of its end what it has said. -/
theorem SimSide.Settled.act {spec : Scenario F64} {copies : ℕ} {clock : ℕ → ℤ} {d : SimSide} {a : SimAct}
    {out : Outcome SimSide} (h : d.Settled) (hkept : d.Kept clock) (hact : d.act spec copies clock moment a = some out)
    (domain : String) :
    out.side.Settled ∧ out.side.termination domain = d.termination domain := by
  rcases h with hended | hcode
  · obtain ⟨source, hsource⟩ := Option.isSome_iff_exists.mp hended
    have hdone := hkept.act hact
    have hsource' := hdone.later.source source hsource
    obtain ⟨span, hspan, -, -, -, hbefore, hafter⟩ := hkept.interval source hsource
    obtain ⟨span', hspan', -, -, -, hbefore', hafter'⟩ := hdone.kept.interval source hsource'
    obtain rfl := Option.some.inj (hspan'.symm.trans (hdone.later.ended span hspan))
    refine ⟨.inl (Option.isSome_iff_exists.mpr ⟨source, hsource'⟩), ?_⟩
    unfold SimSide.termination
    rw [hsource, hsource', hbefore, hbefore', hafter, hafter']
  · have hdrains := Process.drains_of_code spec copies hcode
    cases SimSide.acted hact with
    | drained _ _ hdrains' => nomatch hdrains.symm.trans hdrains'
    | faulted _ _ hdrains' => nomatch hdrains.symm.trans hdrains'
    | turned _ _ hnone =>
      rw [hnone] at hcode
      nomatch hcode
    | closed => exact ⟨.inr hcode, rfl⟩

/-- An order that is settled stays what it is. -/
theorem World.Settled.step (h : w.Settled s) (hagreed : Agreed s w) (hstep : s.step w moment a = some w')
    (domain : String) :
    w'.Settled s ∧ w'.order domain = w.order domain ∧ w'.vehicle.upReceived = w.vehicle.upReceived := by
  obtain ⟨hlanded, hsettled⟩ := h
  obtain ⟨-, hstepped⟩ := Setting.stepped hstep
  cases hstepped with
  | vehicle hact =>
    obtain ⟨hstill, hreceived, hsaid, -⟩ := hlanded.act hact domain
    exact ⟨⟨hstill, hsettled⟩, congrArg (terminalOrder · (w.sim.termination domain)) hsaid, hreceived⟩
  | sim hact =>
    obtain ⟨hstill, hsaid⟩ := hsettled.act hagreed.sim hact domain
    exact ⟨⟨hlanded, hstill⟩, congrArg (terminalOrder (w.vehicle.termination domain)) hsaid, rfl⟩

/-- A simulator's frame that can no longer be required stays so. -/
theorem World.UpExcused.step (h : w.UpExcused s domain) (hlanded : w.vehicle.Landed s.cfg) (hagreed : Agreed s w)
    (hstep : s.step w moment a = some w') : w'.UpExcused s domain := by
  rcases h with hreceived | ⟨hsettled, hnever⟩ | hunflown
  · left
    obtain ⟨-, hstepped⟩ := Setting.stepped hstep
    cases hstepped with
    | vehicle hact =>
      obtain ⟨-, hsame, -⟩ := hlanded.act hact domain
      exact hreceived.trans_eq hsame.symm
    | sim => exact hreceived
  · obtain ⟨hstill, hsame, -⟩ := hsettled.step hagreed hstep domain
    refine .inr (.inl ⟨hstill, fun hrequired => hnever ?_⟩)
    exact hsame.symm.trans hrequired
  · right; right
    obtain ⟨-, hstepped⟩ := Setting.stepped hstep
    cases hstepped with
    | vehicle hact => exact (hlanded.act hact domain).2.2.2 hunflown
    | sim => exact hunflown

/-- A vehicle's reply that can no longer be required stays so. -/
theorem World.DownExcused.step (h : w.DownExcused s domain) (hagreed : Agreed s w)
    (hstep : s.step w moment a = some w') : w'.DownExcused s domain := by
  rcases h with hsurvived | ⟨hsettled, hnever⟩
  · left
    obtain ⟨-, hstepped⟩ := Setting.stepped hstep
    cases hstepped with
    | vehicle => exact hsurvived
    | sim hact => exact hsurvived.trans_le (hagreed.sim.traded hact).survived
  · obtain ⟨hstill, hsame, hreceived⟩ := hsettled.step hagreed hstep domain
    refine .inr ⟨hstill, fun hrequired => hnever ?_⟩
    unfold World.RequiresDown World.RequiresUp at hrequired ⊢
    rwa [← hsame, ← hreceived]

end Stays

/-! ## Steps that are in time -/

/-- What the vehicle misses by an act: what it has not read when it closes. -/
def World.missedUp (w : World) : VehicleAct → List Bytes
  | .close => w.up.waiting
  | _ => []

/-- What the simulator misses by an act: what it has not read when it closes, and what an exception takes away. -/
def World.missedDown (s : Setting) (w : World) : SimAct → List Bytes
  | .close => w.down.waiting
  | a => w.sim.lost s.spec a

/-- What the vehicle misses does not tell of the simulator's end, or it has heard of it, or need not. -/
def World.SparesUp (domain : String) (w : World) (missed : List Bytes) : Prop :=
  (∀ data ∈ missed, ¬AnnouncesEnd data) ∨ 0 < w.vehicle.upReceived ∨ ¬w.RequiresUp domain

/-- What the simulator misses does not tell of the vehicle's end, or it has heard of it, or need not. -/
def World.SparesDown (domain : String) (w : World) (missed : List Bytes) : Prop :=
  (∀ data ∈ missed, ¬TellsEnd data) ∨ 0 < w.sim.process.copies.survived ∨ ¬w.RequiresDown domain

instance (domain : String) (w : World) (missed : List Bytes) : Decidable (w.SparesUp domain missed) :=
  inferInstanceAs (Decidable (_ ∨ _))

instance (domain : String) (w : World) (missed : List Bytes) : Decidable (w.SparesDown domain missed) :=
  inferInstanceAs (Decidable (_ ∨ _))

/-- An act misses nothing that is required, and if it sends of the end once the other side has closed, the clock shows
another time than at the closing. -/
def Setting.Timely (s : Setting) (domain : String) (w : World) (moment : ℕ) : Act → Prop
  | .vehicle a =>
    w.SparesUp domain (w.missedUp a) ∧
      ∀ out ∈ w.vehicle.act s.cfg s.vehicleClock moment a, ∀ data ∈ out.handed, TellsEnd data →
        ∀ tx ∈ a.stamp, ∀ closed ∈ w.sim.closed, s.vehicleClock closed ≠ s.vehicleClock tx
  | .sim a =>
    w.SparesDown domain (w.missedDown s a) ∧
      ∀ out ∈ w.sim.act s.spec s.copies s.simClock moment a, ∀ data ∈ out.handed, AnnouncesEnd data →
        ∀ tx ∈ a.stamp, ∀ closed ∈ w.vehicle.closed, s.simClock closed ≠ s.simClock tx

instance (s : Setting) (domain : String) (w : World) (moment : ℕ) (a : Act) : Decidable (s.Timely domain w moment a) :=
  match a with
  | .vehicle _ => inferInstanceAs (Decidable (_ ∧ _))
  | .sim _ => inferInstanceAs (Decidable (_ ∧ _))

/-- A condition on steps holds along acts. -/
def Setting.Along (s : Setting) (Q : World → ℕ → Act → Prop) (w : World) : List (ℕ × Act) → Prop
  | [] => True
  | (moment, a) :: rest => Q w moment a ∧ ∀ next ∈ s.step w moment a, s.Along Q next rest

/-- The condition can be decided. -/
def Setting.decideAlong (s : Setting) (Q : World → ℕ → Act → Prop) [∀ w moment a, Decidable (Q w moment a)] (w : World) :
    (acts : List (ℕ × Act)) → Decidable (s.Along Q w acts)
  | [] => inferInstanceAs (Decidable True)
  | (moment, a) :: rest =>
    have := fun next => s.decideAlong Q next rest
    inferInstanceAs (Decidable (Q w moment a ∧ ∀ next ∈ s.step w moment a, s.Along Q next rest))

instance (s : Setting) (Q : World → ℕ → Act → Prop) [∀ w moment a, Decidable (Q w moment a)] (w : World)
    (acts : List (ℕ × Act)) : Decidable (s.Along Q w acts) := s.decideAlong Q w acts

/-- What every step that meets a condition keeps, acts that meet it keep. -/
theorem Setting.Along.keeps {s : Setting} {P : World → Prop} {Q : World → ℕ → Act → Prop} {w w' : World}
    {acts : List (ℕ × Act)} (h : s.Along Q w acts)
    (hstep : ∀ w moment a w', Q w moment a → P w → s.step w moment a = some w' → P w') (hfirst : P w)
    (hrun : s.run w acts = some w') : P w' := by
  induction acts generalizing w with
  | nil => exact Option.some.inj hrun ▸ hfirst
  | cons act acts ih =>
    obtain ⟨moment, a⟩ := act
    obtain ⟨next, hnext, hrest⟩ := Option.bind_eq_some_iff.mp hrun
    obtain ⟨hmeets, hlater⟩ := h
    exact ih (hlater next hnext) (hstep w moment a next hmeets hfirst hnext) hrest

/-! ## The accounts -/

/-- A time that a clock has shown by a moment is later than one that it showed at another. -/
def Outlasts (clock : ℕ → ℤ) (closed : ℕ) (time : ℤ) (last : ℕ) : Prop :=
  ∃ t ≤ last, time = clock t ∧ clock closed < clock t

/-- The accounts of the pair: what is sent of an end is counted by the other side once it is taken, unless it is
excused; and what a side has sent when the other has closed is counted by it, or ends later. -/
structure Booked (s : Setting) (domain : String) (w : World) : Prop where
  agreed : Agreed s w
  up : w.up.taken <+: w.up.sent
  down : w.down.taken <+: w.down.sent
  counts : w.vehicle.Counts w.up.taken w.down.sent
  transmitted : w.sim.process.copies.transmitted ≤ w.up.sent.countP endFrame
  heard : w.DownExcused s domain ∨ w.down.taken.countP endReply ≤ w.sim.heard
  drained : ∀ packets, w.sim.drained = some packets → w.sim.process.drains s.spec s.copies = true
  landed : ∀ c, w.vehicle.closed = some c → c ≤ w.now ∧ w.vehicle.Landed s.cfg
  done : ∀ c, w.sim.closed = some c → c ≤ w.now ∧ w.sim.process.code.isSome = true
  closedUp : ∀ c, w.vehicle.closed = some c → w.UpExcused s domain ∨ w.sim.process.copies.transmitted = 0 ∨
    Outlasts s.simClock c w.sim.process.copies.lastSend w.sim.last
  closedDown : ∀ c, w.sim.closed = some c → w.DownExcused s domain ∨
    ∀ o x, w.vehicle.flight = some (o, x) → x.r.termSent ≤ w.sim.process.copies.received ∨
      Outlasts s.vehicleClock c x.r.termLast w.vehicle.last

section Booked

variable {s : Setting} {domain : String} {moment : ℕ} {w w' : World} {a : Act}

omit [Arith F64] in
/-- A time that is later stays so. -/
theorem Outlasts.mono {clock : ℕ → ℤ} {closed last last' : ℕ} {time : ℤ} (h : Outlasts clock closed time last)
    (hlast : last ≤ last') : Outlasts clock closed time last' := by
  obtain ⟨t, ht, htime, hlater⟩ := h
  exact ⟨t, ht.trans hlast, htime, hlater⟩

omit [Arith F64] in
/-- Nor does a clock that never runs back show an earlier one after it. -/
theorem Outlasts.later {clock : ℕ → ℤ} {closed last tx : ℕ} {time : ℤ} (h : Outlasts clock closed time last)
    (hclock : Monotone clock) (htx : last ≤ tx) : clock closed < clock tx := by
  obtain ⟨t, ht, -, hlater⟩ := h
  exact hlater.trans_le (hclock (ht.trans htx))

/-- Where the simulator's end is told, it has ended. -/
theorem Agreed.settled (h : Agreed s w) {data : Bytes} (hdata : data ∈ w.up.sent) (hends : AnnouncesEnd data) :
    w.sim.Settled := by
  obtain ⟨f, hf, hterminal⟩ := hends
  obtain ⟨reason, span, hover, -⟩ := h.up data hdata f hf hterminal
  exact .inl (Option.isSome_iff_exists.mpr ⟨_, hover.source⟩)

/-- Where the vehicle's end is told, it has landed. -/
theorem Agreed.landed (h : Agreed s w) {data : Bytes} (hdata : data ∈ w.down.sent) (hends : TellsEnd data) :
    w.vehicle.Landed s.cfg := by
  obtain ⟨value, hvalue, hstate⟩ := hends
  obtain ⟨t, span, ⟨o, x, hflight, hcycle, -⟩, -⟩ := h.down data hdata value hvalue hstate
  refine ⟨o, x, hflight, ?_⟩
  have hrunning : x.running = false := by
    by_contra hrunning
    exact hcycle ((h.vehicle.flown o x hflight).living (Bool.eq_true_of_not_eq_false hrunning))
  unfold Loop.goesOn
  rw [hrunning]
  rfl

omit [Arith F64] in
/-- Among what does not tell of the simulator's end, nothing is counted. -/
theorem countP_endFrame_eq_zero {packets : List Bytes} (h : ∀ data ∈ packets, ¬AnnouncesEnd data) :
    packets.countP endFrame = 0 :=
  List.countP_eq_zero.mpr fun data hdata hends => h data hdata (endFrame_iff.mp hends)

omit [Arith F64] in
/-- Among what does not tell of the vehicle's end, nothing is counted. -/
theorem countP_endReply_eq_zero {packets : List Bytes} (h : ∀ data ∈ packets, ¬TellsEnd data) :
    packets.countP endReply = 0 :=
  List.countP_eq_zero.mpr fun data hdata hends => h data hdata (endReply_iff.mp hends)

/-- When the vehicle closes. -/
theorem VehicleSide.closed_act {cfg : RunConfig} {clock : ℕ → ℤ} {v : VehicleSide} {a : VehicleAct}
    {out : Outcome VehicleSide} (h : v.act cfg clock moment a = some out) {c : ℕ} (hclosed : out.side.closed = some c) :
    v.closed = some c ∨ a = .close ∧ c = moment ∧ v.polled = none ∧ v.Landed cfg := by
  cases acted h with
  | @closed o x hflight hidle hopen hlater hover =>
    exact .inr ⟨rfl, (Option.some.inj hclosed).symm, hidle, o, x, hflight, hover⟩
  | _ => exact .inl hclosed

/-- When the simulator closes. -/
theorem SimSide.closed_act {spec : Scenario F64} {copies : ℕ} {clock : ℕ → ℤ} {d : SimSide} {a : SimAct}
    {out : Outcome SimSide} (h : d.act spec copies clock moment a = some out) {c : ℕ} (hclosed : out.side.closed = some c) :
    d.closed = some c ∧ d.process.code = none ∨
      a = .close ∧ c = moment ∧ d.process.code.isSome = true ∧ out.side.process = d.process := by
  have hopen (hdrains : d.process.drains spec copies = true) : d.process.code = none := by
    by_contra hcode
    exact absurd (hdrains.symm.trans (Process.drains_of_code spec copies (Option.isSome_iff_ne_none.mpr hcode))) Bool.noConfusion
  cases acted h with
  | drained _ _ hdrains => exact .inl ⟨hclosed, hopen hdrains⟩
  | faulted _ _ hdrains => exact .inl ⟨hclosed, hopen hdrains⟩
  | turned _ _ hcode => exact .inl ⟨hclosed, hcode⟩
  | closed _ hcode => exact .inr ⟨rfl, (Option.some.inj hclosed).symm, hcode, rfl⟩

/-- What the vehicle misses when it closes is excused, or nothing was sent. -/
theorem Booked.up_at_close (h : Booked s domain w) (hlanded : w.vehicle.Landed s.cfg) (hidle : w.vehicle.polled = none)
    (hspares : w.SparesUp domain w.up.waiting) :
    w.UpExcused s domain ∨ w.sim.process.copies.transmitted = 0 := by
  rcases hspares with hnone | hreceived | hnever
  · obtain ⟨o, x, hflight, -⟩ := hlanded
    by_cases hn : x.n = 0
    · exact .inl (.inr (.inr ⟨o, x, hflight, hn⟩))
    have hcounted := h.counts.received o x hflight
    rw [hidle, VehicleSide.uncounted, if_neg hn, Option.elim_none, List.append_nil, List.countP_nil, Nat.add_zero]
      at hcounted
    have hsent := InOrder.countP_put endFrame h.up
    rw [show InOrder.waiting w.up.sent w.up.taken = w.up.waiting from rfl, countP_endFrame_eq_zero hnone, hcounted,
      Nat.add_zero] at hsent
    have hreceived : w.vehicle.upReceived = x.r.admission.terminalCounts.receivedRaw := by
      unfold VehicleSide.upReceived
      rw [hflight]
      rfl
    have htransmitted := h.transmitted
    rw [hsent, ← hreceived] at htransmitted
    rcases Nat.eq_zero_or_pos w.vehicle.upReceived with hzero | hpos
    · exact .inr (Nat.eq_zero_of_le_zero (hzero ▸ htransmitted))
    · exact .inl (.inl hpos)
  · exact .inl (.inl hreceived)
  · by_cases hsettled : w.sim.Settled
    · exact .inl (.inr (.inl ⟨⟨hlanded, hsettled⟩, hnever⟩))
    · right
      have htransmitted := h.transmitted
      rw [countP_endFrame_eq_zero fun data hdata hends => hsettled (h.agreed.settled hdata hends)] at htransmitted
      exact Nat.eq_zero_of_le_zero htransmitted

/-- What the simulator misses when it closes is excused, or it has counted all that was sent. -/
theorem Booked.down_at_close (h : Booked s domain w) (hcode : w.sim.process.code.isSome = true)
    (hspares : w.SparesDown domain w.down.waiting) :
    w.DownExcused s domain ∨
      ∀ o x, w.vehicle.flight = some (o, x) → x.r.termSent ≤ w.sim.process.copies.received := by
  rcases hspares with hnone | hsurvived | hnever
  · refine h.heard.imp id fun hheard o x hflight => ?_
    have hidle : w.sim.drained = none := by
      by_contra hsome
      obtain ⟨packets, hpackets⟩ := Option.ne_none_iff_exists'.mp hsome
      exact absurd ((h.drained packets hpackets).symm.trans (Process.drains_of_code s.spec s.copies hcode)) Bool.noConfusion
    rw [SimSide.heard, hidle] at hheard
    have hsent := InOrder.countP_put endReply h.down
    rw [show InOrder.waiting w.down.sent w.down.taken = w.down.waiting from rfl, countP_endReply_eq_zero hnone] at hsent
    exact (h.counts.sent o x hflight).trans (hsent.trans_le hheard)
  · exact .inl (.inl hsurvived)
  · by_cases hlanded : w.vehicle.Landed s.cfg
    · exact .inl (.inr ⟨⟨hlanded, .inr hcode⟩, hnever⟩)
    · refine .inr fun o x hflight => ?_
      have hsent := h.counts.sent o x hflight
      rw [countP_endReply_eq_zero fun data hdata hends => hlanded (h.agreed.landed hdata hends)] at hsent
      exact hsent.trans (Nat.zero_le _)

/-- An act of the simulator keeps what it has heard. -/
theorem Booked.heard_act {a : SimAct} {out : Outcome SimSide} (h : Booked s domain w)
    (htimely : w.SparesDown domain (w.missedDown s a))
    (hact : w.sim.act s.spec s.copies s.simClock moment a = some out)
    (hstep : s.step w moment (.sim a) = some w') (hsim : w'.sim = out.side) (hvehicle : w'.vehicle = w.vehicle)
    (hsent : w.down.taken ++ out.taken <+: w.down.sent) :
    w'.DownExcused s domain ∨ (w.down.taken ++ out.taken).countP endReply ≤ out.side.heard := by
  have htraded := h.agreed.sim.traded hact
  rcases h.heard with hexcused | hheard
  · exact .inl (hexcused.step h.agreed hstep)
  have hcounted : (w.down.taken ++ out.taken).countP endReply ≤ out.side.heard + (w.sim.lost s.spec a).countP endReply := by
    rw [List.countP_append]
    exact (Nat.add_le_add_right hheard _).trans htraded.heard
  by_cases hlost : w.sim.lost s.spec a = []
  · rw [hlost, List.countP_nil, Nat.add_zero] at hcounted
    exact .inr hcounted
  have hmissed : w.missedDown s a = w.sim.lost s.spec a := by
    cases a with
    | close => exact absurd rfl hlost
    | _ => rfl
  rw [hmissed] at htimely
  rcases htimely with hnone | hsurvived | hnever
  · rw [countP_endReply_eq_zero hnone, Nat.add_zero] at hcounted
    exact .inr hcounted
  · left; left
    rw [hsim]
    exact hsurvived.trans_le htraded.survived
  · -- What the exception took away is not required, and no longer will be.
    obtain ⟨hcode, hsaid⟩ := htraded.lost hlost
    by_cases hlanded : w.vehicle.Landed s.cfg
    · refine .inl (.inr ⟨⟨hvehicle ▸ hlanded, .inr (hsim ▸ hcode)⟩, fun hrequired => hnever ?_⟩)
      unfold World.RequiresDown World.RequiresUp World.order at hrequired ⊢
      rwa [hsim, hvehicle, hsaid] at hrequired
    · refine .inr ?_
      rw [countP_endReply_eq_zero fun data hdata hends => hlanded (h.agreed.landed (hsent.subset hdata) hends)]
      exact Nat.zero_le _

/-- An act of the vehicle in time keeps the accounts. -/
theorem Booked.vehicle_act {a : VehicleAct} {out : Outcome VehicleSide} (h : Booked s domain w)
    (hclock : Monotone s.vehicleClock) (hlossless : s.Lossless) (htimely : s.Timely domain w moment (.vehicle a))
    (hlater : w.now < moment) (hact : w.vehicle.act s.cfg s.vehicleClock moment a = some out)
    (hkept : s.discipline out.room w.up out.taken = true) (hstep : s.step w moment (.vehicle a) = some w')
    (hw : w' = { w with
      now := moment
      vehicle := out.side
      up.taken := w.up.taken ++ out.taken
      down.sent := w.down.sent ++ out.handed.toList }) : Booked s domain w' := by
  obtain ⟨hspares, hstamps⟩ := htimely
  have hdone := h.agreed.vehicle.act hact
  have hagreed := h.agreed.step hstep
  refine ⟨hagreed, ?_, ?_, ?_, ?_, ?_, ?_, ?_, ?_, ?_, ?_⟩
  · rw [hw]
    exact InOrder.prefix_take h.up (hlossless _ _ _ hkept)
  · rw [hw]
    exact InOrder.prefix_put h.down _
  · rw [hw]
    exact h.counts.act h.agreed.vehicle hact
  · rw [hw]
    exact h.transmitted
  · refine h.heard.imp (fun hexcused => hexcused.step h.agreed hstep) fun hheard => ?_
    rw [hw]
    exact hheard
  · rw [hw]
    exact h.drained
  · rw [hw]
    intro c hclosed
    rcases VehicleSide.closed_act hact hclosed with hold | ⟨-, rfl, -, hlanded⟩
    · obtain ⟨hpast, hlanded⟩ := h.landed c hold
      exact ⟨hpast.trans hlater.le, (hlanded.act hact domain).1⟩
    · exact ⟨le_rfl, (hlanded.act hact domain).1⟩
  · rw [hw]
    intro c hclosed
    obtain ⟨hpast, hcode⟩ := h.done c hclosed
    exact ⟨hpast.trans hlater.le, hcode⟩
  · intro c hclosed
    have hclosed : out.side.closed = some c := by rwa [hw] at hclosed
    rcases VehicleSide.closed_act hact hclosed with hold | ⟨rfl, rfl, hidle, hlanded⟩
    · refine (h.closedUp c hold).imp (fun hexcused => hexcused.step (h.landed c hold).2 h.agreed hstep) fun hcounted => ?_
      rw [hw]
      exact hcounted
    · refine (h.up_at_close hlanded hidle hspares).imp (fun hexcused => hexcused.step hlanded h.agreed hstep)
        fun hnone => .inl ?_
      rw [hw]
      exact hnone
  · intro c hclosed
    have hclosed : w.sim.closed = some c := by rwa [hw] at hclosed
    obtain ⟨hpast, -⟩ := h.done c hclosed
    refine (h.closedDown c hclosed).imp (fun hexcused => hexcused.step h.agreed hstep) fun hcounted o y hflight => ?_
    rw [hw] at hflight ⊢
    rcases VehicleSide.sends_act h.counts h.agreed.vehicle hact hflight with hnone | ⟨x, hx, hsent, hlast⟩ |
      ⟨tx, hstamp, hmoment, htx, hlast, hsends⟩
    · exact .inl (hnone.trans_le (Nat.zero_le _))
    · rw [hsent, hlast]
      exact (hcounted o x hx).imp id fun hends => hends.mono (hdone.after.1.le.trans hdone.after.2)
    · have hends (hread : s.vehicleClock c < s.vehicleClock tx) :
          Outlasts s.vehicleClock c y.r.termLast out.side.last := ⟨tx, htx, hlast, hread⟩
      rcases hsends with ⟨x, hx, hsent⟩ | ⟨data, hdata, htells⟩
      · rw [hsent]
        exact (hcounted o x hx).imp id fun hold => hends (hold.later hclock (hdone.after.1.trans hmoment).le)
      · refine .inr (hends ((hclock (by omega)).lt_of_ne ?_))
        exact hstamps out hact data hdata htells tx hstamp c hclosed

/-- An act of the simulator in time keeps the accounts. -/
theorem Booked.sim_act {a : SimAct} {out : Outcome SimSide} (h : Booked s domain w) (hclock : Monotone s.simClock)
    (hlossless : s.Lossless) (htimely : s.Timely domain w moment (.sim a)) (hlater : w.now < moment)
    (hact : w.sim.act s.spec s.copies s.simClock moment a = some out)
    (hkept : s.discipline out.room w.down out.taken = true) (hstep : s.step w moment (.sim a) = some w')
    (hw : w' = { w with
      now := moment
      sim := out.side
      down.taken := w.down.taken ++ out.taken
      up.sent := w.up.sent ++ out.handed.toList }) : Booked s domain w' := by
  obtain ⟨hspares, hstamps⟩ := htimely
  have hdone := h.agreed.sim.act hact
  have htraded := h.agreed.sim.traded hact
  have hagreed := h.agreed.step hstep
  have hdown := InOrder.prefix_take h.down (hlossless _ _ _ hkept)
  refine ⟨hagreed, ?_, ?_, ?_, ?_, ?_, ?_, ?_, ?_, ?_, ?_⟩
  · rw [hw]
    exact InOrder.prefix_put h.up _
  · rw [hw]
    exact hdown
  · rw [hw]
    exact h.counts
  · rw [hw]
    show out.side.process.copies.transmitted ≤ (w.up.sent ++ out.handed.toList).countP endFrame
    rw [List.countP_append]
    rcases htraded.sends with ⟨hsame, -⟩ | ⟨tx, -, -, -, -, hsame | ⟨hmore, data, hdata, hends⟩⟩
    · exact hsame.trans_le (h.transmitted.trans (Nat.le_add_right _ _))
    · exact hsame.trans_le (h.transmitted.trans (Nat.le_add_right _ _))
    · have hone : out.handed.toList.countP endFrame = 1 := by
        rw [Option.mem_def.mp hdata, Option.toList_some, List.countP_singleton, if_pos (endFrame_iff.mpr hends)]
      rw [hmore, hone]
      exact Nat.add_le_add_right h.transmitted 1
  · have hheard := h.heard_act hspares hact hstep (by rw [hw]) (by rw [hw]) hdown
    rw [hw] at hheard ⊢
    exact hheard
  · rw [hw]
    intro packets hpackets
    have hpackets : out.side.drained = some packets := hpackets
    show out.side.process.drains s.spec s.copies = true
    cases SimSide.acted hact with
    | drained _ _ hdrains => exact hdrains
    | turned => nomatch hpackets
    | faulted _ hidle => nomatch hidle.symm.trans hpackets
    | closed => exact h.drained packets hpackets
  · rw [hw]
    intro c hclosed
    obtain ⟨hpast, hlanded⟩ := h.landed c hclosed
    exact ⟨hpast.trans hlater.le, hlanded⟩
  · rw [hw]
    intro c hclosed
    rcases SimSide.closed_act hact hclosed with ⟨hold, hopen⟩ | ⟨-, rfl, hcode, hsame⟩
    · exact absurd (h.done c hold).2 (by rw [hopen]; exact Bool.false_ne_true)
    · refine ⟨le_rfl, ?_⟩
      show out.side.process.code.isSome = true
      rw [hsame]
      exact hcode
  · intro c hclosed
    have hclosed : w.vehicle.closed = some c := by rwa [hw] at hclosed
    obtain ⟨hpast, hlanded⟩ := h.landed c hclosed
    refine (h.closedUp c hclosed).imp (fun hexcused => hexcused.step hlanded h.agreed hstep) fun hcounted => ?_
    rw [hw]
    show out.side.process.copies.transmitted = 0 ∨
      Outlasts s.simClock c out.side.process.copies.lastSend out.side.last
    rcases htraded.sends with ⟨hsent, hlast⟩ | ⟨tx, hstamp, hmoment, htx, hlast, hsends⟩
    · rw [hsent, hlast]
      exact hcounted.imp id fun hends => hends.mono (hdone.after.1.le.trans hdone.after.2)
    · have hends (hread : s.simClock c < s.simClock tx) :
          Outlasts s.simClock c out.side.process.copies.lastSend out.side.last := ⟨tx, htx, hlast, hread⟩
      rcases hsends with hsent | ⟨-, data, hdata, htells⟩
      · rw [hsent]
        exact hcounted.imp id fun hold => hends (hold.later hclock (hdone.after.1.trans hmoment).le)
      · refine .inr (hends ((hclock (by omega)).lt_of_ne ?_))
        exact hstamps out hact data hdata htells tx hstamp c hclosed
  · intro c hclosed
    have hclosed : out.side.closed = some c := by rwa [hw] at hclosed
    rcases SimSide.closed_act hact hclosed with ⟨hold, hopen⟩ | ⟨rfl, rfl, hcode, hsame⟩
    · exact absurd (h.done c hold).2 (by rw [hopen]; exact Bool.false_ne_true)
    · refine (h.down_at_close hcode hspares).imp (fun hexcused => hexcused.step h.agreed hstep)
        fun hcounted o x hflight => .inl ?_
      rw [hw] at hflight ⊢
      show x.r.termSent ≤ out.side.process.copies.received
      rw [hsame]
      exact hcounted o x hflight

/-- A step in time keeps the accounts. -/
theorem Booked.step (h : Booked s domain w) (hshared : s.vehicleClock = s.simClock) (hclock : Monotone s.simClock)
    (hlossless : s.Lossless) (htimely : s.Timely domain w moment a) (hstep : s.step w moment a = some w') :
    Booked s domain w' := by
  obtain ⟨hlater, hstepped⟩ := Setting.stepped hstep
  cases hstepped with
  | vehicle hact _ hkept => exact h.vehicle_act (hshared ▸ hclock) hlossless htimely hlater hact hkept hstep rfl
  | sim hact _ hkept => exact h.sim_act hclock hlossless htimely hlater hact hkept hstep rfl

/-- Nothing has happened. -/
theorem booked_start {opened : ℕ} {process : Process} (h : Process.initial s.spec s.seed s.delayTicks = .ok process) :
    Booked s domain { sim := { last := opened, opened, process } } := by
  have hcounts : VehicleSide.Counts {} [] [] :=
    ⟨fun _ => ⟨rfl, rfl⟩, fun _ _ hflight => absurd hflight.symm (Option.some_ne_none _),
      fun _ _ hflight => absurd hflight.symm (Option.some_ne_none _),
      fun _ _ hflight => absurd hflight.symm (Option.some_ne_none _),
      fun _ _ hflight => absurd hflight.symm (Option.some_ne_none _),
      fun _ _ hflight => absurd hflight.symm (Option.some_ne_none _)⟩
  refine ⟨agreed_start h, List.nil_prefix, List.nil_prefix, hcounts, ?_, .inr ?_,
    fun _ hdrained => absurd hdrained.symm (Option.some_ne_none _),
    fun _ hclosed => absurd hclosed.symm (Option.some_ne_none _),
    fun _ hclosed => absurd hclosed.symm (Option.some_ne_none _),
    fun _ hclosed => absurd hclosed.symm (Option.some_ne_none _),
    fun _ hclosed => absurd hclosed.symm (Option.some_ne_none _)⟩
  · show process.copies.transmitted ≤ 0
    rw [Process.initial_copies h]
  · exact Nat.zero_le _

end Booked

end Tvc.Freerun
