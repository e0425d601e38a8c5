import Tvc.Freerun.Endings
import Tvc.Freerun.World

/-!
# The simulator's end

Once the simulator has ended the run, with an interval around the moment, its end stays as it is: whatever it does
later keeps the reason, the interval and the one frame that tells of them.
-/

namespace Tvc.Freerun

variable [Arith F64]

namespace Process

variable {spec : Scenario F64} {p : Process} {e : SimEvent} {ending : Ending} {handed : Option Bytes}

/-- What a process knows of the end stays: its reason, the side that ended the run with the interval, its frame. -/
theorem Turned.kept (h : Turned spec p e ending handed) :
    (∀ r, p.model.reason = some r → ending.reason = some r) ∧
      (∀ source, p.terminationSource = some source → ending.source = some source ∧
        ending.beforeNs = p.terminationBeforeNs ∧ ending.terminationNs = p.terminationNs) ∧
      ∀ f, p.cachedTerminal = some f → ending.cached = some f := by
  have hfirst (hopen : p.ending = {}) :
      p.model.reason = none ∧ p.terminationSource = none ∧ p.cachedTerminal = none :=
    ⟨congrArg Ending.reason hopen, congrArg Ending.source hopen, congrArg Ending.cached hopen⟩
  cases h with
  | quiet hseen hreason =>
    refine ⟨fun r hr => ?_, fun source hsource => ⟨hsource, rfl, rfl⟩, fun f hf => hf⟩
    rcases hreason with hsame | ⟨hnone, -⟩
    · exact hsame.trans hr
    · nomatch hnone.symm.trans hr
  | ordinary hopen =>
    obtain ⟨hreason, hsource, hcached⟩ := hfirst hopen
    exact ⟨fun r hr => absurd (hr.symm.trans hreason) (Option.some_ne_none r), fun s hs => absurd (hs.symm.trans hsource) (Option.some_ne_none s),
      fun f hf => absurd (hf.symm.trans hcached) (Option.some_ne_none f)⟩
  | told hopen =>
    obtain ⟨hreason, hsource, hcached⟩ := hfirst hopen
    exact ⟨fun r hr => absurd (hr.symm.trans hreason) (Option.some_ne_none r), fun s hs => absurd (hs.symm.trans hsource) (Option.some_ne_none s),
      fun f hf => absurd (hf.symm.trans hcached) (Option.some_ne_none f)⟩
  | ended hopen =>
    obtain ⟨hreason, hsource, hcached⟩ := hfirst hopen
    exact ⟨fun r hr => absurd (hr.symm.trans hreason) (Option.some_ne_none r), fun s hs => absurd (hs.symm.trans hsource) (Option.some_ne_none s),
      fun f hf => absurd (hf.symm.trans hcached) (Option.some_ne_none f)⟩
  | repeated => exact ⟨fun r hr => hr, fun source hsource => ⟨hsource, rfl, rfl⟩, fun f hf => hf⟩

/-- Where a turn takes what has arrived, the vehicle has not ended the run. -/
theorem Standing.not_vehicle {copies : ℕ} (h : p.Standing) (hdrains : p.drains spec copies = true) :
    p.terminationSource ≠ some .vehicle := by
  unfold drains at hdrains
  split at hdrains
  · nomatch hdrains
  · rename_i k hphase
    have hsource : p.terminationSource = none := congrArg Ending.source (h.body k hphase)
    simp [hsource]
  · rename_i tick offset hphase
    simp [(h.grace tick offset hphase).2.2.1]
  · nomatch hdrains

/-- A turn whose sleep raises. -/
theorem turn_fault {copies : ℕ} (hdrains : p.drains spec copies = true) (failure : Failure) :
    p.turn spec copies (faultEvent failure) = (p.fail failure, none) := by
  unfold drains at hdrains
  unfold turn
  cases hphase : p.phase with
  | prologue =>
    rw [hphase] at hdrains
    nomatch hdrains
  | body k =>
    rw [hphase] at hdrains
    dsimp only at hdrains ⊢
    rw [if_pos (of_decide_eq_true hdrains)]
    rfl
  | grace tick offset =>
    rw [hphase] at hdrains
    dsimp only at hdrains ⊢
    rw [if_pos (of_decide_eq_true hdrains)]
    rfl
  | finished code =>
    rw [hphase] at hdrains
    nomatch hdrains

end Process

/-- A frame tells of the simulator's end. -/
def Announces (data : Bytes) (reason : SimReason) : Prop :=
  ∃ f, (Datagram.mk data false).frame = .ok f ∧ f.terminal = true ∧ f.fields.simReason = BitVec.ofNat 32 reason.toNat

omit [Arith F64] in
/-- The terminal frame of a reason tells it. -/
theorem announces_frameOf {o : Observation F64} {reason : SimReason} {sentNs : ℤ} {frame : Bytes}
    (h : Process.frameOf o.tick o true (some reason) sentNs = .ok frame) : Announces frame reason := by
  obtain ⟨-, -, hframe⟩ := Process.frameOf_fields h
  exact ⟨_, hframe, by simp [Frame.terminal, Frame.ofFields, Process.offeredFields], rfl⟩

omit [Arith F64] in
/-- An ordinary frame does not. -/
theorem ordinary_frameOf {o : Observation F64} {reason : Option SimReason} {sentNs : ℤ} {frame : Bytes}
    (h : Process.frameOf o.tick o false reason sentNs = .ok frame) :
    ∀ f, (Datagram.mk frame false).frame = .ok f → f.terminal = false := by
  intro f hf
  obtain ⟨-, -, hframe⟩ := Process.frameOf_fields h
  obtain rfl := Except.ok.inj (hframe.symm.trans hf)
  simp [Frame.terminal, Frame.ofFields, Process.offeredFields]

namespace SimSide

variable {spec : Scenario F64} {copies moment : ℕ} {clock : ℕ → ℤ} {d d' : SimSide}

omit [Arith F64] in
/-- The simulator has ended the run itself, in an interval and with a reason, and has made the frame that tells. -/
structure Over (d : SimSide) (reason : SimReason) (span : Span) (data : Bytes) : Prop where
  reason : d.process.model.reason = some reason
  source : d.process.terminationSource = some .simulator
  ended : d.ended = some span
  cached : d.process.cachedTerminal = some data

/-- One state of the simulator comes after another: it keeps what the other knows of the end. -/
structure Later (d d' : SimSide) : Prop where
  last : d.last ≤ d'.last
  reason : ∀ r, d.process.model.reason = some r → d'.process.model.reason = some r
  source : ∀ source, d.process.terminationSource = some source → d'.process.terminationSource = some source
  ended : ∀ span, d.ended = some span → d'.ended = some span
  cached : ∀ f, d.process.cachedTerminal = some f → d'.process.cachedTerminal = some f

omit [Arith F64] in
/-- The simulator's own end stays. -/
theorem Over.later {reason : SimReason} {span : Span} {data : Bytes} (h : d.Over reason span data)
    (hlater : Later d d') : d'.Over reason span data :=
  ⟨hlater.reason _ h.reason, hlater.source _ h.source, hlater.ended _ h.ended, hlater.cached _ h.cached⟩

/-- What the simulator's side keeps: where its process stands, that it has an interval when some side has ended
the run, and that its terminal frame tells its reason. -/
structure Kept (clock : ℕ → ℤ) (d : SimSide) : Prop where
  standing : d.process.Standing
  unended : d.process.terminationSource = none →
    d.ended = none ∧ d.process.terminationBeforeNs = 0 ∧ d.process.terminationNs = 0
  interval : ∀ source, d.process.terminationSource = some source → ∃ span, d.ended = some span ∧
    span.before < span.moment ∧ span.moment < span.after ∧ span.after < d.last ∧
    d.process.terminationBeforeNs = clock span.before ∧ d.process.terminationNs = clock span.after
  cached : ∀ data, d.process.cachedTerminal = some data →
    ∃ reason span, d.Over reason span data ∧ Announces data reason
  told : d.process.terminationSource = some .vehicle → d.process.model.vehicleSeen.isSome = true

/-- What an act of the simulator comes to, with what it needs. -/
inductive Acted (spec : Scenario F64) (copies : ℕ) (clock : ℕ → ℤ) (d : SimSide) (moment : ℕ) :
    SimAct → Outcome SimSide → Prop
  | drained {packets : List Bytes} (hlater : d.last < moment) (hidle : d.drained = none)
      (hdrains : d.process.drains spec copies = true) (hroom : packets.length ≤ drainRoom) :
      Acted spec copies clock d moment (.drain packets)
        { side := { d with last := moment, drained := some packets }, room := drainRoom, taken := packets }
  | turned {moments : TurnMoments} {sendOk : Bool} {q : Process} {handed : Option Bytes}
      (horder : moments.InOrder d.last moment) (hdrained : d.drained.isSome = d.process.drains spec copies)
      (hcode : d.process.code = none)
      (hturn : d.process.turn spec copies (turnEvent clock moments (d.drained.getD []) sendOk) = (q, handed)) :
      Acted spec copies clock d moment (.turn moments sendOk)
        { side := d.turned moments q, handed := if sendOk then handed else none }
  | faulted {failure : Failure} {packets : List Bytes} (hlater : d.last < moment) (hidle : d.drained = none)
      (hdrains : d.process.drains spec copies = true) (hroom : packets.length ≤ drainRoom) :
      Acted spec copies clock d moment (.fault failure packets)
        { side := { d with last := moment, process := d.process.fail failure }, room := drainRoom, taken := packets }
  | closed (hlater : d.last < moment) (hcode : d.process.code.isSome = true) (hopen : d.closed = none) :
      Acted spec copies clock d moment .close { side := { d with last := moment, closed := some moment } }

/-- An act that happens. -/
theorem acted {a : SimAct} {out : Outcome SimSide} (h : d.act spec copies clock moment a = some out) :
    Acted spec copies clock d moment a out := by
  unfold act at h
  cases a with
  | drain packets =>
    dsimp only at h
    split at h
    · rename_i hguard
      obtain ⟨hlater, hidle, hdrains, hroom⟩ := hguard
      obtain rfl := Option.some.inj h
      exact .drained hlater (Option.isNone_iff_eq_none.mp hidle) hdrains hroom
    · nomatch h
  | turn moments sendOk =>
    dsimp only at h
    split at h
    · rename_i hguard
      obtain ⟨hchain, hdrained, hcode⟩ := hguard
      obtain rfl := Option.some.inj h
      exact .turned hchain hdrained hcode rfl
    · nomatch h
  | fault failure packets =>
    dsimp only at h
    split at h
    · rename_i hguard
      obtain ⟨hlater, hidle, hdrains, hroom⟩ := hguard
      rw [Process.turn_fault hdrains] at h
      obtain rfl := Option.some.inj h
      exact .faulted hlater (Option.isNone_iff_eq_none.mp hidle) hdrains hroom
    · nomatch h
  | close =>
    dsimp only at h
    split at h
    · rename_i hguard
      obtain ⟨hlater, hcode, hopen⟩ := hguard
      obtain rfl := Option.some.inj h
      exact .closed hlater hcode (Option.isNone_iff_eq_none.mp hopen)
    · nomatch h

omit [Arith F64] in
/-- At a later moment the end is kept, also where only a reason or a sight of the vehicle's was added. -/
theorem Kept.of_same {ending : Ending} (h : Kept clock d) (d' : SimSide) (hlast : d.last ≤ d'.last)
    (hended : d'.ended = d.ended) (hending : d'.process.ending = ending) (hstanding : d'.process.Standing)
    (hreason : ∀ r, d.process.model.reason = some r → ending.reason = some r)
    (hseen : d.process.model.vehicleSeen.isSome = true → ending.seen.isSome = true)
    (hrest : ending = { d.process.ending with reason := ending.reason, seen := ending.seen }) :
    Kept clock d' ∧ Later d d' := by
  obtain ⟨reason, seen, source, before, after, cached⟩ := ending
  have hsame : d'.process.ending = { d.process.ending with reason, seen } := hending.trans hrest
  have hreason' : d'.process.model.reason = reason := congrArg Ending.reason hsame
  have hseen' : d'.process.model.vehicleSeen = seen := congrArg Ending.seen hsame
  have hsource : d'.process.terminationSource = d.process.terminationSource := congrArg Ending.source hsame
  have hbefore : d'.process.terminationBeforeNs = d.process.terminationBeforeNs := congrArg Ending.beforeNs hsame
  have hafter : d'.process.terminationNs = d.process.terminationNs := congrArg Ending.terminationNs hsame
  have hcached : d'.process.cachedTerminal = d.process.cachedTerminal := congrArg Ending.cached hsame
  have hlater : Later d d' :=
    ⟨hlast, fun r hr => hreason'.trans (hreason r hr), fun x hx => hsource.trans hx, fun x hx => hended.trans hx,
      fun f hf => hcached.trans hf⟩
  refine ⟨⟨hstanding, fun hnone => ?_, fun source hsome => ?_, fun data hdata => ?_, fun hvehicle => ?_⟩, hlater⟩
  · obtain ⟨hspan, hbeforeNs, hafterNs⟩ := h.unended (hsource.symm.trans hnone)
    exact ⟨hended.trans hspan, hbefore.trans hbeforeNs, hafter.trans hafterNs⟩
  · obtain ⟨span, hspan, hfirst, hsecond, hthird, hbeforeNs, hafterNs⟩ := h.interval source (hsource.symm.trans hsome)
    exact ⟨span, hended.trans hspan, hfirst, hsecond, hthird.trans_le hlast, hbefore.trans hbeforeNs,
      hafter.trans hafterNs⟩
  · obtain ⟨reason, span, hover, hannounces⟩ := h.cached data (hcached.symm.trans hdata)
    exact ⟨reason, span, hover.later hlater, hannounces⟩
  · rw [hseen']
    exact hseen (h.told (hsource.symm.trans hvehicle))

/-- What an act of the simulator does to the end: what is kept stays kept, what is handed is ordinary or tells of the
end, and a sight of the vehicle's end comes from what was drained, before the end that it brings. -/
structure Advanced (clock : ℕ → ℤ) (moment : ℕ) (d : SimSide) (out : Outcome SimSide) : Prop where
  kept : Kept clock out.side
  later : Later d out.side
  after : d.last < moment ∧ moment ≤ out.side.last
  handed : ∀ f ∈ out.handed, (∀ g, (Datagram.mk f false).frame = .ok g → g.terminal = false) ∨
    ∃ reason span, out.side.Over reason span f ∧ span.after < moment
  seen : ∀ r, out.side.process.model.vehicleSeen = some r →
    d.process.model.vehicleSeen = some r ∧
      (out.side.process.terminationSource = some .vehicle → d.process.terminationSource = some .vehicle) ∨
    ∃ packets, d.drained = some packets ∧ Tells packets r ∧
      (out.side.process.terminationSource = some .vehicle → ∀ span, out.side.ended = some span → d.last < span.before)
  drained : ∀ packets, out.side.drained = some packets → d.drained = some packets ∨ packets = out.taken

section Turn

variable {moments : TurnMoments} {sendOk : Bool} {q : Process} {handed : Option Bytes}

omit [Arith F64] in
/-- The moments of a turn, in order. -/
theorem inOrder_turn (h : moments.InOrder d.last moment) :
    d.last < moments.receiveStarted ∧
      (moments.receiveStarted < moments.heard ∧ moments.heard < moments.receiveEnded ∧ moments.receiveEnded < moment) ∧
      (moments.advanceStarted < moments.advanced ∧ moments.advanced < moments.advanceEnded ∧
        moments.advanceEnded < moment) ∧
      moment < moments.last := by
  simp only [TurnMoments.InOrder, List.isChain_cons_cons, List.isChain_singleton, and_true] at h
  omega

omit [Arith F64] in
/-- A turn that leaves the side that ended the run keeps its interval. -/
theorem Kept.ended_turned (h : Kept clock d) (hsource : q.terminationSource = d.process.terminationSource) :
    (d.turned moments q).ended = d.ended := by
  unfold turned
  dsimp only
  rw [hsource]
  cases hnone : d.process.terminationSource with
  | none =>
    rw [(h.unended hnone).1]
    rfl
  | some source =>
    obtain ⟨span, hspan, -⟩ := h.interval source hnone
    rw [hspan]
    rfl

omit [Arith F64] in
/-- A turn that brings the end notes its interval. -/
theorem Kept.ended_new (h : Kept clock d) (hopen : d.process.ending = {}) :
    (d.turned moments q).ended = moments.ended q.terminationSource := by
  unfold turned
  rw [(h.unended (congrArg Ending.source hopen)).1]
  rfl

omit [Arith F64] in
/-- What tells of the vehicle's end in a turn was drained. -/
theorem drained_of_tells {packets : List Bytes} {r : ℕ}
    (hpackets : (turnEvent clock moments (d.drained.getD []) sendOk).drained = .ok packets) (htells : Tells packets r) :
    d.drained = some packets := by
  have hsame : d.drained.getD [] = packets := Except.ok.inj hpackets
  obtain ⟨data, hmem, -⟩ := htells
  cases hd : d.drained with
  | none =>
    rw [hd] at hsame
    rw [← hsame] at hmem
    nomatch hmem
  | some packets' =>
    rw [hd] at hsame
    exact congrArg some hsame

/-- A turn that leaves the end, but for a reason or a sight of the vehicle's. -/
theorem Kept.turn_quiet {seen : Option ℕ} {reason : Option SimReason} (h : Kept clock d)
    (horder : moments.InOrder d.last moment) (hdrained : d.drained.isSome = d.process.drains spec copies)
    (hstanding : q.Standing) (hending : q.ending = { d.process.ending with seen, reason })
    (hseen : seen = d.process.model.vehicleSeen ∨ ∃ packets r,
      (turnEvent clock moments (d.drained.getD []) sendOk).drained = .ok packets ∧ seen = some r ∧ Tells packets r)
    (hreason : d.process.ReasonFrom reason) : Advanced clock moment d { side := d.turned moments q } := by
  obtain ⟨hstarted, ⟨hheard, hended, hdone⟩, -, hlast⟩ := inOrder_turn horder
  have hpast : d.last < moment := by omega
  have hsource : q.terminationSource = d.process.terminationSource := congrArg Ending.source hending
  have hsame : q.model.vehicleSeen = seen := congrArg Ending.seen hending
  have hkeeps : ∀ r, d.process.model.reason = some r → reason = some r := by
    intro r hr
    rcases hreason with hsame | ⟨hnone, -⟩
    · exact hsame.trans hr
    · nomatch hnone.symm.trans hr
  have hsights : d.process.model.vehicleSeen.isSome = true → seen.isSome = true := by
    intro hs
    rcases hseen with hsame | ⟨packets, r, -, hsome, -⟩
    · exact (congrArg Option.isSome hsame).trans hs
    · exact congrArg Option.isSome hsome
  obtain ⟨hkept, hlater⟩ := h.of_same (d.turned moments q) (hpast.trans hlast).le (h.ended_turned hsource) hending
    hstanding hkeeps hsights rfl
  refine ⟨hkept, hlater, ⟨hpast, hlast.le⟩, nofun, fun r hr => ?_, nofun⟩
  rcases hseen with hseen | ⟨packets, r', hpackets, hsome, htells⟩
  · exact .inl ⟨hseen.symm.trans (hsame.symm.trans hr), fun hvehicle => hsource.symm.trans hvehicle⟩
  · obtain rfl : r' = r := Option.some.inj (hsome.symm.trans (hsame.symm.trans hr))
    have hdrains := drained_of_tells hpackets htells
    refine .inr ⟨packets, hdrains, htells, fun hvehicle => ?_⟩
    rw [hdrains] at hdrained
    exact absurd (hsource.symm.trans hvehicle) (h.standing.not_vehicle hdrained.symm)

omit [Arith F64] in
/-- A turn that leaves the end as it is: what it hands is ordinary, or is the frame that tells of the end. -/
theorem Kept.turn_same (h : Kept clock d) (horder : moments.InOrder d.last moment) (hstanding : q.Standing)
    (hending : q.ending = d.process.ending)
    (hhanded : ∀ f ∈ handed, (∀ g, (Datagram.mk f false).frame = .ok g → g.terminal = false) ∨
      d.process.cachedTerminal = some f) :
    Advanced clock moment d { side := d.turned moments q, handed := if sendOk then handed else none } := by
  obtain ⟨hstarted, ⟨hheard, hended, hdone⟩, -, hlast⟩ := inOrder_turn horder
  have hpast : d.last < moment := by omega
  obtain ⟨hkept, hlater⟩ := h.of_same (d.turned moments q) (hpast.trans hlast).le
    (h.ended_turned (congrArg Ending.source hending)) hending hstanding (fun r hr => hr) (fun hs => hs) rfl
  refine ⟨hkept, hlater, ⟨hpast, hlast.le⟩, fun f hf => ?_,
    fun r hr => .inl ⟨(congrArg Ending.seen hending).symm.trans hr, (congrArg Ending.source hending).symm.trans⟩, nofun⟩
  cases sendOk with
  | false => nomatch hf
  | true =>
    refine (hhanded f hf).imp id fun hcached => ?_
    obtain ⟨reason, span, hover, -⟩ := h.cached f hcached
    obtain ⟨span', hspan', -, -, hbefore, -⟩ := h.interval _ hover.source
    obtain rfl := Option.some.inj (hspan'.symm.trans hover.ended)
    exact ⟨reason, span', hover.later hlater, hbefore.trans hpast⟩

omit [Arith F64] in
/-- After an end of which nothing was known before, everything known comes later. -/
theorem later_turned (hopen : d.process.ending = {}) (hended : d.ended = none) (hlast : d.last ≤ moments.last) :
    Later d (d.turned moments q) where
  last := hlast
  reason r hr := absurd (hr.symm.trans (congrArg Ending.reason hopen)) (Option.some_ne_none r)
  source x hx := absurd (hx.symm.trans (congrArg Ending.source hopen)) (Option.some_ne_none x)
  ended x hx := absurd (hx.symm.trans hended) (Option.some_ne_none x)
  cached f hf := absurd (hf.symm.trans (congrArg Ending.cached hopen)) (Option.some_ne_none f)

omit [Arith F64] in
/-- A turn that hears of the vehicle's end. -/
theorem Kept.turn_told {packets : List Bytes} {r : ℕ} (h : Kept clock d) (horder : moments.InOrder d.last moment)
    (hstanding : q.Standing) (hopen : d.process.ending = {})
    (hending : q.ending =
      ⟨some .vehicleTerminal, some r, some .vehicle, clock moments.receiveStarted, clock moments.receiveEnded, none⟩)
    (hpackets : d.drained = some packets) (htells : Tells packets r) :
    Advanced clock moment d { side := d.turned moments q } := by
  obtain ⟨hstarted, ⟨hheard, hended, hdone⟩, -, hlast⟩ := inOrder_turn horder
  have hpast : d.last < moment := by omega
  have hsource : q.terminationSource = some .vehicle := congrArg Ending.source hending
  have hspan : (d.turned moments q).ended = some ⟨moments.receiveStarted, moments.heard, moments.receiveEnded⟩ := by
    rw [h.ended_new hopen, hsource]
    rfl
  have hseen : q.model.vehicleSeen = some r := congrArg Ending.seen hending
  have hcached : q.cachedTerminal = none := congrArg Ending.cached hending
  have hlater : Later d (d.turned moments q) :=
    later_turned hopen (h.unended (congrArg Ending.source hopen)).1 (hpast.trans hlast).le
  refine ⟨⟨hstanding, fun hnone => ?_, fun source hsome => ⟨_, hspan, hheard, hended, hdone.trans hlast,
    congrArg Ending.beforeNs hending, congrArg Ending.terminationNs hending⟩, fun data hdata => ?_, fun _ => ?_⟩,
    hlater, ⟨hpast, hlast.le⟩, nofun, fun r' hr => ?_, nofun⟩
  · nomatch hsource.symm.trans hnone
  · nomatch hcached.symm.trans hdata
  · exact congrArg Option.isSome hseen
  · obtain rfl : r = r' := Option.some.inj (hseen.symm.trans hr)
    refine .inr ⟨packets, hpackets, htells, fun _ span hsome => ?_⟩
    obtain rfl := Option.some.inj (hspan.symm.trans hsome)
    exact hstarted

omit [Arith F64] in
/-- A turn in which the simulator ends the run. -/
theorem Kept.turn_ended {reason : SimReason} {cached : Option Bytes} (h : Kept clock d)
    (horder : moments.InOrder d.last moment) (hstanding : q.Standing) (hopen : d.process.ending = {})
    (hending : q.ending =
      ⟨some reason, none, some .simulator, clock moments.advanceStarted, clock moments.advanceEnded, cached⟩)
    (hframe : ∀ f, cached = some f → Announces f reason) (hhanded : ∀ f ∈ handed, cached = some f) :
    Advanced clock moment d { side := d.turned moments q, handed := if sendOk then handed else none } := by
  obtain ⟨hstarted, ⟨hheard, hended, hdone⟩, ⟨hbegun, hadvanced, hsent⟩, hlast⟩ := inOrder_turn horder
  have hpast : d.last < moment := by omega
  have hsource : q.terminationSource = some .simulator := congrArg Ending.source hending
  have hspan : (d.turned moments q).ended = some ⟨moments.advanceStarted, moments.advanced, moments.advanceEnded⟩ := by
    rw [h.ended_new hopen, hsource]
    rfl
  have hover {data : Bytes} (hdata : cached = some data) :
      (d.turned moments q).Over reason ⟨moments.advanceStarted, moments.advanced, moments.advanceEnded⟩ data :=
    ⟨congrArg Ending.reason hending, hsource, hspan, (congrArg Ending.cached hending).trans hdata⟩
  have hlater : Later d (d.turned moments q) :=
    later_turned hopen (h.unended (congrArg Ending.source hopen)).1 (hpast.trans hlast).le
  refine ⟨⟨hstanding, fun hnone => ?_, fun source hsome => ⟨_, hspan, hbegun, hadvanced, hsent.trans hlast,
    congrArg Ending.beforeNs hending, congrArg Ending.terminationNs hending⟩, fun data hdata => ?_, fun hvehicle => ?_⟩,
    hlater, ⟨hpast, hlast.le⟩, fun f hf => .inr ?_, fun r hr => ?_, nofun⟩
  · nomatch hsource.symm.trans hnone
  · have hdata : cached = some data := (congrArg Ending.cached hending).symm.trans hdata
    exact ⟨reason, _, hover hdata, hframe data hdata⟩
  · nomatch hsource.symm.trans hvehicle
  · cases sendOk with
    | false => nomatch hf
    | true => exact ⟨reason, _, hover (hhanded f hf), hsent⟩
  · nomatch (congrArg Ending.seen hending).symm.trans hr

/-- A turn. -/
theorem Kept.turn (h : Kept clock d) (horder : moments.InOrder d.last moment)
    (hdrained : d.drained.isSome = d.process.drains spec copies)
    (hturn : d.process.turn spec copies (turnEvent clock moments (d.drained.getD []) sendOk) = (q, handed)) :
    Advanced clock moment d { side := d.turned moments q, handed := if sendOk then handed else none } := by
  obtain ⟨hturned, hstanding⟩ := Process.turn_ending hturn h.standing
  have hnone : (if sendOk then none else none : Option Bytes) = none := ite_self none
  generalize hending : q.ending = ending at hturned
  cases hturned with
  | quiet hseen hreason =>
    rw [hnone]
    exact h.turn_quiet horder hdrained hstanding hending hseen hreason
  | @ordinary tick truth handed hopen _ _ hframe =>
    refine h.turn_same horder hstanding (hending.trans hopen.symm) fun f hf => .inl ?_
    exact ordinary_frameOf (o := observe tick truth) (hframe f hf)
  | told hopen hpackets htells =>
    rw [hnone]
    exact h.turn_told horder hstanding hopen hending (drained_of_tells hpackets htells) htells
  | @ended k truth reason cached handed hopen hphase hreason hframe hhanded =>
    exact h.turn_ended horder hstanding hopen hending
      (fun f hf => announces_frameOf (o := observe (k + 1) truth) (hframe f hf)) hhanded
  | repeated hhanded => exact h.turn_same horder hstanding hending fun f hf => .inr (hhanded f hf)

end Turn

/-- An act of the simulator. -/
theorem Kept.act {a : SimAct} {out : Outcome SimSide} (h : Kept clock d)
    (hact : d.act spec copies clock moment a = some out) : Advanced clock moment d out := by
  cases acted hact with
  | drained hlater hidle hdrains hroom =>
    obtain ⟨hkept, hlast⟩ := h.of_same { d with last := moment, drained := some _ } hlater.le rfl rfl h.standing
      (fun r hr => hr) (fun hs => hs) rfl
    exact ⟨hkept, hlast, ⟨hlater, le_rfl⟩, nofun, fun r hr => .inl ⟨hr, id⟩,
      fun packets hp => .inr (Option.some.inj hp).symm⟩
  | closed hlater hcode hopen =>
    obtain ⟨hkept, hlast⟩ := h.of_same { d with last := moment, closed := some moment } hlater.le rfl rfl h.standing
      (fun r hr => hr) (fun hs => hs) rfl
    exact ⟨hkept, hlast, ⟨hlater, le_rfl⟩, nofun, fun r hr => .inl ⟨hr, id⟩, fun packets hp => .inl hp⟩
  | @faulted failure packets hlater hidle hdrains hroom =>
    obtain ⟨reason, hreason, hending⟩ := d.process.fail_ending failure
    have hkeeps : ∀ r, d.process.model.reason = some r → reason = some r := by
      intro r hr
      rcases hreason with hsame | ⟨hnone, -⟩
      · exact hsame.trans hr
      · nomatch hnone.symm.trans hr
    obtain ⟨hkept, hlast⟩ := h.of_same { d with last := moment, process := d.process.fail failure } hlater.le rfl
      hending (Process.standing_finished (d.process.fail_phase failure)) hkeeps (fun hs => hs) rfl
    have hseen : (d.process.fail failure).model.vehicleSeen = d.process.model.vehicleSeen :=
      congrArg Ending.seen hending
    have hsource : (d.process.fail failure).terminationSource = d.process.terminationSource :=
      congrArg Ending.source hending
    refine ⟨hkept, hlast, ⟨hlater, le_rfl⟩, nofun, fun r hr => .inl ⟨hseen.symm.trans hr, hsource.symm.trans⟩,
      fun packets hp => ?_⟩
    nomatch hidle.symm.trans hp
  | turned horder hdrained hcode hturn => exact h.turn horder hdrained hturn

end SimSide

end Tvc.Freerun
