import Tvc.Freerun.Process
import Tvc.Freerun.Simulator

/-!
# The free-run pair and the air between

The two processes run side by side. What each hands to its socket goes into the air, and what each takes comes out of
it; a way through the air may lose, repeat, delay and reorder frames, but brings nothing that was not sent. Each side
takes what has arrived at one moment of its cycle and sends at a later one, and the other side may act in between.
Moments are numbers in the order in which things happen. A side reads its clock between them, and after a send before
it does anything else; what it reads are values of its clock at these moments.
-/

namespace Tvc.Freerun

/-- One way through the air: what was sent, and what was taken, in order. -/
structure Way where
  sent : List Bytes := []
  taken : List Bytes := []

/-- A moment, and the moments at which a clock was read before and after it. -/
structure Span where
  before : ℕ
  moment : ℕ
  after : ℕ
  deriving DecidableEq

/-- What one side comes to by an act: what it took, where there was room for so much, and what it handed to the air. -/
structure Outcome (σ : Type) where
  side : σ
  room : ℕ := 0
  taken : List Bytes := []
  handed : Option Bytes := none

/-! ## The vehicle -/

/-- A receive call of the running cycle, with the sleep before it and the moment of waking. -/
structure Polled where
  sleepError : ℕ
  woke : ℕ
  received : Except ℕ Batch

/-- The vehicle: the moment of its last reading, those at which it opened and closed the receiving, its scheduled
cycles once it has an origin, the receive call of the running cycle, the end, and the copies of its reply. -/
structure VehicleSide where
  last : ℕ := 0
  opened : ℕ := 0
  flight : Option (Origin × Loop) := none
  polled : Option Polled := none
  ended : Option Span := none
  closed : Option ℕ := none
  copies : ℕ := 0
  finished : Bool := false

/-- The moments of a cycle after its receive call. -/
structure CycleMoments where
  rx : ℕ
  started : ℕ
  stepped : ℕ
  terminated : ℕ
  beforeSend : ℕ
  tx : ℕ
  done : ℕ

/-- The moments of a cycle lie after the last one and around that of the send. -/
def CycleMoments.InOrder (moments : CycleMoments) (last sent : ℕ) : Prop :=
  [last, moments.rx, moments.started, moments.stepped, moments.terminated, moments.beforeSend, sent, moments.tx,
    moments.done].IsChain (· < ·)

instance (moments : CycleMoments) (last sent : ℕ) : Decidable (moments.InOrder last sent) :=
  inferInstanceAs (Decidable (List.IsChain _ _))

/-- What the vehicle does: it takes its first frame; a sleep fails; it takes what has arrived; it runs the cycle and
sends; it closes the receiving; it sends a copy; it ends. -/
inductive VehicleAct
  | listen (opened arrival : ℕ) (frame : Bytes)
  | oversleep (sleepError : ℕ)
  | poll (sleepError woke : ℕ) (received : Except ℕ Batch)
  | cycle (moments : CycleMoments) (stop sent pushed : Bool)
  | close
  | copy (sent : Bool) (tx : ℕ)
  | quit (e : CopyEvent)

/-- The frames of a receive call. -/
def framesOf : Except ℕ Batch → List Bytes
  | .error _ => []
  | .ok batch => batch.datagrams.map Datagram.bytes

/-- No datagram of a receive call was cut short. -/
def whole : Except ℕ Batch → Bool
  | .error _ => true
  | .ok batch => batch.datagrams.all fun d => !d.truncated

/-- The event of a cycle, with what the clock shows at its moments. -/
def Polled.event (polled : Polled) (clock : ℕ → ℤ) (moments : CycleMoments) (stop sent pushed : Bool) : BodyEvent where
  sleepError := polled.sleepError
  wokeNs := clock polled.woke
  rxNs := clock moments.rx
  policyStartedNs := clock moments.started
  terminatedNs := clock moments.terminated
  beforeSendNs := clock moments.beforeSend
  txNs := clock moments.tx
  doneNs := clock moments.done
  received := polled.received
  stop
  sent
  pushed

/-- The event of a cycle whose sleep fails. -/
def overslept (sleepError : ℕ) : BodyEvent where
  sleepError
  wokeNs := 0
  rxNs := 0
  policyStartedNs := 0
  terminatedNs := 0
  beforeSendNs := 0
  txNs := 0
  doneNs := 0
  received := .error EAGAIN
  stop := false
  sent := false
  pushed := false

/-- The loop of the scheduled cycles goes on. -/
def Loop.goesOn (cfg : Config) (x : Loop) : Bool := x.running && decide (x.n < cfg.total)

/-- A sleep that lets the cycle go on. -/
def slept (sleepError : ℕ) : Bool := sleepError == 0 || sleepError == EINTR

variable [Arith F64]

namespace VehicleSide

omit [Arith F64] in
/-- The vehicle after a cycle, with the interval of the end that the cycle may have brought. -/
def cycled (v : VehicleSide) (moments : CycleMoments) (o : Origin) (y : Loop) : VehicleSide :=
  { v with
    last := moments.done
    flight := some (o, y)
    polled := none
    ended := if y.running then v.ended else some ⟨moments.started, moments.stepped, moments.terminated⟩ }

/-- An act of the vehicle at a moment, if it can happen. -/
def act (cfg : RunConfig) (clock : ℕ → ℤ) (v : VehicleSide) (moment : ℕ) : VehicleAct → Option (Outcome VehicleSide)
  | .listen opened arrival frame =>
    match v.flight, originOf cfg (.ok ⟨frame, false⟩) true (clock arrival) with
    | none, some o =>
      if v.last < opened ∧ opened < moment ∧ moment < arrival ∧ o.fits cfg = true then
        some
          { side := { v with last := arrival, opened, flight := some (o, .initial cfg.toConfig o.tickBase o.origin) }
            room := 1
            taken := [frame] }
      else none
    | _, _ => none
  | .oversleep sleepError =>
    match v.flight, v.polled with
    | some (o, x), none =>
      if v.last < moment ∧ x.goesOn cfg.toConfig = true ∧ slept sleepError = false then
        some { side := { v with last := moment, flight := some (o, x.body cfg.toConfig o.carry (overslept sleepError)) } }
      else none
    | _, _ => none
  | .poll sleepError woke received =>
    match v.flight, v.polled with
    | some (_, x), none =>
      if v.last < woke ∧ woke < moment ∧ x.goesOn cfg.toConfig = true ∧ slept sleepError = true ∧
          whole received = true then
        some
          { side := { v with last := moment, polled := some ⟨sleepError, woke, received⟩ }
            room := if received.toOption.isSome then kBatchSize else 0
            taken := framesOf received }
      else none
    | _, _ => none
  | .cycle moments stop sent pushed =>
    match v.flight, v.polled with
    | some (o, x), some polled =>
      if moments.InOrder v.last moment ∧ x.goesOn cfg.toConfig = true ∧ slept polled.sleepError = true then
        let y := x.body cfg.toConfig o.carry (polled.event clock moments stop sent pushed)
        some { side := v.cycled moments o y, handed := if sent then some y.r.reply else none }
      else none
    | _, _ => none
  | .close =>
    match v.flight, v.polled, v.closed with
    | some (_, x), none, none =>
      if v.last < moment ∧ x.goesOn cfg.toConfig = false then
        some { side := { v with last := moment, closed := some moment } }
      else none
    | _, _, _ => none
  | .copy sent tx =>
    match v.flight with
    | some (o, x) =>
      if v.last < moment ∧ moment < tx ∧ v.closed.isSome = true ∧ v.finished = false ∧ x.r.terminalCycle ≠ 0 ∧
          v.copies + 1 < cfg.terminalCopies then
        some
          { side :=
              { v with
                last := tx
                flight := some (o, { x with r := x.r.noteCopy ⟨false, 0, sent, clock tx⟩ })
                copies := v.copies + 1 }
            handed := if sent then some x.r.reply else none }
      else none
    | none => none
  | .quit e =>
    match v.flight with
    | some (_, x) =>
      if v.last < moment ∧ v.closed.isSome = true ∧ v.finished = false ∧
          (x.r.terminalCycle = 0 ∨ cfg.terminalCopies ≤ v.copies + 1 ∨ e.stop = true ∨ e.sleepError ≠ 0) then
        some { side := { v with last := moment, finished := true } }
      else none
    | none => none

end VehicleSide

/-! ## The simulator -/

/-- The simulator: the moment of its last reading, those at which it opened and closed the receiving, its process, the
packets it has drained in the running turn, and the end. -/
structure SimSide where
  last : ℕ
  opened : ℕ
  process : Process
  drained : Option (List Bytes) := none
  ended : Option Span := none
  closed : Option ℕ := none

/-- The moments of a turn after its drain. -/
structure TurnMoments where
  received : ℕ
  receiveStarted : ℕ
  heard : ℕ
  receiveEnded : ℕ
  advanceStarted : ℕ
  advanced : ℕ
  advanceEnded : ℕ
  sent : ℕ
  last : ℕ

/-- The moments of a turn lie after the last one and around that of the send. -/
def TurnMoments.InOrder (moments : TurnMoments) (last sent : ℕ) : Prop :=
  [last, moments.received, moments.receiveStarted, moments.heard, moments.receiveEnded, moments.advanceStarted,
    moments.advanced, moments.advanceEnded, moments.sent, sent, moments.last].IsChain (· < ·)

instance (moments : TurnMoments) (last sent : ℕ) : Decidable (moments.InOrder last sent) :=
  inferInstanceAs (Decidable (List.IsChain _ _))

/-- What the simulator does: it takes what has arrived; it goes through the turn and sends; a sleep or a receive call
raises, and what was taken is lost; it closes the receiving. -/
inductive SimAct
  | drain (packets : List Bytes)
  | turn (moments : TurnMoments) (sendOk : Bool)
  | fault (failure : Failure) (packets : List Bytes)
  | close

/-- The event of a turn, with what the clock shows at its moments. -/
def turnEvent (clock : ℕ → ℤ) (moments : TurnMoments) (drained : List Bytes) (sendOk : Bool) : SimEvent where
  slept := .ok ()
  drained := .ok drained
  receivedNs := clock moments.received
  receiveStartedNs := clock moments.receiveStarted
  receiveEndedNs := clock moments.receiveEnded
  advanceStartedNs := clock moments.advanceStarted
  advanceEndedNs := clock moments.advanceEnded
  sentNs := clock moments.sent
  lastNs := clock moments.last
  sendOk

/-- The event of a turn whose sleep or receive call raises. -/
def faultEvent (failure : Failure) : SimEvent where
  slept := .error failure
  drained := .error failure
  receivedNs := 0
  receiveStartedNs := 0
  receiveEndedNs := 0
  advanceStartedNs := 0
  advanceEndedNs := 0
  sentNs := 0
  lastNs := 0
  sendOk := false

/-- `drain` is called with eight receives. -/
def drainRoom : ℕ := 8

/-- The exit code of a process that has finished. -/
def Process.code (p : Process) : Option ℕ :=
  match p.phase with
  | .finished code => some code
  | _ => none

/-- A turn takes what has arrived, unless the run has not begun or is over. -/
def Process.drains (spec : Scenario F64) (terminalCopies : ℕ) (p : Process) : Bool :=
  match p.phase with
  | .prologue => false
  | .body k => k < spec.ticks - 1
  | .grace _ offset => offset < terminalCopies + graceTicks
  | .finished _ => false

/-- The moments of the end that a turn may have brought. -/
def TurnMoments.ended (moments : TurnMoments) : Option Source → Option Span
  | none => none
  | some .vehicle => some ⟨moments.receiveStarted, moments.heard, moments.receiveEnded⟩
  | some .simulator => some ⟨moments.advanceStarted, moments.advanced, moments.advanceEnded⟩

namespace SimSide

omit [Arith F64] in
/-- The simulator after a turn, with the interval of the end that the turn may have brought. -/
def turned (d : SimSide) (moments : TurnMoments) (q : Process) : SimSide :=
  { d with
    last := moments.last
    process := q
    drained := none
    ended := d.ended.or (moments.ended q.terminationSource) }

/-- An act of the simulator at a moment, if it can happen. -/
def act (spec : Scenario F64) (terminalCopies : ℕ) (clock : ℕ → ℤ) (d : SimSide) (moment : ℕ) :
    SimAct → Option (Outcome SimSide)
  | .drain packets =>
    if d.last < moment ∧ d.drained.isNone = true ∧ d.process.drains spec terminalCopies = true ∧
        packets.length ≤ drainRoom then
      some { side := { d with last := moment, drained := some packets }, room := drainRoom, taken := packets }
    else none
  | .turn moments sendOk =>
    if moments.InOrder d.last moment ∧ d.drained.isSome = d.process.drains spec terminalCopies ∧
        d.process.code = none then
      let turned := d.process.turn spec terminalCopies (turnEvent clock moments (d.drained.getD []) sendOk)
      some { side := d.turned moments turned.1, handed := if sendOk then turned.2 else none }
    else none
  | .fault failure packets =>
    if d.last < moment ∧ d.drained.isNone = true ∧ d.process.drains spec terminalCopies = true ∧
        packets.length ≤ drainRoom then
      some
        { side := { d with last := moment, process := (d.process.turn spec terminalCopies (faultEvent failure)).1 }
          room := drainRoom
          taken := packets }
    else none
  | .close =>
    if d.last < moment ∧ d.process.code.isSome = true ∧ d.closed.isNone = true then
      some { side := { d with last := moment, closed := some moment } }
    else none

end SimSide

/-! ## The pair -/

/-- What a pair is set up with: the two programs' options, the clocks, and what else a way through the air keeps
when so many frames can be taken and these are. -/
structure Setting where
  spec : Scenario F64
  seed : U64
  delayTicks : Fin 2
  copies : ℕ
  cfg : RunConfig
  vehicleClock : ℕ → ℤ
  simClock : ℕ → ℤ
  discipline : ℕ → Way → List Bytes → Bool

/-- The pair: what has happened up to a moment. -/
structure World where
  now : ℕ := 0
  up : Way := {}
  down : Way := {}
  vehicle : VehicleSide := {}
  sim : SimSide

/-- What happens in the pair. -/
inductive Act
  | vehicle (act : VehicleAct)
  | sim (act : SimAct)

/-- A way brings nothing that was not sent. -/
def Way.brings (s : Setting) (way : Way) (room : ℕ) (taken : List Bytes) : Bool :=
  decide (∀ frame ∈ taken, frame ∈ way.sent) && s.discipline room way taken

namespace Setting

/-- The pair before anything has happened; the simulator opens its receiving at a moment. -/
def start (s : Setting) (opened : ℕ) : Except Failure World :=
  (Process.initial s.spec s.seed s.delayTicks).map fun process => { sim := { last := opened, opened, process } }

/-- What an act makes of the pair at a later moment, if it can happen. -/
def step (s : Setting) (w : World) (moment : ℕ) (act : Act) : Option World :=
  if w.now < moment then
    match act with
    | .vehicle act =>
      (w.vehicle.act s.cfg s.vehicleClock moment act).bind fun out =>
        if w.up.brings s out.room out.taken then
          some
            { w with
              now := moment
              vehicle := out.side
              up.taken := w.up.taken ++ out.taken
              down.sent := w.down.sent ++ out.handed.toList }
        else none
    | .sim act =>
      (w.sim.act s.spec s.copies s.simClock moment act).bind fun out =>
        if w.down.brings s out.room out.taken then
          some
            { w with
              now := moment
              sim := out.side
              down.taken := w.down.taken ++ out.taken
              up.sent := w.up.sent ++ out.handed.toList }
        else none
  else none

/-- What acts make of the pair, if they can all happen. -/
def run (s : Setting) (w : World) : List (ℕ × Act) → Option World
  | [] => some w
  | (moment, act) :: rest => (s.step w moment act).bind fun w => s.run w rest

/-- What a step comes to: an act of one side, with what it took out of the air and put into it. -/
inductive Stepped (s : Setting) (w : World) (moment : ℕ) : Act → World → Prop
  | vehicle {a : VehicleAct} {out : Outcome VehicleSide}
      (hact : w.vehicle.act s.cfg s.vehicleClock moment a = some out)
      (hsent : ∀ frame ∈ out.taken, frame ∈ w.up.sent) (hkept : s.discipline out.room w.up out.taken = true) :
      Stepped s w moment (.vehicle a)
        { w with
          now := moment
          vehicle := out.side
          up.taken := w.up.taken ++ out.taken
          down.sent := w.down.sent ++ out.handed.toList }
  | sim {a : SimAct} {out : Outcome SimSide} (hact : w.sim.act s.spec s.copies s.simClock moment a = some out)
      (hsent : ∀ frame ∈ out.taken, frame ∈ w.down.sent) (hkept : s.discipline out.room w.down out.taken = true) :
      Stepped s w moment (.sim a)
        { w with
          now := moment
          sim := out.side
          down.taken := w.down.taken ++ out.taken
          up.sent := w.up.sent ++ out.handed.toList }

variable {s : Setting} {w w' : World} {moment : ℕ} {a : Act}

/-- A step that happens. -/
theorem stepped (h : s.step w moment a = some w') : w.now < moment ∧ Stepped s w moment a w' := by
  unfold step at h
  split at h
  · rename_i hlater
    refine ⟨hlater, ?_⟩
    cases a with
    | vehicle a =>
      obtain ⟨out, hact, hout⟩ := Option.bind_eq_some_iff.mp h
      split at hout
      · rename_i hbrings
        obtain ⟨hsent, hkept⟩ := Bool.and_eq_true_iff.mp hbrings
        obtain rfl := Option.some.inj hout
        exact .vehicle hact (of_decide_eq_true hsent) hkept
      · nomatch hout
    | sim a =>
      obtain ⟨out, hact, hout⟩ := Option.bind_eq_some_iff.mp h
      split at hout
      · rename_i hbrings
        obtain ⟨hsent, hkept⟩ := Bool.and_eq_true_iff.mp hbrings
        obtain rfl := Option.some.inj hout
        exact .sim hact (of_decide_eq_true hsent) hkept
      · nomatch hout
  · nomatch h

/-- What every step by an act of a kind keeps, acts of the kind keep. -/
theorem run_rule {P : World → Prop} {Q : Act → Prop}
    (hstep : ∀ w moment a w', Q a → P w → s.step w moment a = some w' → P w') {acts : List (ℕ × Act)}
    (hacts : ∀ act ∈ acts, Q act.2) (hfirst : P w) (hrun : s.run w acts = some w') : P w' := by
  induction acts generalizing w with
  | nil => exact Option.some.inj hrun ▸ hfirst
  | cons act acts ih =>
    obtain ⟨moment, a⟩ := act
    obtain ⟨next, hnext, hrest⟩ := Option.bind_eq_some_iff.mp hrun
    obtain ⟨hact, hlater⟩ := List.forall_mem_cons.mp hacts
    exact ih hlater (hstep w moment a next hact hfirst hnext) hrest

/-- What every step keeps, acts keep. -/
theorem run_keeps {P : World → Prop} (hstep : ∀ w moment a w', P w → s.step w moment a = some w' → P w')
    {acts : List (ℕ × Act)} (hfirst : P w) (hrun : s.run w acts = some w') : P w' :=
  run_rule (Q := fun _ => True) (fun w moment a w' _ => hstep w moment a w') (fun _ _ => trivial) hfirst hrun

/-- Acts after others. -/
theorem run_append (w : World) (past rest : List (ℕ × Act)) :
    s.run w (past ++ rest) = (s.run w past).bind fun w => s.run w rest := by
  induction past generalizing w with
  | nil => rfl
  | cons act past ih =>
    obtain ⟨moment, a⟩ := act
    show (s.step w moment a).bind _ = ((s.step w moment a).bind _).bind _
    rw [Option.bind_assoc]
    exact congrArg (Option.bind _) (funext fun next => ih next)

/-- The last of some acts. -/
theorem run_concat (w : World) (past : List (ℕ × Act)) (act : ℕ × Act) :
    s.run w (past ++ [act]) = (s.run w past).bind fun w => s.step w act.1 act.2 := by
  rw [run_append]
  refine congrArg (Option.bind _) (funext fun next => ?_)
  show (s.step next act.1 act.2).bind some = _
  exact Option.bind_fun_some _

/-- A run of the pair: acts that can happen after the start. -/
structure Run (s : Setting) where
  opened : ℕ
  first : World
  acts : List (ℕ × Act)
  world : World
  started : s.start opened = .ok first
  ran : s.run first acts = some world

/-- A run begins at the start. -/
theorem Run.begins {P : World → Prop} (r : s.Run)
    (hfirst : ∀ opened process, Process.initial s.spec s.seed s.delayTicks = .ok process →
      P { sim := { last := opened, opened, process } }) : P r.first := by
  have hstarted := r.started
  unfold start at hstarted
  cases hinitial : Process.initial s.spec s.seed s.delayTicks with
  | error failure =>
    rw [hinitial] at hstarted
    nomatch hstarted
  | ok process =>
    rw [hinitial] at hstarted
    obtain hsame := Except.ok.inj hstarted
    rw [← hsame]
    exact hfirst r.opened process hinitial

/-- What holds at the start and is kept by every step holds in every run. -/
theorem Run.keeps {P : World → Prop} (r : s.Run)
    (hfirst : ∀ opened process, Process.initial s.spec s.seed s.delayTicks = .ok process →
      P { sim := { last := opened, opened, process } })
    (hstep : ∀ w moment a w', P w → s.step w moment a = some w' → P w') : P r.world :=
  run_keeps hstep (r.begins hfirst) r.ran

end Setting

end Tvc.Freerun
