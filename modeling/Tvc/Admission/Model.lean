import Tvc.Datagram
import Tvc.Lib.RunningMax
import Tvc.Lib.Machine
import Mathlib.Logic.Function.Basic

/-!
# The admission of `src/freerun_admission.cpp`

The control thread hands every received sensor datagram of a cycle to `Admission`, which
refuses it, parks it for a later cycle, or lets it compete to be the cycle's sample. Ticks and
counters are natural numbers: the source compares and subtracts ticks only after testing their
order, and adds to the expected tick only before it grows past it.
-/

namespace Tvc

namespace Freerun

/-- `SensorClass`. -/
inductive SensorClass
  | malformed | nonfinite | duplicate | conflict | old | current | future | excessiveSkew
  deriving DecidableEq, Repr

/-- `Sample`. -/
structure Sample where
  tick : ℕ
  sendNs : U64
  theta : F64
  omega : F64
  deriving DecidableEq, Repr

/-- `Terminal`. -/
structure Terminal where
  tick : ℕ
  reason : U32
  deriving DecidableEq, Repr

/-- `AdmissionCounts`. -/
structure AdmissionCounts where
  received : ℕ := 0
  consumed : ℕ := 0
  old : ℕ := 0
  superseded : ℕ := 0
  nonfinite : ℕ := 0
  skewExcess : ℕ := 0
  duplicate : ℕ := 0
  conflict : ℕ := 0
  invalid : ℕ := 0
  futureExpired : ℕ := 0
  badSync : ℕ := 0
  badVersion : ℕ := 0
  badType : ℕ := 0
  badLength : ℕ := 0
  badCrc : ℕ := 0
  deriving DecidableEq, Repr

namespace AdmissionCounts

/-- `dispositions`: the nine places a received normal frame can end in. -/
def dispositions (c : AdmissionCounts) : ℕ :=
  c.consumed + c.old + c.superseded + c.nonfinite + c.skewExcess + c.duplicate + c.conflict +
    c.invalid + c.futureExpired

/-- `closes`. -/
def closes (c : AdmissionCounts) (initial final : ℕ) : Bool :=
  c.received + initial == c.dispositions + final

/-- `add`. -/
def add (a b : AdmissionCounts) : AdmissionCounts where
  received := a.received + b.received
  consumed := a.consumed + b.consumed
  old := a.old + b.old
  superseded := a.superseded + b.superseded
  nonfinite := a.nonfinite + b.nonfinite
  skewExcess := a.skewExcess + b.skewExcess
  duplicate := a.duplicate + b.duplicate
  conflict := a.conflict + b.conflict
  invalid := a.invalid + b.invalid
  futureExpired := a.futureExpired + b.futureExpired
  badSync := a.badSync + b.badSync
  badVersion := a.badVersion + b.badVersion
  badType := a.badType + b.badType
  badLength := a.badLength + b.badLength
  badCrc := a.badCrc + b.badCrc

end AdmissionCounts

/-- `TerminalCounts`. -/
structure TerminalCounts where
  receivedRaw : ℕ := 0
  duplicate : ℕ := 0
  conflict : ℕ := 0
  skewExcess : ℕ := 0
  futureExpired : ℕ := 0
  illegalReason : ℕ := 0
  deriving DecidableEq, Repr

/-- `Discard`. -/
structure Discard where
  kind : SensorClass
  sendNs : U64
  deriving DecidableEq, Repr

/-- `AdmissionCycle`; the list is the filled part of the source's nine discards. -/
@[ext] structure AdmissionCycle where
  fresh : Option Sample := none
  terminal : Option Terminal := none
  staleness : ℕ := 0
  rxCount : ℕ := 0
  discards : List Discard := []
  counts : AdmissionCounts := {}
  deriving DecidableEq, Repr

end Freerun

open Freerun

/-- The sample a frame carries. -/
def Frame.sample (f : Frame) : Sample := ⟨f.tick, f.fields.tSendNs, f.fields.theta, f.fields.omega⟩

/-- The terminal a frame announces. -/
def Frame.toTerminal (f : Frame) : Terminal := ⟨f.tick, f.fields.simReason⟩

namespace Freerun

/-- `Admission`. -/
@[ext] structure Admission where
  tickBase : ℕ
  warmup : ℕ
  expected : ℕ := 0
  cycles : ℕ := 0
  warmupOccupancy : Option ℕ := none
  lastNormalTick : Option ℕ := none
  skewMax : ℕ
  isOpen : Bool := false
  integrity : Bool := false
  valid : Bool
  future : ℕ → Option Frame := fun _ => none
  newestReceived : Option Frame := none
  due : Option Frame := none
  candidateFrame : Option Frame := none
  held : Option Sample := none
  terminalLatch : Option Frame := none
  terminalCandidate : Option Frame := none
  terminalSeen : List Frame := []
  cycle : AdmissionCycle := {}
  episode : AdmissionCounts := {}
  recorded : AdmissionCounts := {}
  terminalCounts : TerminalCounts := {}

namespace Admission

/-- `kMaxSkew`. -/
def kMaxSkew : ℕ := 64

/-- The constructor. -/
def initial (tickBase skewMax warmup : ℕ) : Admission where
  tickBase
  warmup
  skewMax
  valid := skewMax ≤ kMaxSkew
  integrity := !decide (skewMax ≤ kMaxSkew)

/-- `future_` as the source iterates over it. -/
def slots (s : Admission) : List (Option Frame) := (List.range (kMaxSkew + 1)).map s.future

/-- The parked frames, in slot order. -/
def parked (s : Admission) : List Frame := s.slots.filterMap id

/-- `future_parked`. -/
def futureParked (s : Admission) : ℕ := s.parked.countP fun f => !f.terminal

/-- `total_parked`. -/
def totalParked (s : Admission) : ℕ := s.parked.length

/-- Change the counts of the cycle. -/
def count (s : Admission) (change : AdmissionCounts → AdmissionCounts) : Admission :=
  { s with cycle := { s.cycle with counts := change s.cycle.counts } }

/-- Change the terminal counts. -/
def countTerminal (s : Admission) (change : TerminalCounts → TerminalCounts) : Admission :=
  { s with terminalCounts := change s.terminalCounts }

/-- `remember`. -/
def remember (s : Admission) (f : Frame) : Admission :=
  { s with newestReceived := RunningMax.pick Frame.tick s.newestReceived f }

/-- The frames `identity` looks through, in its order. -/
def known (s : Admission) (terminal : Bool) : List Frame :=
  s.newestReceived.toList ++ s.due.toList ++ s.parked ++ s.terminalCandidate.toList ++
    s.terminalLatch.toList ++ s.terminalSeen ++ if terminal then s.candidateFrame.toList else []

/-- `identity`. -/
def identity (s : Admission) (incoming : Frame) : Option Frame :=
  (s.known incoming.terminal).find? fun f => f.tick == incoming.tick

/-- `discard`. -/
def discard (s : Admission) (kind : SensorClass) (f : Frame) : Admission :=
  if s.cycle.discards.length == 9 then { s with integrity := true }
  else { s with cycle := { s.cycle with discards := s.cycle.discards ++ [⟨kind, f.fields.tSendNs⟩] } }

/-- `candidate`. -/
def candidate (s : Admission) (f : Frame) : Admission :=
  match s.candidateFrame with
  | none => { s with candidateFrame := some f }
  | some c =>
    let s := s.count fun counts => { counts with superseded := counts.superseded + 1 }
    if c.tick < f.tick then { s.discard .current c with candidateFrame := some f }
    else s.discard .current f

/-- `terminal`. -/
def terminal (s : Admission) (f : Frame) : Admission :=
  let s :=
    if f.illegalReason then
      { s.countTerminal fun c => { c with illegalReason := c.illegalReason + 1 } with integrity := true }
    else s
  if s.terminalLatch.isNone then
    { s with terminalCandidate := RunningMax.pick Frame.tick s.terminalCandidate f }
  else s

/-- `expire`. -/
def expire (s : Admission) (f : Frame) : Admission :=
  let s := { s with integrity := true }
  if f.terminal then s.countTerminal fun c => { c with futureExpired := c.futureExpired + 1 }
  else s.count fun c => { c with futureExpired := c.futureExpired + 1 }

/-- One slot of the loop of `begin_cycle`, with the slots filled so far. -/
def shiftSlot (expected : ℕ) (acc : Admission × (ℕ → Option Frame)) (slot : Option Frame) :
    Admission × (ℕ → Option Frame) :=
  match slot with
  | none => acc
  | some f =>
    if f.tick < expected then (acc.1.expire f, acc.2)
    else if f.tick == expected then
      let s := { acc.1 with due := some f }
      (if f.terminal then s.terminal f else s.candidate f, acc.2)
    else
      let distance := f.tick - expected
      if acc.1.skewMax < distance then (acc.1.expire f, acc.2)
      else (acc.1, Function.update acc.2 (distance - 1) (some f))

/-- The state in which the loop of `begin_cycle` starts. -/
def openCycle (s : Admission) (expected : ℕ) : Admission :=
  { s with
    integrity := s.integrity || (s.cycles != 0 && expected != s.expected + 1)
    warmupOccupancy := if s.cycles == s.warmup then some s.futureParked else s.warmupOccupancy
    expected
    isOpen := true
    cycle := {}
    candidateFrame := none
    due := none
    terminalCandidate := none
    terminalSeen := [] }

/-- `begin_cycle`. -/
def beginCycle (s : Admission) (expected : ℕ) : Admission × Bool :=
  if !s.valid || s.isOpen then ({ s with integrity := true }, false)
  else if (s.cycles == 0 && expected != s.tickBase) || (s.cycles != 0 && expected ≤ s.expected) then
    ({ s with integrity := true }, false)
  else
    let shifted := s.slots.foldl (shiftSlot expected) (s.openCycle expected, fun _ => none)
    ({ shifted.1 with future := shifted.2 }, true)

/-- The counter of a refused datagram. -/
def countMalformed (c : AdmissionCounts) : Telem.DatagramError → AdmissionCounts
  | .badSync => { c with badSync := c.badSync + 1 }
  | .badVersion => { c with badVersion := c.badVersion + 1 }
  | .badType => { c with badType := c.badType + 1 }
  | .badLength => { c with badLength := c.badLength + 1 }
  | .badCrc => { c with badCrc := c.badCrc + 1 }

/-- A datagram without a frame. -/
def malformed (s : Admission) (e : Telem.DatagramError) : Admission :=
  { s.count (countMalformed · e) with integrity := true }

/-- The newest normal tick after another normal frame. -/
def laterTick (last : Option ℕ) (tick : ℕ) : Option ℕ :=
  match last with
  | none => some tick
  | some last => if last < tick then some tick else some last

/-- The counts and the newest normal tick of an accepted frame. -/
def arrive (s : Admission) (f : Frame) : Admission :=
  if f.terminal then s.countTerminal fun c => { c with receivedRaw := c.receivedRaw + 1 }
  else
    { s.count fun c => { c with received := c.received + 1 } with
      lastNormalTick := laterTick s.lastNormalTick f.tick }

/-- Note a terminal frame among those seen in this cycle. -/
def see (s : Admission) (f : Frame) : Admission :=
  if f.terminal then { s with terminalSeen := s.terminalSeen ++ [f] } else s

/-- A frame whose tick is already known, by its first match. -/
def settleIdentity (s : Admission) (f prior : Frame) : Admission × SensorClass :=
  let duplicate := prior.payload == f.payload
  let s :=
    if f.terminal then
      s.countTerminal fun c =>
        if duplicate then { c with duplicate := c.duplicate + 1 }
        else { c with conflict := c.conflict + 1 }
    else
      s.count fun c =>
        if duplicate then { c with duplicate := c.duplicate + 1 }
        else { c with conflict := c.conflict + 1 }
  let s := if !duplicate then { s with integrity := true } else s
  let s :=
    if duplicate && f.terminal then
      let s := s.see f
      if f.tick ≤ s.expected then s.terminal f else s
    else s
  (s, if duplicate then .duplicate else .conflict)

/-- A frame whose tick is not known. -/
def place (s : Admission) (f : Frame) : Admission × SensorClass :=
  let s := (s.see f).remember f
  if !f.terminal && s.held.any fun held => f.tick ≤ held.tick then
    ((s.count fun c => { c with old := c.old + 1 }).discard .old f, .old)
  else if f.tick ≤ s.expected then (if f.terminal then s.terminal f else s.candidate f, .current)
  else
    let distance := f.tick - s.expected
    if distance ≤ s.skewMax then
      ({ s with future := Function.update s.future (distance - 1) (some f) }, .future)
    else
      let s :=
        if f.terminal then s.countTerminal fun c => { c with skewExcess := c.skewExcess + 1 }
        else (s.count fun c => { c with skewExcess := c.skewExcess + 1 }).discard .excessiveSkew f
      ({ s with integrity := true }, .excessiveSkew)

/-- A usable sample must be finite; a terminal envelope is not a sample. -/
def nonfinite (f : Frame) : Bool := !f.terminal && f.valid && !f.finite

/-- `receive` from the decoded frame on. -/
def receiveFrame (s : Admission) (f : Frame) : Admission × SensorClass :=
  let s := s.arrive f
  if nonfinite f then
    (((s.count fun c => { c with nonfinite := c.nonfinite + 1 }).discard .nonfinite f).remember f,
      .nonfinite)
  else match s.identity f with
  | some prior => s.settleIdentity f prior
  | none => s.place f

/-- The number of datagrams a cycle takes. -/
def batchCap (s : Admission) : ℕ := if s.cycles == 0 then 9 else 8

/-- Count a datagram against the cap. -/
def countRx (s : Admission) : Admission :=
  { s with cycle := { s.cycle with rxCount := s.cycle.rxCount + 1 } }

/-- `receive`. -/
def receive (s : Admission) (d : Datagram) : Admission × Option SensorClass :=
  if !s.isOpen || s.batchCap ≤ s.cycle.rxCount then ({ s with integrity := true }, none)
  else match d.frame with
  | .error e => (s.countRx.malformed e, some .malformed)
  | .ok f => ((s.countRx.receiveFrame f).1, some (s.countRx.receiveFrame f).2)

/-- The sample the candidate of the cycle gives up, if it is valid. -/
def consume (s : Admission) : Admission :=
  match s.candidateFrame with
  | none => s
  | some c =>
    if c.valid then
      { s.count fun counts => { counts with consumed := counts.consumed + 1 } with
        held := some c.sample
        cycle.fresh := some c.sample }
    else s.count fun counts => { counts with invalid := counts.invalid + 1 }

/-- `age` of `finish_cycle`: the cycles since the held sample, or since the start. -/
def age (s : Admission) : ℕ :=
  match s.held with
  | some held => s.expected - held.tick
  | none => s.cycles + 1

/-- `finish_cycle`; the result is the field `cycle`. -/
def finishCycle (s : Admission) : Admission :=
  if !s.isOpen then s
  else
    let s := s.consume
    let terminalLatch := if s.terminalLatch.isNone then s.terminalCandidate else s.terminalLatch
    { s with
      terminalLatch
      cycle.terminal := terminalLatch.map Frame.toTerminal
      cycle.staleness := min s.age 4294967295
      episode := s.episode.add s.cycle.counts
      recorded := if s.warmup ≤ s.cycles then s.recorded.add s.cycle.counts else s.recorded
      cycles := s.cycles + 1
      isOpen := false }

/-- `identities_hold`. -/
def identitiesHold (s : Admission) : Bool :=
  !s.isOpen && s.episode.closes 0 s.futureParked &&
    (s.cycles ≤ s.warmup || s.recorded.closes (s.warmupOccupancy.getD 0) s.futureParked)

/-! ## The API as a machine -/

/-- A call of the public interface. -/
inductive Call
  | beginCycle (expected : ℕ)
  | receive (datagram : Datagram)
  | finishCycle

/-- What a call returns. -/
inductive Answer
  | began (ok : Bool)
  | classified (kind : Option SensorClass)
  | finished (cycle : AdmissionCycle)
  deriving DecidableEq

/-- One call. -/
def call (s : Admission) : Call → Admission × Answer
  | .beginCycle expected => ((s.beginCycle expected).1, .began (s.beginCycle expected).2)
  | .receive d => ((s.receive d).1, .classified (s.receive d).2)
  | .finishCycle => (s.finishCycle, .finished s.finishCycle.cycle)

/-- The state after a sequence of calls on a new object. -/
def after (tickBase skewMax warmup : ℕ) (calls : List Call) : Admission :=
  (Machine.run call (initial tickBase skewMax warmup) calls).1

/-- The states the object can be in. -/
def Reachable (s : Admission) : Prop :=
  ∃ tickBase skewMax warmup calls, s = after tickBase skewMax warmup calls

end Admission

end Freerun

end Tvc
