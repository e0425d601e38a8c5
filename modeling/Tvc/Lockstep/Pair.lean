import Mathlib.Logic.Relation
import Tvc.Lockstep.Session
import Tvc.Lockstep.Simulator

/-!
# The lockstep pair

The vehicle's run loop of `src/lockstep.cpp` and the simulator, over a network that carries
datagrams uncorrupted but may lose, duplicate, delay and reorder them, and may fail any send. A
datagram once sent can be delivered at any later time, any number of times, or never.
-/

namespace Tvc.Lockstep

variable [Arith F64]

/-- The vehicle process: the session, whether the loop still runs, and the records it has
presented to the ring, with the ring's count of those it could not take. -/
structure Vehicle where
  session : Session
  running : Bool := true
  records : List Telem.ControlRecord := []
  drops : ℕ := 0

namespace Vehicle

/-- The vehicle as it starts. -/
def initial (autoArm : Bool) : Vehicle := { session := .initial autoArm }

/-- A datagram in the loop of `run`, and the reply if one is sent: `sent` is what becomes of the
send and `pushed` what becomes of the record. -/
def receive (v : Vehicle) (d : Datagram) (sent pushed : Bool) : Vehicle × Option Bytes :=
  let (session, kind) := v.session.receive d
  match kind with
  | .fatal => ({ v with session, running := false }, none)
  | .discard => ({ v with session }, none)
  | .cached =>
    let session := (session.beginSend false).finishSend false sent
    ({ v with session }, if sent then some session.reply else none)
  | .new =>
    let session := (session.beginSend true).finishSend true sent
    let record := { session.record with drops := BitVec.ofNat 64 v.drops }
    let session := session.noteRecord pushed
    ({ session
       running := session.reason == .none
       records := v.records ++ [record]
       drops := v.drops + (!pushed).toNat }, if sent then some session.reply else none)

omit [Arith F64] in
/-- The loop ends for a reason of its own: a signal, or an error of the socket. -/
def stop (v : Vehicle) (why : Reason) : Vehicle := { v with session := v.session.stop why, running := false }

end Vehicle

/-- Both processes, and the datagrams that were sent in each direction. -/
structure Pair where
  sim : Sim
  vehicle : Vehicle
  uplink : List Bytes := []
  downlink : List Bytes := []

/-- The pair as it starts; the vehicle is told the scenario's arming. -/
def Pair.initial (spec : Scenario F64) (seed : U64) (delayTicks : Fin 2) : Pair :=
  { sim := .initial spec seed delayTicks, vehicle := .initial spec.autoArm }

/-- The two processes and the network taking one step. -/
inductive Pair.Step (spec : Scenario F64) (p : Pair) : Pair → Prop
  | begin (h : p.sim.phase = .ready) : Step spec p { p with sim := p.sim.begin spec }
  | send {r : Request} {attempt : ℕ} {logged : Bool} (h : p.sim.phase = .sending r attempt logged)
      (ok : Bool) :
      Step spec p
        { p with
          sim := p.sim.send r attempt logged ok
          uplink := if ok then r.frame :: p.uplink else p.uplink }
  | timeout {r : Request} {attempt : ℕ} {logged : Bool} (h : p.sim.phase = .waiting r attempt logged) :
      Step spec p { p with sim := p.sim.timeout r attempt logged }
  | reply {r : Request} {attempt : ℕ} {logged : Bool} (h : p.sim.phase = .waiting r attempt logged)
      {data : Bytes} (hdata : data ∈ p.downlink) : Step spec p { p with sim := p.sim.receive r data }
  | failure {r : Request} {attempt : ℕ} {logged : Bool} (h : p.sim.phase = .waiting r attempt logged) :
      Step spec p { p with sim := { p.sim with phase := .failed } }
  | request (h : p.vehicle.running = true) {data : Bytes} (hdata : data ∈ p.uplink) (sent pushed : Bool) :
      Step spec p
        { p with
          vehicle := (p.vehicle.receive ⟨data, false⟩ sent pushed).1
          downlink := (p.vehicle.receive ⟨data, false⟩ sent pushed).2.toList ++ p.downlink }
  | stop (why : Reason) : Step spec p { p with vehicle := p.vehicle.stop why }

/-- The states the pair can get into. -/
def Pair.Reachable (spec : Scenario F64) (seed : U64) (delayTicks : Fin 2) (p : Pair) : Prop :=
  Relation.ReflTransGen (Pair.Step spec) (Pair.initial spec seed delayTicks) p

end Tvc.Lockstep
