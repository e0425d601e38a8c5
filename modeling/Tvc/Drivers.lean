import Tvc.Freerun.Cycles
import Tvc.Lockstep.Sensing

/-!
# The drivers of the policy

The policy has two drivers: the scheduled cycles of free run over their admission, and the lockstep
session with its loop. What the policy may do without sensing, and what it may assume of its inputs,
is stated here of both, for every run.
-/

namespace Tvc

variable [Arith F64]

/-- Without sensing the policy has bounded authority, in free run and in lockstep, whatever datagrams
arrive: it commands nothing but neutral or what it computed last from a fresh sample, no longer than
eight ticks after the sample, and has ended when the sample is older than twenty. -/
theorem authority_bounded :
    (∀ (cfg : Freerun.Config) (tickBase : ℕ) (origin : ℤ) (carry : Datagram) (events : List Freerun.BodyEvent),
      let x := Freerun.Loop.run cfg tickBase origin carry events
      let history := (Freerun.Loop.initial cfg tickBase origin).inputs cfg carry events
      Episode.BoundedAuthority cfg.autoArm history ∧ x.r.state = Episode.stateAfter cfg.autoArm history ∧
        x.records.map Telem.ControlRecord.cmd = Episode.commands cfg.autoArm history ∧
        ∀ e, x.Runs cfg e → ∃ fields, (x.body cfg carry e).r.reply = Lockstep.replyFrame x.n fields ∧
          fields.delta = (Episode.step x.r.state (x.input cfg carry e)).requestedDelta) ∧
    (∀ (autoArm : Bool) (datagrams : List Datagram),
      let s := (Machine.run Lockstep.Session.respond (.initial autoArm) datagrams).1
      let history := ((Lockstep.Session.initial autoArm).executions datagrams).map Prod.snd
      Episode.BoundedAuthority autoArm history ∧ s.state = Episode.stateAfter autoArm history ∧
        ∀ d f, (s.receive d).2 = .new → d.frame = .ok f →
          ∃ fields, (s.receive d).1.reply = Lockstep.replyFrame s.up.logicalReceived fields ∧
            fields.delta =
              (Episode.step s.state (Lockstep.inputsOf s.held s.up.logicalReceived f)).requestedDelta) ∧
    ∀ (autoArm : Bool) (events : List Lockstep.Event),
      let v := Lockstep.Vehicle.run autoArm events
      let history := (Lockstep.Vehicle.initial autoArm).inputsOf events
      Episode.BoundedAuthority autoArm history ∧ v.session.state = Episode.stateAfter autoArm history ∧
        v.records.map Telem.ControlRecord.cmd = Episode.commands autoArm history := by
  refine ⟨fun cfg tickBase origin carry events => ?_, fun autoArm datagrams => ?_, fun autoArm events => ?_⟩
  · have hscheduled := Freerun.scheduled_run cfg tickBase origin carry events
    refine ⟨hscheduled.sensed.bounded cfg.autoArm, hscheduled.state, hscheduled.commands, fun e hruns => ?_⟩
    obtain ⟨-, fields, -, -, hreply, hdelta⟩ := hscheduled.recorded carry hruns
    exact ⟨fields, hreply, hdelta⟩
  · have hfed := Lockstep.fed_session autoArm datagrams
    refine ⟨hfed.sensed.bounded autoArm, hfed.state, fun d f hnew hframe => ?_⟩
    obtain ⟨g, hg, -, hexecuted⟩ := Lockstep.Session.core_of_new hnew
    obtain rfl : f = g := Except.ok.inj (hframe.symm.trans hg)
    exact ⟨_, congrArg Lockstep.Core.reply hexecuted, rfl⟩
  · have hlooping := Lockstep.looping_run autoArm events
    exact ⟨hlooping.fed.sensed.bounded autoArm, hlooping.fed.state, hlooping.commands⟩

/-- Both drivers call the policy under its precondition, whatever datagrams arrive, and present no
record that the drain refuses. In free run and in the loop of lockstep even an ended machine is given
no sample of the tick that is not fresh. -/
theorem precondition_met :
    (∀ (cfg : Freerun.Config) (tickBase : ℕ) (origin : ℤ) (carry : Datagram) (events : List Freerun.BodyEvent),
      let x := Freerun.Loop.run cfg tickBase origin carry events
      (∀ record ∈ x.records,
        (Telem.encodeControl (List.replicate Telem.kControlV1PayloadBytes 0) record).isSome = true) ∧
      ∀ e, let y := x.body cfg carry e
        let i := x.input cfg carry e
        if x.Runs cfg e then
          Episode.Precondition x.r.state i ∧ (i.fresh = false → 1 ≤ i.staleness) ∧
            y.r.state = (Episode.step x.r.state i).state ∧
            ∃ record, y.records = x.records ++ [record] ∧ Freerun.Counted y.r.admission.cycle record
        else y.r.state = x.r.state ∧ y.records = x.records) ∧
    (∀ (autoArm : Bool) (datagrams : List Datagram),
      let s := (Machine.run Lockstep.Session.respond (.initial autoArm) datagrams).1
      ∀ d, match s.execution d with
        | some (f, i) => d.frame = .ok f ∧ i = Lockstep.inputsOf s.held s.up.logicalReceived f ∧
            Episode.Precondition s.state i ∧ (i.fresh = false → i.tick + 1 < 2 ^ 64 → 1 ≤ i.staleness) ∧
            (s.receive d).1.state = (Episode.step s.state i).state ∧ Telem.FittingCounts (s.receive d).1.record
        | none => (s.receive d).1.state = s.state ∧ (s.receive d).1.record = s.record) ∧
    ∀ (autoArm : Bool) (events : List Lockstep.Event),
      let v := Lockstep.Vehicle.run autoArm events
      let history := (Lockstep.Vehicle.initial autoArm).inputsOf events
      (∀ record ∈ v.records,
        (Telem.encodeControl (List.replicate Telem.kControlV1PayloadBytes 0) record).isSome = true) ∧
      (∀ before i after, history = before ++ i :: after →
        Episode.Precondition (Episode.stateAfter autoArm before) i ∧ (i.fresh = false → 1 ≤ i.staleness)) ∧
      v.session.state = Episode.stateAfter autoArm history ∧ v.records.length = history.length := by
  refine ⟨fun cfg tickBase origin carry events => ?_, fun autoArm datagrams => ?_, fun autoArm events => ?_⟩
  · have hscheduled := Freerun.scheduled_run cfg tickBase origin carry events
    refine ⟨fun record hrecord => (hscheduled.fitting record hrecord).encoded, fun e => ?_⟩
    dsimp only
    split
    · rename_i hruns
      obtain ⟨-, hstate, -⟩ := Freerun.Loop.body_of_runs carry hruns
      obtain ⟨record, -, hrecords, hcounted, -⟩ := hscheduled.recorded carry hruns
      refine ⟨?_, hscheduled.aged carry e, hstate, record, hrecords, hcounted⟩
      rw [hscheduled.state]
      exact (hscheduled.sensed.concat (hscheduled.driven carry e)).precondition cfg.autoArm
    · rename_i hidle
      obtain ⟨-, hstate, -, -, hrecords⟩ := Freerun.Loop.body_of_not_runs carry hidle
      exact ⟨hstate, hrecords⟩
  · have hfed := Lockstep.fed_session autoArm datagrams
    intro s d
    by_cases hnew : (s.receive d).2 = .new
    · obtain ⟨f, hframe, hclass, hexecuted⟩ := Lockstep.Session.core_of_new hnew
      have hsensed := hfed.sensed.concat (hfed.driven ((hfed.serving.new_iff f).mp hclass))
      rw [Lockstep.Session.execution_of_new hnew hframe]
      refine ⟨hframe, rfl, ?_, fun hstale hcounted => ?_, congrArg Lockstep.Core.state hexecuted, ?_⟩
      · have hstate : s.state = Episode.stateAfter autoArm _ := hfed.state
        rw [hstate]
        exact hsensed.precondition autoArm
      · have htick := hsensed.last.tick
        rw [Nat.zero_add] at htick
        exact hsensed.staleness_pos hstale fun _ => htick ▸ hcounted
      · rw [show (s.receive d).1.record = (s.execute f).record from
          congrArg Lockstep.Core.record (hexecuted.trans (s.execute_core f).symm)]
        exact Lockstep.fitting_execute s f
    · have hsame := Lockstep.core_of_not_new hnew
      rw [Lockstep.Session.execution_of_not_new hnew]
      exact ⟨congrArg Lockstep.Core.state hsame, congrArg Lockstep.Core.record hsame⟩
  · have hlooping := Lockstep.looping_run autoArm events
    refine ⟨fun record hrecord => (hlooping.fitting record hrecord).encoded, fun before i after heq => ?_,
      hlooping.fed.state, ?_⟩
    · exact ⟨hlooping.fed.sensed.preconditions autoArm before i after heq,
        hlooping.aged i (heq ▸ List.mem_append_right _ (List.mem_cons_self ..))⟩
    · have hlength := congrArg List.length hlooping.commands
      simpa [Episode.commands] using hlength

end Tvc
