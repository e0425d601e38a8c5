import Tvc.GroundLink.Delivery
import Tvc.Recorder.Ending

/-!
# What the ground link keeps

Whatever the network does, the receiver holds frames of the drain in the order of their ticks, and each frame is
recorded, lost on the way, or was not sent.
-/

namespace Tvc.GroundLink

open GreedyMatch
open Recorder (Drain GroundCounters encoding encodings)
open Telem (ControlRecord FittingCounts)

variable {w : ℕ} {β σ : Type} [DecidableEq σ]

/-! ## One send -/

omit [DecidableEq σ] in
/-- A connected drain counts the send of its frame. -/
theorem writeRecord_ground {d : Drain w β} (hconnected : d.connected = true) {r : ControlRecord} {payload : Bytes}
    (hpayload : Telem.encodeControl (List.replicate Telem.kControlV1PayloadBytes 0) r = some payload)
    (o : Recorder.Outcome) :
    (d.writeRecord r o).ground = d.ground.note (Telem.encodeFrame 6 d.seq payload).length o.sent := by
  unfold Drain.writeRecord
  rw [hpayload]
  dsimp only
  generalize Telem.encodeFrame 6 d.seq payload = frame
  cases (min o.written frame.length != frame.length) with
  | true => exact congrArg Drain.ground (if_pos hconnected)
  | false => exact congrArg Drain.ground (if_pos hconnected)

omit [DecidableEq σ] in
/-- A frame that is sent whole is given to the network, and one that is not counts as an error. -/
theorem handed_cases {d : Drain w β} (hconnected : d.connected = true) {r : ControlRecord} (hfits : FittingCounts r)
    (sent : Except ℕ ℕ) :
    let ground := (d.writeRecord r (written sent)).ground
    ground.attempted = d.ground.attempted + 1 ∧
      (handed d r sent = [Telem.encodeFrame 6 d.seq (Recorder.payloadOf r)] ∧ ground.sent = d.ground.sent + 1 ∧
          ground.sendErrors = d.ground.sendErrors ∨
        handed d r sent = [] ∧ ground.sent = d.ground.sent ∧ ground.sendErrors = d.ground.sendErrors + 1) := by
  obtain ⟨payload, hpayload, -⟩ := Recorder.encodeControl_of_fitting hfits
  rw [Recorder.payloadOf_eq hpayload, writeRecord_ground hconnected hpayload]
  cases sent with
  | error errno =>
    have hhanded : handed d r (.error errno) = [] := by
      unfold handed
      rw [hpayload]
    exact ⟨rfl, .inr ⟨hhanded, rfl, rfl⟩⟩
  | ok n =>
    have hhanded : handed d r (.ok n) =
        if n == (Telem.encodeFrame 6 d.seq payload).length then [Telem.encodeFrame 6 d.seq payload] else [] := by
      unfold handed
      rw [hpayload, hconnected]
      rfl
    rw [hhanded]
    generalize Telem.encodeFrame 6 d.seq payload = frame
    unfold GroundCounters.note written
    dsimp only
    split
    · exact ⟨rfl, .inl ⟨rfl, rfl, rfl⟩⟩
    · exact ⟨rfl, .inr ⟨rfl, rfl, rfl⟩⟩

/-- What the drain has written, sent and counted. -/
structure Sends (header : Bytes) (records : List ControlRecord) (l : Link w β σ) (done : List ControlRecord) : Prop where
  split : records = done ++ l.todo
  holds : l.drain.Holds header done
  connected : l.drain.connected = true
  air : l.air.Sublist (framesOf done)
  attempted : l.drain.ground.attempted = done.length
  sent : l.drain.ground.sent = l.air.length
  conserved : l.drain.ground.attempted = l.drain.ground.sent + l.drain.ground.sendErrors

variable {header groundHeader : Bytes} {records done : List ControlRecord} {l : Link w β σ} {home : σ} {kept : List Bytes}

/-- One more record is written, and sent or not. -/
theorem Sends.send (h : Sends header records l done) (hfits : ∀ r ∈ records, FittingCounts r) (sent : Except ℕ ℕ) :
    ∃ done', Sends header records (l.step home (.send sent)) done' := by
  cases htodo : l.todo with
  | nil =>
    refine ⟨done, ?_⟩
    unfold Link.step
    rw [htodo]
    exact h
  | cons r rest =>
    have hsplit := h.split
    rw [htodo] at hsplit
    have hfit : FittingCounts r := hfits r (by rw [hsplit]; simp)
    have hstores : (written sent).Stores := by simp only [Recorder.Outcome.Stores, written, le_refl, and_self]
    have hholds := (h.holds.concat hfit (.inl hstores)).1
    have hconnected := (l.drain.connected_writeRecord r (written sent)).trans h.connected
    have hframe : Telem.encodeFrame 6 l.drain.seq (Recorder.payloadOf r) = encoding r done.length := by
      rw [encoding, h.holds.seq]
    obtain ⟨hattempted, hcases⟩ := handed_cases h.connected hfit sent
    rw [hframe] at hcases
    have hstep : l.step home (.send sent) =
        { l with drain := l.drain.writeRecord r (written sent), todo := rest, air := l.air ++ handed l.drain r sent } := by
      unfold Link.step
      rw [htodo]
    have hsent := h.sent
    have hbefore := h.attempted
    have hconserved := h.conserved
    rw [hstep]
    generalize l.drain.writeRecord r (written sent) = d at *
    refine ⟨done ++ [r], hsplit.trans ?_, hholds, hconnected, ?_, ?_, ?_, ?_⟩
    · rw [List.append_assoc, List.singleton_append]
    · rw [framesOf_concat]
      refine h.air.append ?_
      rcases hcases with ⟨hhanded, -⟩ | ⟨hhanded, -⟩
      · rw [hhanded]
      · rw [hhanded]
        exact List.nil_sublist _
    · rw [hattempted, hbefore, List.length_append, List.length_singleton]
    · dsimp only
      rw [List.length_append]
      rcases hcases with ⟨hhanded, hcount, -⟩ | ⟨hhanded, hcount, -⟩
      · rw [hhanded, hcount, hsent, List.length_singleton]
      · rw [hhanded, hcount, hsent, List.length_nil, Nat.add_zero]
    · dsimp only
      rcases hcases with ⟨-, hcount, herrors⟩ | ⟨-, hcount, herrors⟩ <;> omega

/-! ## One datagram -/

/-- What the receiver has kept of what the network was given. -/
structure Takes (home : σ) (groundHeader : Bytes) (air : List Bytes) (r : Receiver σ) (kept : List Bytes) : Prop where
  recording : r.recording = groundHeader ++ kept.flatten
  given : ∀ f ∈ kept, f ∈ air
  ordered : Ordered tickOf kept
  last : r.last = kept.getLast?
  lastTick : r.lastTick = kept.getLast?.map tickOf
  source : r.source = if kept = [] then none else some home
  recorded : r.counters.recorded = kept.length
  malformed : r.counters.malformed = 0
  conflict : r.counters.conflict = 0
  writeFailed : r.counters.writeFailedDatagrams = 0
  disposed : r.counters.received = r.counters.disposed

variable {air : List Bytes} {r : Receiver σ}

omit [DecidableEq σ] in
/-- Nothing is kept in the beginning. -/
theorem takes_start (home : σ) (groundHeader : Bytes) : Takes home groundHeader [] { recording := groundHeader } [] where
  recording := (List.append_nil _).symm
  given := nofun
  ordered := .nil
  last := rfl
  lastTick := rfl
  source := rfl
  recorded := rfl
  malformed := rfl
  conflict := rfl
  writeFailed := rfl
  disposed := rfl

omit [DecidableEq σ] in
/-- What else the network is given does not matter. -/
theorem Takes.mono (h : Takes home groundHeader air r kept) {air' : List Bytes} (hair : ∀ f ∈ air, f ∈ air') :
    Takes home groundHeader air' r kept := { h with given := fun f hf => hair f (h.given f hf) }

/-- A datagram of another source keeps what was kept. -/
theorem Takes.foreign (h : Takes home groundHeader air r kept) (hpinned : r.source = some home) {source : σ}
    (hne : source ≠ home) (data : Bytes) (outcome : Except ℕ ℕ) :
    Takes home groundHeader air (r.accept data source outcome).1 kept := by
  have hdisposed := Receiver.accept_disposed h.disposed data source outcome
  rw [Receiver.accept_foreign hpinned hne] at hdisposed ⊢
  exact { h with disposed := hdisposed }

/-- A frame of the drain is kept if its tick is later than the last one. -/
theorem Takes.arrive (h : Takes home groundHeader air r kept) (hordered : Ordered tickOf air) {frame : Bytes}
    (hframe : frame ∈ air) (hread : controlFrame frame = .ok (.of seqOf tickOf frame)) :
    ∃ kept', Takes home groundHeader air (r.accept frame home (.ok frame.length)).1 kept' := by
  have hsource (s : σ) (hs : s ∈ r.source) : s = home := by
    rw [h.source] at hs
    split at hs
    · nomatch hs
    · exact (Option.some.inj hs).symm
  have hpinned {t : ℤ} (ht : r.lastTick = some t) : some home = if kept = [] then none else some home := by
    rw [if_neg]
    rintro rfl
    rw [h.lastTick] at ht
    nomatch ht
  have hdisposed := Receiver.accept_disposed h.disposed frame home (.ok frame.length)
  have htook := Receiver.accept_took hsource hread
  rw [show (StreamFrame.of seqOf tickOf frame).raw = frame from rfl] at htook
  generalize (r.accept frame home (.ok frame.length)).1 = r' at hdisposed htook
  cases htook with
  | late hlate =>
    obtain ⟨last, hlast, -⟩ := hlate
    exact ⟨kept, { h with source := hpinned hlast, disposed := hdisposed }⟩
  | again htick => exact ⟨kept, { h with source := hpinned htick, disposed := hdisposed }⟩
  | other htick hraw =>
    -- Two frames of the drain with one tick are the same frame.
    rw [h.lastTick] at htick
    obtain ⟨last, hlast, hsame⟩ := Option.map_eq_some_iff.mp htick
    have hgiven := h.given last (List.mem_of_getLast? hlast)
    obtain rfl : last = frame := hordered.eq_of_key hgiven hframe hsame
    exact absurd (h.last.trans hlast) hraw
  | new hlater =>
    have hbelow : ∀ f ∈ kept, tickOf f < tickOf frame := by
      rw [h.lastTick] at hlater
      exact h.ordered.below_iff.mp hlater
    refine ⟨kept ++ [frame], ?_, fun f hf => ?_, ordered_concat.mpr ⟨h.ordered, hbelow⟩, ?_, ?_, ?_, ?_, h.malformed,
      h.conflict, h.writeFailed, hdisposed⟩
    · rw [List.flatten_concat, ← List.append_assoc, ← h.recording]
      rfl
    · rcases List.mem_append.mp hf with hf | hf
      · exact h.given f hf
      · rwa [List.mem_singleton.mp hf]
    · exact List.getLast?_concat.symm
    · rw [List.getLast?_concat]
      rfl
    · rw [if_neg (by simp)]
    · rw [List.length_append, ← h.recorded]
      rfl

/-! ## Any run of the link -/

/-- A run of the link, with the records written and the frames kept. -/
structure Running (home : σ) (header groundHeader : Bytes) (records : List ControlRecord) (l : Link w β σ)
    (done : List ControlRecord) (kept : List Bytes) : Prop where
  sends : Sends header records l done
  takes : Takes home groundHeader l.air l.receiver kept

/-- A move keeps the account. -/
theorem Running.step {c : ControlRecords} (h : Running home header groundHeader c.records l done kept) (move : Move σ) :
    ∃ done' kept', Running home header groundHeader c.records (l.step home move) done' kept' := by
  have hmem (r : ControlRecord) (hr : r ∈ done) : r ∈ c.records := by
    rw [h.sends.split]
    exact List.mem_append_left _ hr
  cases move with
  | send sent =>
    obtain ⟨done', hsends⟩ : ∃ done', Sends header c.records (l.step home (.send sent)) done' :=
      h.sends.send c.fits sent
    refine ⟨done', kept, hsends, ?_⟩
    unfold Link.step
    cases l.todo with
    | nil => exact h.takes
    | cons r rest => exact h.takes.mono fun f hf => List.mem_append_left _ hf
  | arrive k =>
    unfold Link.step
    dsimp only
    cases hframe : l.air[k]? with
    | none => exact ⟨done, kept, h⟩
    | some frame =>
      have hgiven := List.mem_of_getElem? hframe
      have hread := (mem_framesOf (fun r hr => c.fits r (hmem r hr)) (fun r hr => c.finite r (hmem r hr))
        (h.sends.air.subset hgiven)).1
      have hincreasing := c.increasing
      rw [h.sends.split] at hincreasing
      have hordered := framesOf_ordered (fun r hr => c.fits r (hmem r hr)) (fun r hr => c.finite r (hmem r hr))
        (List.pairwise_append.mp hincreasing).1
      obtain ⟨kept', htakes⟩ := h.takes.arrive (List.Pairwise.sublist h.sends.air hordered) hgiven hread
      exact ⟨done, kept', { h.sends with }, htakes⟩
  | foreign data source =>
    unfold Link.step
    dsimp only
    split
    · rename_i hforeign
      exact ⟨done, kept, { h.sends with }, h.takes.foreign hforeign.1 hforeign.2 data _⟩
    · exact ⟨done, kept, h⟩

/-- Any run keeps the account. -/
theorem running_run (home : σ) (header groundHeader : Bytes) (c : ControlRecords) (moves : List (Move σ)) :
    ∃ done kept, Running home header groundHeader c.records
      (Link.run home (Link.start header groundHeader c.records : Link w β σ) moves) done kept := by
  induction moves using List.reverseRecOn with
  | nil =>
    refine ⟨[], [], ⟨rfl, ⟨(List.append_nil _).symm, rfl, rfl, rfl⟩, rfl, .slnil, rfl, rfl, rfl⟩, takes_start home groundHeader⟩
  | append_singleton moves move ih =>
    obtain ⟨done, kept, h⟩ := ih
    rw [Link.run, List.foldl_append]
    exact h.step move

/-- The populations of a vehicle that sent its frames once and a ground that kept some of those that were sent. -/
theorem checkPopulations_ok {pop : Populations} {vehicle ground : List Bytes} (hpop : pop.Count vehicle ground)
    {localCount total frameCount : ℕ} {source : Bool} {c : Counters} {g : GroundCounters}
    (hlocal : localCount = vehicle.length) (htotal : total = vehicle.length) (hframes : frameCount = ground.length)
    (hrecorded : c.recorded = ground.length) (hsource : source = !ground.isEmpty) (hattempted : g.attempted = vehicle.length)
    (hconserved : g.attempted = g.sent + g.sendErrors) (hsent : ground.length ≤ g.sent) :
    checkPopulations pop localCount total frameCount source c g = .ok () := by
  have hlost := hpop.total
  have hsome : (!source) = (ground.length == 0) := by
    rw [hsource, Bool.not_not]
    cases ground <;> rfl
  have hlast {condition : Bool} {message : String} (h : condition = true) : require condition message = .ok () := by
    rw [require, if_pos h]
  unfold checkPopulations
  dsimp only
  rw [hpop.vehicleRecords, hpop.groundRecords, hlocal, htotal, hframes, hrecorded, hsome]
  refine require_bind_ok.mpr ⟨?_, require_bind_ok.mpr ⟨?_, require_bind_ok.mpr ⟨?_, require_bind_ok.mpr ⟨?_,
    require_bind_ok.mpr ⟨?_, require_bind_ok.mpr ⟨?_, hlast ?_⟩⟩⟩⟩⟩⟩
  · rw [beq_self_eq_true, Bool.and_self]
  · rw [beq_self_eq_true, Bool.and_self]
  · exact beq_self_eq_true _
  · rw [Bool.and_eq_true, beq_iff_eq, beq_iff_eq]
    exact ⟨hconserved, hattempted⟩
  · rw [Bool.and_eq_true, Bool.and_eq_true, decide_eq_true_eq, decide_eq_true_eq, decide_eq_true_eq]
    omega
  · rw [beq_iff_eq]
    omega
  · rw [beq_iff_eq]
    omega

/-- Whatever the network does to the frames of the drain, and whatever others send to a receiver that knows its source,
the receiver's recording is a subsequence of the vehicle's, in the order of the ticks, every datagram is disposed of
without a conflict or a malformed one, and the two recordings pass the comparison and the check of the populations. -/
theorem ground_delivery {w : ℕ} {β σ : Type} [DecidableEq σ] (home : σ) (monoNs epochNs groundMonoNs groundEpochNs : U64)
    (c : ControlRecords) (moves : List (Move σ)) :
    let header := Telem.encodeRecordingHeader monoNs epochNs Telem.kControlV1SchemaHash
    let groundHeader := receiverHeader groundMonoNs groundEpochNs
    let l : Link w β σ := .run home (.start header groundHeader c.records) moves
    ∃ (done : List ControlRecord) (kept : List Bytes),
      (c.records = done ++ l.todo ∧ l.drain.file = header ++ (framesOf done).flatten) ∧
      (l.receiver.recording = groundHeader ++ kept.flatten ∧ kept.Sublist (framesOf done) ∧
        kept.Pairwise fun a b => tickOf a < tickOf b) ∧
      (l.receiver.counters.conflict = 0 ∧ l.receiver.counters.malformed = 0 ∧
        l.receiver.counters.received = l.receiver.counters.disposed) ∧
      ∃ vehicle ground pop, recordingFrames l.drain.file = .ok vehicle ∧
        recordingFrames l.receiver.recording = .ok ground ∧ matchStreams 0 vehicle ground = .ok pop ∧
        checkPopulations pop l.drain.records done.length l.receiver.counters.recorded l.receiver.source.isSome
          l.receiver.counters l.drain.ground = .ok () := by
  intro header groundHeader l
  obtain ⟨done, kept, h⟩ : ∃ done kept, Running home header groundHeader c.records l done kept :=
    running_run home header groundHeader c moves
  have hsplit := h.sends.split
  have hfits : ∀ r ∈ done, FittingCounts r := fun r hr => c.fits r (hsplit ▸ List.mem_append_left _ hr)
  have hfinite : ∀ r ∈ done, FiniteRecord r := fun r hr => c.finite r (hsplit ▸ List.mem_append_left _ hr)
  have hincreasing := c.increasing
  rw [hsplit] at hincreasing
  have hordered := framesOf_ordered hfits hfinite (List.pairwise_append.mp hincreasing).1
  have hgiven : kept ⊆ l.air := h.takes.given
  have hair : kept.Sublist l.air :=
    h.takes.ordered.sublist_of_subset (List.Pairwise.sublist h.sends.air hordered) hgiven
  have hsub : kept.Sublist (framesOf done) := hair.trans h.sends.air
  have hread (f : Bytes) (hf : f ∈ framesOf done) := mem_framesOf hfits hfinite hf
  have hnumbered (k : ℕ) (f : Bytes) (hf : (framesOf done)[k]? = some f) : seqOf f = (0 + k) % 2 ^ 32 := by
    rw [framesOf_getElem?] at hf
    obtain ⟨r, hr, rfl⟩ := Option.map_eq_some_iff.mp hf
    rw [zero_add]
    exact (controlFrame_of hfits hfinite hr).2.1
  obtain ⟨pop, hpop, hcount⟩ := matchStreams_ok hnumbered hordered hsub
  have hfile : l.drain.file = header ++ (framesOf done).flatten := h.sends.holds.file
  refine ⟨done, kept, ⟨hsplit, hfile⟩, ⟨h.takes.recording, hsub, h.takes.ordered⟩,
    ⟨h.takes.conflict, h.takes.malformed, h.takes.disposed⟩, _, _, pop, ?_, ?_, hpop, ?_⟩
  · rw [hfile]
    exact recordingFrames_ok monoNs epochNs hread
  · rw [h.takes.recording]
    exact recordingFrames_ok groundMonoNs groundEpochNs fun f hf => hread f (hsub.subset hf)
  · refine checkPopulations_ok hcount ?_ ?_ h.takes.recorded h.takes.recorded ?_ ?_ h.sends.conserved ?_
    · rw [framesOf_length]
      exact h.sends.holds.count
    · rw [framesOf_length]
    · rw [h.takes.source]
      cases kept <;> rfl
    · rw [framesOf_length]
      exact h.sends.attempted
    · rw [h.sends.sent]
      exact hair.length_le

end Tvc.GroundLink
