import Tvc.Stream.Clean

/-!
# Damaged recordings

The stream decoder finds the leftmost-greedy parse of its buffer. What a damaged frame costs is
therefore local: a bogus header inside the damage can claim bytes behind it, but it is refused and the
search goes on at the next byte, unless the claim reaches past the end of the buffer.
-/

namespace Tvc.Telem

open ByteStore
open Resync (Scan)

variable {crc : Bytes → U32} {data : Bytes}

/-- No item is cut off where the largest frame would fit. -/
theorem not_cutOffAt {pos : ℕ} (h : pos + 512 ≤ data.length) : ¬CutOffAt data pos := by
  rintro ⟨-, -, hheader | ⟨-, -, -, hshort, hend⟩⟩
  · omega
  · simp only [kMaxPayload, kFrameOverhead] at hshort hend
    omega

/-- Where the largest frame would fit and none starts, the search goes on. -/
theorem lookAt_pass {pos : ℕ} (h : pos + 512 ≤ data.length) (hquiet : ∀ item size, ¬StartsAt crc data pos item size) :
    lookAt crc data pos ≠ .stop ∧ ∀ item size, lookAt crc data pos ≠ .accept item size := by
  refine ⟨fun hstop => ?_, fun item size haccept => hquiet item size (startsAt_of_lookAt haccept)⟩
  rcases of_lookAt_stop hstop with hend | hcut
  · omega
  · exact not_cutOffAt h hcut

/-- The frames of a buffer are those of its events, where the events have the same items. -/
theorem framesOf_congr {events events' : List StreamEvent} (h : Resync.items events = Resync.items events') :
    framesOf events = framesOf events' := by
  rw [framesOf, h, framesOf]

/-- Damage in which no frame starts costs the damaged frame alone, if enough bytes follow. -/
theorem framesOf_damaged {front rest : List WireFrame} {damage : Bytes}
    (hquiet : ∀ pos item size, (joined crc front).length ≤ pos → pos < (joined crc front).length + damage.length →
      ¬StartsAt crc (joined crc front ++ damage ++ joined crc rest) pos item size)
    (hfollow : 512 ≤ (joined crc rest).length) :
    ∃ events, Scan (lookAt crc (joined crc front ++ damage ++ joined crc rest)) 0 events ∧
      framesOf events = located 0 front ++ located ((joined crc front).length + damage.length) rest := by
  have hend : lookAt crc (joined crc front ++ damage ++ joined crc rest ++ [])
      ((joined crc front ++ damage).length + (joined crc rest).length) = .stop :=
    lookAt_end _ (by simp only [List.length_append, List.length_nil]; omega)
  have hrest := scan_joined (joined crc front ++ damage) [] rest (.stop hend)
  rw [List.append_nil, List.append_nil, List.length_append] at hrest
  obtain ⟨passed, hscan, hitems⟩ := hrest.pass (Nat.le_add_right _ damage.length) fun pos hle hlt =>
    lookAt_pass (by rw [List.length_append, List.length_append]; omega) fun item size => hquiet pos item size hle hlt
  have hpassed : Scan (lookAt crc ([] ++ joined crc front ++ (damage ++ joined crc rest)))
      (0 + (joined crc front).length) passed := by simpa using hscan
  have hwhole := scan_joined [] (damage ++ joined crc rest) front hpassed
  refine ⟨acceptances 0 front ++ passed, by simpa using hwhole, ?_⟩
  rw [framesOf_append, framesOf_acceptances, framesOf_congr hitems, framesOf_acceptances]

/-- The decoder ends and finds the leftmost-greedy parse of its buffer: frames that lie one behind the other,
each with its bytes, and together with the skipped bytes the whole buffer. If one frame of a concatenation is
overwritten so that no frame starts inside the damage, and the largest frame would fit behind it, the other
frames are found all the same. -/
theorem stream_parsed (crc : Bytes → U32) :
    (∀ data : Bytes,
      (∀ fuel, data.length < fuel → Resync.walk (lookAt crc data) Tally.note fuel 0 {} =
        Resync.walk (lookAt crc data) Tally.note (data.length + 1) 0 {}) ∧
      (Wire.Reading.loop crc data (data.length + 1) {}).turn crc data = none ∧
      ∃ found : List (ℕ × (U8 × U32 × ℕ) × ℕ),
        (∀ parse, Resync.Greedy (StartsAt crc data) (CutOffAt data) 0 parse ↔ parse = found) ∧
        (decodeStream crc data).1 = found.map (fun x => ⟨x.2.1.1, x.2.1.2.1, x.1 + 10, x.2.1.2.2⟩) ∧
        (Wire.decodeStream crc data).1 = (decodeStream crc data).1.map (Wire.tupleOf data) ∧
        found.Pairwise (fun x y => x.1 + x.2.2 ≤ y.1) ∧
        (∀ x ∈ found, StartsAt crc data x.1 x.2.1 x.2.2 ∧ x.1 + x.2.2 ≤ data.length) ∧
        (decodeStream crc data).2.skippedBytes + Resync.taken found = data.length ∧
        (Wire.decodeStream crc data).2.skippedBytes + Resync.taken found = data.length) ∧
      ∀ (front rest : List WireFrame) (f : WireFrame) (damage : Bytes), damage.length = f.size →
        (∀ pos item size, (joined crc front).length ≤ pos → pos < (joined crc front).length + f.size →
          ¬StartsAt crc (joined crc front ++ damage ++ joined crc rest) pos item size) →
        512 ≤ (joined crc rest).length →
        (decodeStream crc (joined crc front ++ damage ++ joined crc rest)).1 =
            located 0 front ++ located ((joined crc front).length + f.size) rest ∧
          contents (joined crc front ++ damage ++ joined crc rest)
            (decodeStream crc (joined crc front ++ damage ++ joined crc rest)).1 =
              (front ++ rest).map WireFrame.content ∧
          (Wire.decodeStream crc (joined crc front ++ damage ++ joined crc rest)).1 =
            (front ++ rest).map WireFrame.tuple := by
  refine ⟨fun data => ?_, fun front rest f damage hsize hquiet hfollow => ?_⟩
  · obtain ⟨events, hscan⟩ := scan_lookAt crc data
    have hbounded := bounded_lookAt crc data
    have hgreedy := hscan.greedy decides_lookAt
    obtain ⟨hpairwise, hitems⟩ := hscan.ordered
    have hle := hscan.taken_le hbounded (Nat.zero_le _)
    refine ⟨fun fuel hfuel => ?_, Wire.loop_ends crc data, Resync.items events, fun parse => ?_, ?_, ?_, hpairwise,
      fun x hx => ?_, ?_, ?_⟩
    · rw [hscan.walk hbounded _ (by omega), hscan.walk hbounded _ (by omega)]
    · exact ⟨fun h => h.unique decides_lookAt hgreedy, fun h => h ▸ hgreedy⟩
    · rw [decodeStream_eq hscan, framesOf]
    · rw [Wire.decodeStream_eq hscan, decodeStream_eq hscan]
    · obtain ⟨-, haccept⟩ := hitems x hx
      exact ⟨startsAt_of_lookAt haccept, (hbounded.accept _ _ _ haccept).2⟩
    · rw [decodeStream_eq hscan]
      dsimp only
      omega
    · rw [Wire.decodeStream_eq hscan, decodeStream_eq hscan]
      dsimp only
      omega
  · rw [← hsize] at hquiet ⊢
    obtain ⟨events, hscan, hframes⟩ := framesOf_damaged hquiet hfollow
    have hmap {β : Type} (g : U8 → U32 → Bytes → β) :
        (located 0 front ++ located ((joined crc front).length + damage.length) rest).map
            (fun f => g f.type f.seq (f.payload (joined crc front ++ damage ++ joined crc rest))) =
          (front ++ rest).map fun f => g f.type f.seq f.payload := by
      have hfront := located_map crc g [] (damage ++ joined crc rest) front
      have hrest := located_map crc g (joined crc front ++ damage) [] rest
      rw [List.nil_append, ← List.append_assoc, List.length_nil] at hfront
      rw [List.append_nil, List.length_append] at hrest
      rw [List.map_append, List.map_append, hfront, hrest]
    have hvehicle := congrArg Prod.fst (decodeStream_eq hscan)
    have hground := congrArg Prod.fst (Wire.decodeStream_eq hscan)
    dsimp only at hvehicle hground
    rw [hvehicle, hground, hframes]
    exact ⟨rfl, hmap fun type seq payload => (type, seq, payload),
      hmap fun type seq payload => (type.toNat, seq.toNat, payload)⟩

end Tvc.Telem
