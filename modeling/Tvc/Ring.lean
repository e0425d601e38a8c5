import Mathlib.Data.List.Induction
import Tvc.Floats
import Tvc.Lib.BoundedQueue
import Tvc.Lib.Circular
import Tvc.Lib.Machine

/-!
# The telemetry ring of `src/telemetry.hpp`

One producer pushes records and one consumer pops them in batches. The two run at the same time,
and their loads, stores and copies interleave in any order: a move lets one of them take its next
access to what they share. A record is copied word by word, so that a copy can be interrupted.
-/

namespace Tvc.SpscRing

/-- `kSlots`. -/
def kSlots : ℕ := 4096

instance : NeZero kSlots := ⟨by decide⟩

/-- A record as the words a copy moves. -/
abbrev Words (w : ℕ) (β : Type) := Fin w → β

/-- The slot of an index. -/
def slotOf (index : U64) : Fin kSlots :=
  ⟨(index &&& BitVec.ofNat 64 (kSlots - 1)).toNat, by
    rw [BitVec.toNat_and]
    exact Nat.lt_of_le_of_lt Nat.and_le_right (by decide)⟩

/-- `SpscRing`. -/
structure Ring (w : ℕ) (β : Type) where
  slots : Fin kSlots → Words w β
  head : U64 := 0
  tail : U64 := 0
  cachedTail : U64 := 0
  drops : U64 := 0

/-- Where the producer stands in `try_push`, with its local variables. -/
inductive Producer (w : ℕ) (β : Type)
  | idle
  | reload (r : Words w β) (head : U64)
  | write (r : Words w β) (head : U64) (copied : ℕ)

/-- Where the consumer stands in `pop_batch`, with its local variables. -/
inductive Consumer (w : ℕ) (β : Type)
  | idle
  | loaded (max : ℕ) (head : U64)
  | copy (max : ℕ) (head tail : U64) (out : List (Words w β)) (next : Words w β) (copied : ℕ)

/-- The ring with its two threads. -/
structure System (w : ℕ) (β : Type) where
  ring : Ring w β
  producer : Producer w β := .idle
  consumer : Consumer w β := .idle

/-- A thread takes its next access; the record and the limit are those of a call it begins. -/
inductive Move (w : ℕ) (β : Type)
  | push (r : Words w β)
  | pop (max : ℕ)

/-- A call that returns. -/
abbrev Event (w : ℕ) (β : Type) := BoundedQueue.Event (Words w β)

variable {w : ℕ} {β : Type}

/-- `try_push` up to its next access. -/
def tryPush (s : System w β) (r : Words w β) : System w β × Option (Event w β) :=
  match s.producer with
  | .idle =>
    let head := s.ring.head
    if head - s.ring.cachedTail == BitVec.ofNat 64 kSlots then
      ({ s with producer := .reload r head }, none)
    else ({ s with producer := .write r head 0 }, none)
  | .reload r head =>
    let ring := { s.ring with cachedTail := s.ring.tail }
    if head - ring.cachedTail == BitVec.ofNat 64 kSlots then
      ({ s with ring := { ring with drops := ring.drops + 1 }, producer := .idle }, some (.dropped r))
    else ({ s with ring, producer := .write r head 0 }, none)
  | .write r head copied =>
    if h : copied < w then
      let slot := Function.update (s.ring.slots (slotOf head)) ⟨copied, h⟩ (r ⟨copied, h⟩)
      ({ s with
          ring.slots := Function.update s.ring.slots (slotOf head) slot
          producer := .write r head (copied + 1) }, none)
    else ({ s with ring.head := head + 1, producer := .idle }, some (.pushed r))

/-- `pop_batch` up to its next access. -/
def popBatch [Inhabited β] (s : System w β) (max : ℕ) : System w β × Option (Event w β) :=
  match s.consumer with
  | .idle => ({ s with consumer := .loaded max s.ring.head }, none)
  | .loaded max head => ({ s with consumer := .copy max head s.ring.tail [] default 0 }, none)
  | .copy max head tail out next copied =>
    if tail != head && out.length < max then
      if h : copied < w then
        let next := Function.update next ⟨copied, h⟩ (s.ring.slots (slotOf tail) ⟨copied, h⟩)
        ({ s with consumer := .copy max head tail out next (copied + 1) }, none)
      else ({ s with consumer := .copy max head (tail + 1) (out ++ [next]) next 0 }, none)
    else ({ s with ring.tail := tail, consumer := .idle }, some (.popped out))

/-- The system after one access. -/
def step [Inhabited β] (s : System w β) : Move w β → System w β × Option (Event w β)
  | .push r => tryPush s r
  | .pop max => popBatch s max

/-- The system as it starts. -/
def initial (slots : Fin kSlots → Words w β) : System w β := { ring := { slots } }

/-! ## Indices -/

/-- The slot of an index is the cell of its number. -/
theorem slotOf_ofNat (n : ℕ) : slotOf (BitVec.ofNat 64 n) = Circular.cell kSlots n := by
  apply Fin.ext
  have hmask : n % 2 ^ 64 &&& (kSlots - 1) % 2 ^ 64 = n % 2 ^ 64 % 2 ^ 12 := Nat.and_two_pow_sub_one_eq_mod _ 12
  calc (slotOf (BitVec.ofNat 64 n)).val
      = n % 2 ^ 64 &&& (kSlots - 1) % 2 ^ 64 := by
        simp only [slotOf, BitVec.toNat_and, BitVec.toNat_ofNat]
    _ = n % 2 ^ 64 % 2 ^ 12 := hmask
    _ = n % 2 ^ 12 := Nat.mod_mod_of_dvd n (by decide)
    _ = (Circular.cell kSlots n).val := rfl

/-- Indices of nearby numbers are equal only for the same number. -/
theorem ofNat_inj_of_near {m n : ℕ} (h : m ≤ n) (hnear : n ≤ m + kSlots) :
    BitVec.ofNat 64 m = BitVec.ofNat 64 n ↔ m = n := by
  refine ⟨fun hsame => ?_, fun hsame => hsame ▸ rfl⟩
  have hmod : m % 2 ^ 64 = n % 2 ^ 64 := by simpa using congrArg BitVec.toNat hsame
  have hkSlots : kSlots = 4096 := rfl
  omega

/-- The distance of two indices. -/
theorem ofNat_sub {m n : ℕ} (h : m ≤ n) : BitVec.ofNat 64 n - BitVec.ofNat 64 m = BitVec.ofNat 64 (n - m) := by
  apply BitVec.eq_of_toNat_eq
  simp only [BitVec.toNat_sub, BitVec.toNat_ofNat]
  omega

/-- The ring is full when the indices are as many apart as there are slots. -/
theorem full_iff {m n : ℕ} (h : m ≤ n) (hnear : n ≤ m + kSlots) :
    (BitVec.ofNat 64 n - BitVec.ofNat 64 m == BitVec.ofNat 64 kSlots) = true ↔ n = m + kSlots := by
  have hsmall : n - m ≤ kSlots := by omega
  rw [beq_iff_eq, ofNat_sub h, ofNat_inj_of_near hsmall (by omega)]
  omega

/-! ## The invariant -/

open BoundedQueue (Queue history)

/-- Where the producer stands, given what was pushed and how far it has seen the consumer get. -/
inductive Producer.At (slots : Fin kSlots → Words w β) (head : U64) (pushed : List (Words w β)) (cached : ℕ) :
    Producer w β → Prop
  | idle : At slots head pushed cached .idle
  | reload {r : Words w β} (hfull : pushed.length = cached + kSlots) :
      At slots head pushed cached (.reload r head)
  | write {r : Words w β} {copied : ℕ} (hroom : pushed.length < cached + kSlots) (hcopied : copied ≤ w)
      (hwords : ∀ j : Fin w, j < copied → slots (Circular.cell kSlots pushed.length) j = r j) :
      At slots head pushed cached (.write r head copied)

/-- Where the consumer stands, given what was pushed and popped. -/
inductive Consumer.At (pushed popped : List (Words w β)) : Consumer w β → Prop
  | idle : At pushed popped .idle
  | loaded {max n : ℕ} (hstart : popped.length ≤ n) (hend : n ≤ pushed.length) :
      At pushed popped (.loaded max (BitVec.ofNat 64 n))
  | copy {max n : ℕ} {out : List (Words w β)} {next : Words w β} {copied : ℕ}
      (hstart : popped.length + out.length ≤ n) (hend : n ≤ pushed.length) (hout : popped ++ out <+: pushed)
      (hopen : 0 < copied → popped.length + out.length < n) (hcopied : copied ≤ w)
      (hwords : ∀ r, pushed[popped.length + out.length]? = some r → ∀ j : Fin w, j < copied → next j = r j) :
      At pushed popped
        (.copy max (BitVec.ofNat 64 n) (BitVec.ofNat 64 (popped.length + out.length)) out next copied)

/-- What the system keeps: the indices count what was pushed, popped and seen, and the slots hold
what was pushed and not yet popped. -/
structure Inv (s : System w β) (q : Queue (Words w β)) (cached : ℕ) : Prop where
  head : s.ring.head = BitVec.ofNat 64 q.pushed.length
  tail : s.ring.tail = BitVec.ofNat 64 q.popped.length
  cachedTail : s.ring.cachedTail = BitVec.ofNat 64 cached
  drops : s.ring.drops = BitVec.ofNat 64 q.failures
  behind : cached ≤ q.popped.length
  within : q.pushed.length ≤ cached + kSlots
  order : q.popped <+: q.pushed
  holds : Circular.Holds s.ring.slots q.pushed q.popped.length
  producer : s.producer.At s.ring.slots s.ring.head q.pushed cached
  consumer : s.consumer.At q.pushed q.popped

variable {s : System w β} {q : Queue (Words w β)} {cached : ℕ}

/-- The consumer stands where it stood when a record has been pushed. -/
theorem Consumer.At.push {c : Consumer w β} {pushed popped : List (Words w β)} (h : c.At pushed popped)
    (r : Words w β) : c.At (pushed ++ [r]) popped := by
  have hgrown : pushed <+: pushed ++ [r] := List.prefix_append _ _
  cases h with
  | idle => exact .idle
  | loaded hstart hend => exact .loaded hstart (hend.trans hgrown.length_le)
  | @copy max n out next copied hstart hend hout hopen hcopied hwords =>
    refine .copy hstart (hend.trans hgrown.length_le) (hout.trans hgrown) hopen hcopied fun r' hr' j hj => ?_
    have hold : popped.length + out.length < pushed.length := (hopen (Nat.zero_lt_of_lt hj)).trans_le hend
    exact hwords r' (by rwa [← List.getElem?_append_left hold]) j hj

/-- A prefix that grows by the element that follows it. -/
theorem prefix_concat {α : Type*} {l m : List α} (h : l <+: m) {a : α} (ha : m[l.length]? = some a) :
    l ++ [a] <+: m := by
  obtain ⟨rest, rfl⟩ := h
  rw [List.getElem?_append_right le_rfl, Nat.sub_self] at ha
  cases rest with
  | nil => nomatch ha
  | cons b rest =>
    obtain rfl : b = a := Option.some.inj ha
    exact ⟨rest, List.append_assoc l [b] rest⟩

/-- The next index. -/
theorem ofNat_succ (n : ℕ) : BitVec.ofNat 64 n + 1 = BitVec.ofNat 64 (n + 1) := (BitVec.ofNat_add n 1).symm

/-- An access of the producer does what the queue allows and keeps the invariant. -/
theorem Inv.tryPush (h : Inv s q cached) (r : Words w β) :
    q.Allows kSlots (tryPush s r).2 ∧ ∃ cached', Inv (tryPush s r).1 (q.after (tryPush s r).2) cached' := by
  obtain ⟨hhead, htail, hcached, hdrops, hbehind, hwithin, horder, hholds, hproducer, hconsumer⟩ := h
  have hlength : q.popped.length ≤ q.pushed.length := horder.length_le
  unfold SpscRing.tryPush
  generalize hpc : s.producer = pc at hproducer
  cases hproducer with
  | idle =>
    have hfull := full_iff (hbehind.trans hlength) hwithin
    rw [← hhead, ← hcached] at hfull
    dsimp only
    split
    · rename_i hdistance
      exact ⟨.silent, cached, hhead, htail, hcached, hdrops, hbehind, hwithin, horder, hholds,
        .reload (hfull.mp hdistance), hconsumer⟩
    · rename_i hdistance
      have hroom : q.pushed.length < cached + kSlots :=
        hwithin.lt_of_ne fun heq => hdistance (hfull.mpr heq)
      exact ⟨.silent, cached, hhead, htail, hcached, hdrops, hbehind, hwithin, horder, hholds,
        .write hroom (Nat.zero_le w) fun _ hj => absurd hj (Nat.not_lt_zero _), hconsumer⟩
  | @reload r hfull =>
    -- The tail that is read now is that of the consumer's last return.
    have hnear : q.pushed.length ≤ q.popped.length + kSlots := hwithin.trans (by omega)
    have hstill := full_iff hlength hnear
    rw [← hhead, ← htail] at hstill
    dsimp only
    split
    · rename_i hdistance
      have hcount : s.ring.drops + 1 = BitVec.ofNat 64 (q.failures + 1) := by rw [hdrops, ofNat_succ]
      exact ⟨.drop r (hstill.mp hdistance), q.popped.length, hhead, htail, htail, hcount, le_rfl, hnear, horder,
        hholds, .idle, hconsumer⟩
    · rename_i hdistance
      have hroom : q.pushed.length < q.popped.length + kSlots :=
        hnear.lt_of_ne fun heq => hdistance (hstill.mpr heq)
      exact ⟨.silent, q.popped.length, hhead, htail, htail, hdrops, le_rfl, hnear, horder, hholds,
        .write hroom (Nat.zero_le w) fun _ hj => absurd hj (Nat.not_lt_zero _), hconsumer⟩
  | @write r copied hroom hcopied hwords =>
    have hslot : slotOf s.ring.head = Circular.cell kSlots q.pushed.length := by rw [hhead, slotOf_ofNat]
    have hfree : q.pushed.length < q.popped.length + kSlots := hroom.trans_le (by omega)
    dsimp only
    split
    · rename_i hmore
      refine ⟨.silent, cached, hhead, htail, hcached, hdrops, hbehind, hwithin, horder, ?_, ?_, hconsumer⟩
      · rw [hslot]
        exact hholds.write hfree _
      · refine .write hroom hmore fun j hj => ?_
        dsimp only [Queue.after]
        rw [hslot, Function.update_self]
        by_cases hlast : j = ⟨copied, hmore⟩
        · rw [hlast, Function.update_self]
        · rw [Function.update_of_ne hlast]
          have hne : j.val ≠ copied := fun heq => hlast (Fin.ext heq)
          exact hwords j (by omega)
    · rename_i hdone
      have hrecord : s.ring.slots (Circular.cell kSlots q.pushed.length) = r := by
        funext j
        exact hwords j (by omega)
      have hpushed : (q.pushed ++ [r]).length = q.pushed.length + 1 := List.length_append
      refine ⟨.push r hfree, cached, ?_, htail, hcached, hdrops, hbehind, ?_, ?_, ?_, .idle, hconsumer.push r⟩
      · have hnext : s.ring.head + 1 = BitVec.ofNat 64 (q.pushed ++ [r]).length := by
          rw [hhead, ofNat_succ, hpushed]
        exact hnext
      · exact hpushed.trans_le hroom
      · exact horder.trans (List.prefix_append _ _)
      · exact hholds.push hrecord

/-- An access of the consumer does what the queue allows and keeps the invariant. -/
theorem Inv.popBatch [Inhabited β] (h : Inv s q cached) (max : ℕ) :
    q.Allows kSlots (popBatch s max).2 ∧ ∃ cached', Inv (popBatch s max).1 (q.after (popBatch s max).2) cached' := by
  obtain ⟨hhead, htail, hcached, hdrops, hbehind, hwithin, horder, hholds, hproducer, hconsumer⟩ := h
  have hlength : q.popped.length ≤ q.pushed.length := horder.length_le
  unfold SpscRing.popBatch
  generalize hpc : s.consumer = pc at hconsumer
  cases hconsumer with
  | idle =>
    refine ⟨.silent, cached, hhead, htail, hcached, hdrops, hbehind, hwithin, horder, hholds, hproducer, ?_⟩
    dsimp only
    rw [hhead]
    exact .loaded hlength le_rfl
  | @loaded max n hstart hend =>
    refine ⟨.silent, cached, hhead, htail, hcached, hdrops, hbehind, hwithin, horder, hholds, hproducer, ?_⟩
    dsimp only
    rw [htail]
    have hout : q.popped ++ [] <+: q.pushed := by rwa [List.append_nil]
    have hlimit : q.popped.length + ([] : List (Words w β)).length ≤ n := hstart
    exact .copy hlimit hend hout (fun h => absurd h (Nat.lt_irrefl 0)) (Nat.zero_le w)
      fun _ _ j hj => absurd hj (Nat.not_lt_zero _)
  | @copy max n out next copied hstart hend hout hopen hcopied hwords =>
    dsimp only
    split
    · -- The next record was pushed before the head was read.
      rename_i hmore
      have hnear : n ≤ q.popped.length + out.length + kSlots := by omega
      have hlt : q.popped.length + out.length < n := by
        refine hstart.lt_of_ne fun heq => ?_
        rw [Bool.and_eq_true, bne_iff_ne, Ne, ofNat_inj_of_near hstart hnear] at hmore
        exact hmore.1 heq
      obtain ⟨r, hr⟩ : ∃ r, q.pushed[q.popped.length + out.length]? = some r :=
        ⟨_, List.getElem?_eq_getElem (hlt.trans_le hend)⟩
      split
      · rename_i hword
        refine ⟨.silent, cached, hhead, htail, hcached, hdrops, hbehind, hwithin, horder, hholds, hproducer,
          .copy hstart hend hout (fun _ => hlt) hword fun r' hr' j hj => ?_⟩
        by_cases hlast : j = ⟨copied, hword⟩
        · rw [hlast, Function.update_self, slotOf_ofNat, hholds _ r' (Nat.le_add_right _ _) hr']
        · rw [Function.update_of_ne hlast]
          have hne : j.val ≠ copied := fun heq => hlast (Fin.ext heq)
          exact hwords r' hr' j (by omega)
      · rename_i hdone
        have hnext : next = r := by
          funext j
          exact hwords r hr j (by omega)
        have hcount : q.popped.length + (out ++ [next]).length = q.popped.length + out.length + 1 := by
          rw [List.length_append, List.length_singleton, Nat.add_assoc]
        have hgrown : q.popped ++ (out ++ [next]) <+: q.pushed := by
          rw [hnext, ← List.append_assoc]
          exact prefix_concat hout (by rwa [List.length_append])
        refine ⟨.silent, cached, hhead, htail, hcached, hdrops, hbehind, hwithin, horder, hholds, hproducer, ?_⟩
        dsimp only
        rw [ofNat_succ, ← hcount]
        exact .copy (hcount.trans_le hlt) hend hgrown (fun h => absurd h (Nat.lt_irrefl 0)) (Nat.zero_le w)
          fun _ _ j hj => absurd hj (Nat.not_lt_zero _)
    · have hpopped : (q.popped ++ out).length = q.popped.length + out.length := List.length_append
      refine ⟨.pop hout, cached, hhead, ?_, hcached, hdrops, ?_, hwithin, ?_, ?_, hproducer, .idle⟩
      · rw [Queue.popped_after_popped, hpopped]
      · rw [Queue.popped_after_popped, hpopped]
        exact hbehind.trans (Nat.le_add_right _ _)
      · rwa [Queue.popped_after_popped]
      · rw [Queue.popped_after_popped]
        exact hholds.release (by omega)

/-! ## Whole runs -/

/-- Every access does what the queue allows and keeps the invariant. -/
theorem Inv.access [Inhabited β] (h : Inv s q cached) (move : Move w β) :
    q.Allows kSlots (step s move).2 ∧ ∃ cached', Inv (step s move).1 (q.after (step s move).2) cached' := by
  cases move with
  | push r => exact h.tryPush r
  | pop max => exact h.popBatch max

/-- The invariant holds after every interleaving. -/
theorem inv_run [Inhabited β] (slots : Fin kSlots → Words w β) (moves : List (Move w β)) :
    ∃ cached, Inv (Machine.run step (initial slots) moves).1
      (history (Machine.run step (initial slots) moves).2) cached := by
  induction moves using List.reverseRecOn with
  | nil =>
    refine ⟨0, rfl, rfl, rfl, rfl, le_rfl, Nat.zero_le _, List.nil_prefix, fun _ _ _ ha => ?_, .idle, .idle⟩
    nomatch ha
  | append_singleton moves move ih =>
    obtain ⟨cached, h⟩ := ih
    obtain ⟨-, cached', hnext⟩ := h.access move
    refine ⟨cached', ?_⟩
    rw [Machine.run_append]
    simp only [Machine.run_cons, Machine.run_nil]
    rw [BoundedQueue.history_concat]
    exact hnext

/-- The ring does what a bounded queue allows, at every access of every interleaving. -/
theorem ring_refines_queue [Inhabited β] (slots : Fin kSlots → Words w β) (moves : List (Move w β))
    (move : Move w β) :
    let x := Machine.run step (initial slots) moves
    (history x.2).Orderly kSlots ∧ (history x.2).Allows kSlots (step x.1 move).2 := by
  intro x
  obtain ⟨cached, h⟩ := inv_run slots moves
  exact ⟨⟨h.order, h.within.trans (Nat.add_le_add_right h.behind _)⟩, (h.access move).1⟩

/-- A push fails when it reads the tail again. -/
theorem dropped_reload [Inhabited β] {move : Move w β} {r : Words w β}
    (h : (step s move).2 = some (.dropped r)) : ∃ head, s.producer = .reload r head := by
  cases move with
  | pop max =>
    simp only [step, popBatch] at h
    repeat' split at h
    all_goals nomatch h
  | push r' =>
    simp only [step, tryPush] at h
    cases hpc : s.producer with
    | idle =>
      rw [hpc] at h
      dsimp only at h
      split at h <;> nomatch h
    | reload r'' head =>
      rw [hpc] at h
      dsimp only at h
      split at h
      · obtain rfl : r'' = r := by simpa using h
        exact ⟨head, rfl⟩
      · nomatch h
    | write r'' head copied =>
      rw [hpc] at h
      dsimp only at h
      split at h <;> nomatch h

/-- The ring after every interleaving of the accesses of its two threads: what was popped is a prefix
of what was pushed, the indices count what was pushed, popped and seen to be popped, no access writes
a slot that holds a record to be popped, a push fails only on a full ring and failures are counted. -/
theorem ring_correct [Inhabited β] (slots : Fin kSlots → Words w β) (moves : List (Move w β)) :
    let x := Machine.run step (initial slots) moves
    let ring := x.1.ring
    let q := history x.2
    q.popped <+: q.pushed ∧ ring.drops = BitVec.ofNat 64 q.failures ∧
      (∃ cached, ring.cachedTail = BitVec.ofNat 64 cached ∧ ring.tail = BitVec.ofNat 64 q.popped.length ∧
        ring.head = BitVec.ofNat 64 q.pushed.length ∧ cached ≤ q.popped.length ∧
        q.popped.length ≤ q.pushed.length ∧ q.pushed.length ≤ cached + kSlots) ∧
      (q.pushed.length < 2 ^ 64 → ring.cachedTail.toNat ≤ ring.tail.toNat ∧ ring.tail.toNat ≤ ring.head.toNat ∧
        ring.head.toNat ≤ ring.cachedTail.toNat + kSlots) ∧
      (∀ n r, q.popped.length ≤ n → q.pushed[n]? = some r → ring.slots (slotOf (BitVec.ofNat 64 n)) = r ∧
        ∀ r' head copied, x.1.producer = .write r' head copied → slotOf head ≠ slotOf (BitVec.ofNat 64 n)) ∧
      ∀ move r, (step x.1 move).2 = some (.dropped r) →
        (∃ head, x.1.producer = .reload r head) ∧ ring.head - ring.tail = BitVec.ofNat 64 kSlots ∧
          q.pushed.length = q.popped.length + kSlots := by
  intro x ring q
  obtain ⟨cached, h⟩ := inv_run slots moves
  have hlength := h.order.length_le
  have hbehind := h.behind
  have hwithin := h.within
  refine ⟨h.order, h.drops, ⟨cached, h.cachedTail, h.tail, h.head, hbehind, hlength, hwithin⟩, fun hsmall => ?_,
    fun n r hn hr => ⟨?_, fun r' head copied hwrite hsame => ?_⟩, fun move r hdropped => ?_⟩
  · rw [h.cachedTail, h.tail, h.head, BitVec.toNat_ofNat, BitVec.toNat_ofNat, BitVec.toNat_ofNat,
      Nat.mod_eq_of_lt hsmall, Nat.mod_eq_of_lt (hlength.trans_lt hsmall),
      Nat.mod_eq_of_lt ((hbehind.trans hlength).trans_lt hsmall)]
    exact ⟨hbehind, hlength, hwithin⟩
  · rw [slotOf_ofNat]
    exact h.holds n r hn hr
  · have hproducer := h.producer
    rw [hwrite] at hproducer
    cases hproducer with
    | write hroom =>
      rw [h.head, slotOf_ofNat, slotOf_ofNat] at hsame
      have hnear : q.pushed.length < n + kSlots := hroom.trans_le (Nat.add_le_add_right (hbehind.trans hn) _)
      exact Circular.cell_ne (List.getElem?_eq_some_iff.mp hr).1 hnear hsame.symm
  · obtain ⟨hallows, -⟩ := h.access move
    rw [hdropped] at hallows
    cases hallows with
    | drop _ hfull =>
      refine ⟨dropped_reload hdropped, ?_, hfull⟩
      rw [h.head, h.tail, ofNat_sub hlength, hfull, Nat.add_sub_cancel_left]

/-! ## What an access can do -/

/-- The record of a push that is under way. -/
def Producer.record : Producer w β → Option (Words w β)
  | .idle => none
  | .reload r _ => some r
  | .write r _ _ => some r

/-- The head that a pop under way has read, with its limit. -/
def Consumer.seen : Consumer w β → Option (ℕ × U64)
  | .idle => none
  | .loaded max head => some (max, head)
  | .copy max head _ _ _ _ => some (max, head)

/-- The first access of a push. -/
theorem tryPush_idle (h : s.producer = .idle) (r : Words w β) :
    (tryPush s r).2 = none ∧ (tryPush s r).1.producer.record = some r ∧ (tryPush s r).1.consumer = s.consumer ∧
      (tryPush s r).1.ring = s.ring := by
  unfold tryPush
  rw [h]
  dsimp only
  split <;> exact ⟨rfl, rfl, rfl, rfl⟩

/-- A later access of a push goes on with its record or returns. -/
theorem tryPush_busy {r : Words w β} (h : s.producer.record = some r) (r' : Words w β) :
    (tryPush s r').1.consumer = s.consumer ∧
      ((tryPush s r').2 = none ∧ (tryPush s r').1.producer.record = some r ∧
          (tryPush s r').1.ring.head = s.ring.head ∧ (tryPush s r').1.ring.drops = s.ring.drops ∨
        (tryPush s r').1.producer = .idle ∧
          ((tryPush s r').2 = some (.pushed r) ∨ (tryPush s r').2 = some (.dropped r))) := by
  unfold tryPush
  cases hpc : s.producer with
  | idle =>
    rw [hpc] at h
    nomatch h
  | reload r'' head =>
    rw [hpc] at h
    obtain rfl : r'' = r := Option.some.inj h
    dsimp only
    split
    · exact ⟨rfl, .inr ⟨rfl, .inr rfl⟩⟩
    · exact ⟨rfl, .inl ⟨rfl, rfl, rfl, rfl⟩⟩
  | write r'' head copied =>
    rw [hpc] at h
    obtain rfl : r'' = r := Option.some.inj h
    dsimp only
    split
    · exact ⟨rfl, .inl ⟨rfl, rfl, rfl, rfl⟩⟩
    · exact ⟨rfl, .inr ⟨rfl, .inl rfl⟩⟩

/-- An access of a pop leaves the producer and its counters alone. -/
theorem popBatch_keeps [Inhabited β] (s : System w β) (max : ℕ) :
    (popBatch s max).1.producer = s.producer ∧ (popBatch s max).1.ring.head = s.ring.head ∧
      (popBatch s max).1.ring.drops = s.ring.drops := by
  unfold popBatch
  cases s.consumer with
  | idle => exact ⟨rfl, rfl, rfl⟩
  | loaded max head => exact ⟨rfl, rfl, rfl⟩
  | copy max head tail out next copied =>
    dsimp only
    repeat' split
    all_goals exact ⟨rfl, rfl, rfl⟩

/-- What an access of a pop does to the consumer, given the head and the limit of the call. -/
inductive PopStep [Inhabited β] (head : U64) (max : ℕ) : Consumer w β → Consumer w β → Option (Event w β) → Prop
  | load : PopStep head max .idle (.loaded max head) none
  | start (m : ℕ) (h tail : U64) : PopStep head max (.loaded m h) (.copy m h tail [] default 0) none
  | word {m : ℕ} {h tail : U64} {out : List (Words w β)} {copied : ℕ} (next next' : Words w β)
      (hmore : (tail != h && out.length < m) = true) (hword : copied < w) :
      PopStep head max (.copy m h tail out next copied) (.copy m h tail out next' (copied + 1)) none
  | record {m : ℕ} {h tail : U64} {out : List (Words w β)} {copied : ℕ} (next : Words w β)
      (hmore : (tail != h && out.length < m) = true) (hdone : ¬copied < w) :
      PopStep head max (.copy m h tail out next copied) (.copy m h (tail + 1) (out ++ [next]) next 0) none
  | finish {m : ℕ} {h tail : U64} {out : List (Words w β)} {copied : ℕ} (next : Words w β)
      (hend : (tail != h && out.length < m) = false) :
      PopStep head max (.copy m h tail out next copied) .idle (some (.popped out))

/-- An access of a pop takes one step. -/
theorem popStep [Inhabited β] (s : System w β) (max : ℕ) :
    PopStep s.ring.head max s.consumer (popBatch s max).1.consumer (popBatch s max).2 := by
  unfold popBatch
  cases s.consumer with
  | idle => exact .load
  | loaded m head => exact .start m head _
  | copy m head tail out next copied =>
    dsimp only
    split
    · rename_i hmore
      split
      · rename_i hword
        exact .word next _ hmore hword
      · rename_i hdone
        exact .record next hmore hdone
    · rename_i hend
      exact .finish next (Bool.eq_false_iff.mpr hend)

/-- An access of a pop reads the head, goes on with the head it has read, or returns a batch. -/
theorem PopStep.cases [Inhabited β] {head : U64} {max : ℕ} {c c' : Consumer w β} {event : Option (Event w β)}
    (h : PopStep head max c c' event) :
    (event = none ∧ (c = .idle ∧ c'.seen = some (max, head) ∨ ∃ seen, c.seen = some seen ∧ c'.seen = some seen)) ∨
      ∃ max' head' tail out next copied, c = .copy max' head' tail out next copied ∧
        (tail != head' && out.length < max') = false ∧ event = some (.popped out) ∧ c' = .idle := by
  cases h with
  | load => exact .inl ⟨rfl, .inl ⟨rfl, rfl⟩⟩
  | start m h tail => exact .inl ⟨rfl, .inr ⟨(m, h), rfl, rfl⟩⟩
  | word => exact .inl ⟨rfl, .inr ⟨_, rfl, rfl⟩⟩
  | record => exact .inl ⟨rfl, .inr ⟨_, rfl, rfl⟩⟩
  | finish next hend => exact .inr ⟨_, _, _, _, next, _, rfl, hend, rfl, rfl⟩

/-- A pop that returns nothing, of a head that is still the head, leaves nothing in the ring. -/
theorem Inv.empty (h : Inv s q cached) {max : ℕ} {head tail : U64} {next : Words w β} {copied : ℕ}
    (hcopy : s.consumer = .copy max head tail [] next copied) (hmax : 0 < max)
    (hend : (tail != head && ([] : List (Words w β)).length < max) = false) (hhead : head = s.ring.head) :
    q.popped = q.pushed := by
  have hconsumer := h.consumer
  rw [hcopy] at hconsumer
  have hlength := h.order.length_le
  have hnear : q.pushed.length ≤ q.popped.length + kSlots := h.within.trans (Nat.add_le_add_right h.behind _)
  cases hconsumer with
  | copy hstart hbound =>
    rw [List.length_nil, decide_eq_true hmax, Bool.and_true, bne_eq_false_iff_eq, hhead, h.head,
      Nat.add_zero] at hend
    exact h.order.eq_of_length ((ofNat_inj_of_near hlength hnear).mp hend)

end Tvc.SpscRing
