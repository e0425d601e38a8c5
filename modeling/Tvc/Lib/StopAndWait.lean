import Mathlib.Data.List.Basic

/-!
# Stop and wait over an unreliable network

A client issues one request at a time and goes on when its answer arrives; a server answers
each new request once and keeps its last answer. The network may lose, duplicate, delay and
reorder. Whatever it does, client and server stay where undisturbed exchanges would have brought
them, the server at most one answer ahead.
-/

/-- A client that issues requests and accepts answers, and the server it talks to. The client
stops when it issues no request or does not accept an answer. -/
structure StopAndWait (C S Q R : Type*) where
  request : C → Option Q
  serve : S → Q → S × R
  accept : C → R → Option C

namespace StopAndWait

variable {C S Q R : Type*} (p : StopAndWait C S Q R) (x : C × S)

/-- What the server makes of the client's next request. -/
def served (y : C × S) : Option (S × R) := (p.request y.1).map (p.serve y.2)

/-- One undisturbed exchange. -/
def exchange (y : C × S) : Option (C × S) :=
  (p.served y).bind fun z => (p.accept y.1 z.2).map fun c => (c, z.1)

/-- Client and server after `n` undisturbed exchanges, if there are as many. -/
def sync : ℕ → Option (C × S)
  | 0 => some x
  | n + 1 => (sync n).bind p.exchange

/-- The request that follows `n` exchanges. -/
def requestAt (n : ℕ) : Option Q := (p.sync x n).bind fun y => p.request y.1

/-- What the server makes of the request that follows `n` exchanges. -/
def servedAt (n : ℕ) : Option (S × R) := (p.sync x n).bind p.served

variable {p x}

/-- What the start has and an exchange keeps holds after every number of exchanges. -/
theorem sync_induction {P : ℕ → C × S → Prop} (hstart : P 0 x)
    (hstep : ∀ {n y y'}, P n y → p.exchange y = some y' → P (n + 1) y') {n : ℕ} {y : C × S}
    (h : p.sync x n = some y) : P n y := by
  induction n generalizing y with
  | zero => exact Option.some.inj h ▸ hstart
  | succ n ih =>
    obtain ⟨z, hz, hexchange⟩ := Option.bind_eq_some_iff.mp h
    exact hstep (ih hz) hexchange

/-- Earlier exchanges lead to later ones. -/
theorem sync_of_le {R : C × S → C × S → Prop} (hrefl : ∀ y, R y y)
    (hstep : ∀ {z y y'}, R z y → p.exchange y = some y' → R z y') {m n : ℕ} (hmn : m ≤ n) {y : C × S}
    (h : p.sync x n = some y) : ∃ z, p.sync x m = some z ∧ R z y := by
  induction hmn generalizing y with
  | refl => exact ⟨y, h, hrefl y⟩
  | step _ ih =>
    obtain ⟨y', hy', hexchange⟩ := Option.bind_eq_some_iff.mp h
    obtain ⟨z, hz, hR⟩ := ih hy'
    exact ⟨z, hz, hstep hR hexchange⟩

variable (p x)

/-- Client and server in step: `completed` requests were answered to the client and `answered`
by the server, and every message in flight belongs to the undisturbed exchanges. -/
structure InStep (client : C) (server : S) (completed answered : ℕ) (requests : List Q)
    (answers : List R) : Prop where
  client : ∃ s, p.sync x completed = some (client, s) ∧ (answered = completed → s = server)
  server : answered ≠ completed →
    answered = completed + 1 ∧ ∃ r, p.servedAt x completed = some (server, r)
  requests : ∀ q ∈ requests, ∃ i ≤ completed, p.requestAt x i = some q
  answers : ∀ r ∈ answers, ∃ i < answered, ∃ s, p.servedAt x i = some (s, r)

namespace InStep

variable {p x} {client : C} {server : S} {completed answered : ℕ} {requests : List Q} {answers : List R}

/-- The parties start in step. -/
theorem initial : p.InStep x x.1 x.2 0 0 [] [] where
  client := ⟨x.2, rfl, fun _ => rfl⟩
  server h := absurd rfl h
  requests _ h := nomatch h
  answers _ h := nomatch h

/-- The server is level with the client or one ahead. -/
theorem level (h : p.InStep x client server completed answered requests answers) :
    answered = completed ∨ answered = completed + 1 := by
  by_cases hlevel : answered = completed
  · exact .inl hlevel
  · exact .inr (h.server hlevel).1

/-- The client's next request is the one that follows the completed exchanges. -/
theorem requestAt_eq (h : p.InStep x client server completed answered requests answers) :
    p.requestAt x completed = p.request client := by
  obtain ⟨s, hsync, -⟩ := h.client
  simp [requestAt, hsync]

/-- The server has just served the last request it answered. -/
theorem last (h : p.InStep x client server completed answered requests answers) (hpos : 0 < answered) :
    ∃ r, p.servedAt x (answered - 1) = some (server, r) := by
  rcases h.level with rfl | rfl
  · -- The client took that answer, in the exchange that completed last.
    obtain ⟨s, hsync, hs⟩ := h.client
    obtain rfl := hs rfl
    obtain ⟨n, rfl⟩ := Nat.exists_eq_succ_of_ne_zero (Nat.ne_of_gt hpos)
    obtain ⟨y, hy, hexchange⟩ := Option.bind_eq_some_iff.mp hsync
    obtain ⟨z, hserved, haccept⟩ := Option.bind_eq_some_iff.mp hexchange
    obtain ⟨c, -, hpair⟩ := Option.map_eq_some_iff.mp haccept
    obtain ⟨-, rfl⟩ := Prod.mk.inj hpair
    exact ⟨z.2, by simp [servedAt, hy, hserved]⟩
  · exact (h.server (by omega)).2

/-- Sending the next request once more stays in step. -/
theorem send (h : p.InStep x client server completed answered requests answers) {q : Q}
    (hq : p.request client = some q) :
    p.InStep x client server completed answered (q :: requests) answers := by
  refine ⟨h.client, h.server, fun q' hq' => ?_, h.answers⟩
  rcases List.mem_cons.mp hq' with rfl | hq'
  · exact ⟨completed, Nat.le_refl _, h.requestAt_eq.trans hq⟩
  · exact h.requests q' hq'

/-- Serving the request that follows the answered ones stays in step. -/
theorem serve (h : p.InStep x client server completed answered requests answers) {q : Q}
    (hlevel : answered = completed) (hq : p.requestAt x answered = some q) :
    p.InStep x client (p.serve server q).1 completed (answered + 1) requests answers ∧
      p.servedAt x answered = some (p.serve server q) := by
  obtain ⟨s, hsync, hs⟩ := h.client
  obtain rfl := hs hlevel
  have hserved : p.servedAt x completed = some (p.serve s q) := by
    have hrequest : p.request client = some q := by rw [← h.requestAt_eq, ← hlevel, hq]
    simp [servedAt, hsync, served, hrequest]
  refine ⟨⟨⟨s, hsync, fun heq => by omega⟩, fun _ => ⟨by omega, (p.serve s q).2, hserved⟩,
    h.requests, fun r hr => ?_⟩, hlevel ▸ hserved⟩
  obtain ⟨i, hi, hserve⟩ := h.answers r hr
  exact ⟨i, by omega, hserve⟩

/-- Sending an answer that was given stays in step. -/
theorem answer (h : p.InStep x client server completed answered requests answers) {i : ℕ} {s : S} {r : R}
    (hi : i < answered) (hr : p.servedAt x i = some (s, r)) :
    p.InStep x client server completed answered requests (r :: answers) := by
  refine ⟨h.client, h.server, h.requests, fun r' hr' => ?_⟩
  rcases List.mem_cons.mp hr' with rfl | hr'
  · exact ⟨i, hi, s, hr⟩
  · exact h.answers r' hr'

/-- Accepting the answer to the next request stays in step. -/
theorem accept (h : p.InStep x client server completed answered requests answers) {s : S} {r : R} {c : C}
    (hanswered : completed < answered) (hr : p.servedAt x completed = some (s, r))
    (hc : p.accept client r = some c) :
    p.InStep x c server (completed + 1) answered requests answers := by
  obtain ⟨s', hsync, -⟩ := h.client
  obtain ⟨hahead, r', hserver⟩ := h.server (by omega)
  obtain ⟨rfl, rfl⟩ : s = server ∧ r = r' := by simpa using hr.symm.trans hserver
  have hserved : p.served (client, s') = some (s, r) := by simpa [servedAt, hsync] using hr
  have hnext : p.sync x (completed + 1) = some (c, s) := by
    simp [sync, hsync, exchange, hserved, hc]
  refine ⟨⟨s, hnext, fun _ => rfl⟩, fun hne => absurd hahead hne, fun q hq => ?_, h.answers⟩
  obtain ⟨i, hi, hrequest⟩ := h.requests q hq
  exact ⟨i, by omega, hrequest⟩

end InStep

end StopAndWait
