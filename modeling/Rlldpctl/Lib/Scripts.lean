import Rlldpctl.Lib.Exchange
import Rlldpctl.Lib.Polling

/-!
# Programs of operations

A client that runs a program of many operations, each called when the one before has returned. The program
is one future on the connection, of which no poll shows where an operation ends. `Script` is the program as
a tree of operations, and `Protocol.Runs` says that a future runs it.

Every state of such a client and the server is a state of `Exchange` in which the script has been played so
far (`simulates`). So the operations of a program that has returned were answered one after another
(`explained`).
-/

namespace Async
namespace Fut

variable {α β : Type}

/-- What a future has returned. -/
def result? : Fut α → Option α
  | .done a => some a
  | _ => none

/-- A future with a result is done. -/
lemma result?_eq_some {x : Fut α} {a : α} (h : x.result? = some a) : x = .done a := by
  cases x with
  | done b => rw [Option.some.inj h]
  | read n k => cases h
  | write bs k => cases h

/-- A future that waits for something. -/
inductive Suspended : Fut α → Prop where
  | read (n : Nat) (k : Option (List UInt8) → Fut α) : Suspended (.read (n + 1) k)
  | write (b : UInt8) (bs : List UInt8) (k : Fut α) : Suspended (.write (b :: bs) k)

/-- A future that is not done when it is polled waits for something. -/
lemma settle_cases (x : Fut α) : (∃ a, x.settle = .done a) ∨ Suspended x.settle := by
  induction x with
  | done a => exact .inl ⟨a, rfl⟩
  | read n k ih =>
    cases n with
    | zero => exact ih _
    | succ n => exact .inr (.read n k)
  | write bs k ih =>
    cases bs with
    | nil => exact ih
    | cons b bs => exact .inr (.write b bs k)

/-- Settling first changes nothing in the end. -/
lemma settle_bind (x : Fut α) (f : α → Fut β) : (x.settle >>= f).settle = (x >>= f).settle := by
  induction x with
  | done a => rfl
  | read n k ih =>
    cases n with
    | zero => exact ih _
    | succ n => rfl
  | write bs k ih =>
    cases bs with
    | nil => exact ih
    | cons b bs => rfl

/-- What writes is not done. -/
lemma ne_done_of_put {x : Fut α} {n : Nat} {p : List UInt8 × Fut α} (h : x.put n = some p) (a : α) :
    x ≠ .done a := by
  rintro rfl
  cases h

/-- What reads is not done. -/
lemma ne_done_of_take {x y : Fut α} {bs : List UInt8} (h : x.take bs = some y) (a : α) :
    x ≠ .done a := by
  rintro rfl
  cases h

namespace Suspended
variable {x : Fut α} (h : Suspended x) (f : α → Fut β)
include h

/-- What waits is not done. -/
lemma ne_done (a : α) : x ≠ .done a := by
  intro hx
  rw [hx] at h
  cases h

/-- What waits goes on waiting with something behind it. -/
lemma bind : Suspended (x >>= f) := by
  cases h with
  | read n k => exact .read n _
  | write b bs k => exact .write b bs _

/-- What waits has settled. -/
lemma settle : x.settle = x := by
  cases h <;> rfl

/-- What is taken of a write is taken of the first part of a program. -/
lemma put (n : Nat) : (x >>= f).put n = (x.put n).map fun p => (p.1, (p.2 >>= f).settle) := by
  cases h with
  | read n k => rfl
  | write b bs k =>
    show (Fut.write (b :: bs) (k.bind f)).put n = _
    rw [Fut.put, Fut.put]
    split
    · rw [Option.map_some, settle_bind]
      rfl
    · rfl

/-- What is handed to a read is handed to the first part of a program. -/
lemma take (bs : List UInt8) : (x >>= f).take bs = (x.take bs).map fun y => (y >>= f).settle := by
  cases h with
  | write b cs k => rfl
  | read n k =>
    show (Fut.read (n + 1) fun more => (k more).bind f).take bs = _
    rw [Fut.take, Fut.take]
    split
    · rw [Option.map_some, settle_bind]
      rfl
    · rfl

end Suspended

end Fut
end Async

namespace Exchange
open Async Transitions

variable {ι μ ρ σ α : Type}

/-! ## Scripts -/

/-- A program that calls operations, each with the results of those before it. -/
inductive Script (ι ρ α : Type) where
  | done (a : α)
  | call (i : ι) (k : ρ → Script ι ρ α)

/-- The operations lead from one script to another. -/
inductive Played : Script ι ρ α → List (Completed ι ρ) → Script ι ρ α → Prop where
  | nil {x : Script ι ρ α} : Played x [] x
  | cons {c : Completed ι ρ} {k : ρ → Script ι ρ α} {cs : List (Completed ι ρ)}
    {y : Script ι ρ α} :
    Played (k c.result) cs y →
    Played (.call c.op k) (c :: cs) y

/-- One call more was played. -/
lemma Played.snoc {x y : Script ι ρ α} {cs : List (Completed ι ρ)} (h : Played x cs y)
    {c : Completed ι ρ} {k : ρ → Script ι ρ α} (hy : y = .call c.op k) :
    Played x (cs ++ [c]) (k c.result) := by
  induction h with
  | nil =>
    rw [hy]
    exact .cons .nil
  | cons _ ih => exact .cons (ih hy)

/-- The calls after the first one. -/
lemma Played.cons_inv {i : ι} {k : ρ → Script ι ρ α} {c : Completed ι ρ} {cs : List (Completed ι ρ)}
    {y : Script ι ρ α} (h : Played (.call i k) (c :: cs) y) : Played (k c.result) cs y := by
  cases h with
  | cons hrest => exact hrest

/-- The operations that have returned determine what is left of the script. -/
lemma Played.unique {x y y' : Script ι ρ α} {cs : List (Completed ι ρ)} (h : Played x cs y)
    (h' : Played x cs y') : y = y' := by
  induction h with
  | nil =>
    cases h'
    rfl
  | cons _ ih => exact ih h'.cons_inv

/-- A script that begins with a call has played this call first. -/
lemma Played.call_inv {i : ι} {k : ρ → Script ι ρ α} {cs : List (Completed ι ρ)} {a : α}
    (h : Played (.call i k) cs (.done a)) :
    ∃ c cs', cs = c :: cs' ∧ c.op = i ∧ Played (k c.result) cs' (.done a) := by
  cases h with
  | cons hrest => exact ⟨_, _, rfl, rfl, hrest⟩

/-- A script that is done plays nothing. -/
lemma Played.done_inv {a b : α} {cs : List (Completed ι ρ)}
    (h : Played (.done a : Script ι ρ α) cs (.done b)) : cs = [] ∧ a = b := by
  cases h with
  | nil => exact ⟨rfl, rfl⟩

/-! ## The system -/

/-- A client that runs one future, and the server. -/
structure Talk (μ α σ : Type) where
  server : σ
  history : List (Moment σ μ)
  sent : List UInt8
  parsed : Nat
  wire : List UInt8
  arrived : List UInt8
  fut : Fut α

/-- What can happen while a script runs. -/
inductive Turn (μ σ : Type) where
  | write (n : Nat)
  | answer (m : μ) (after : σ)
  | notify (m : μ) (after : σ)
  | change (after : σ)
  | arrive (n : Nat)
  | poll (n : Nat)

/-- Nothing was sent, and the script has begun. -/
def Talk.start (server : σ) (x : Fut α) : Talk μ α σ := ⟨server, [], [], 0, [], [], x.settle⟩

/-- A turn as an event of `Exchange`. -/
def Turn.event : Turn μ σ → Event ι μ σ
  | .write n => .write n
  | .answer m after => .answer m after
  | .notify m after => .notify m after
  | .change after => .change after
  | .arrive n => .arrive n
  | .poll n => .poll n

/-- Nothing is dropped. -/
lemma Turn.event_ne_drop (e : Turn μ σ) : (e.event : Event ι μ σ) ≠ .drop := by
  intro h
  cases e <;> cases h

/-- The connection in a state of `Exchange`, with another future. -/
def State.talk (s : State ι μ ρ σ) (x : Fut α) : Talk μ α σ :=
  ⟨s.server, s.history, s.sent, s.parsed, s.wire, s.arrived, x⟩

/-- A future that waits goes on pending. -/
lemma State.resume_suspended {fut : Fut ρ} (h : fut.Suspended) (s : State ι μ ρ σ) (p : Pending ι ρ) :
    s.resume p fut = { s with pending := some { p with fut := fut } } := by
  cases h <;> rfl

namespace Protocol
variable (P : Protocol ι μ ρ)

/-- The server sends a message. -/
def send (t : Talk μ α σ) (m : Sent σ μ) : Talk μ α σ :=
  { t with
    server := m.after
    history := t.history ++ [.sent m]
    wire := t.wire ++ P.bytes m.message }

/-- What a turn does, when it can be taken. -/
def turn (t : Talk μ α σ) : Turn μ σ → Option (Talk μ α σ)
  | .write n => (t.fut.put n).map fun p => { t with sent := t.sent ++ p.1, fut := p.2 }
  | .answer m after =>
    (P.front (t.sent.drop t.parsed)).map fun n =>
      { P.send t ⟨t.server, some ((t.sent.drop t.parsed).take n), m, after⟩ with
        parsed := t.parsed + n }
  | .notify m after => some (P.send t ⟨t.server, none, m, after⟩)
  | .change after =>
    some { t with server := after, history := t.history ++ [.change t.server after] }
  | .arrive n => some { t with arrived := t.arrived ++ t.wire.take n, wire := t.wire.drop n }
  | .poll n =>
    (t.fut.take (t.arrived.take n)).map fun fut => { t with arrived := t.arrived.drop n, fut }

/-- The server does what it may, and sends messages unasked only to a subscriber. -/
def Fair (S : Service σ μ) (t : Talk μ α σ) : Turn μ σ → Prop
  | .answer m after => ∀ n ∈ P.front (t.sent.drop t.parsed),
      S.answers t.server ((t.sent.drop t.parsed).take n) m after
  | .notify m after =>
    (∃ e ∈ sends t.history, ∃ request ∈ e.1.request, P.opens request) ∧ S.notifies t.server m after
  | .change after => S.changes t.server after
  | _ => True

section
variable [∀ request, Decidable (P.opens request)]

/-- What is fair is decided by what the server may do. -/
instance (S : Service σ μ) [∀ server request m after, Decidable (S.answers server request m after)]
    [∀ server m after, Decidable (S.notifies server m after)]
    [∀ server after, Decidable (S.changes server after)] (t : Talk μ α σ) (e : Turn μ σ) :
    Decidable (P.Fair S t e) :=
  match e with
  | .answer m after => inferInstanceAs (Decidable (∀ n ∈ P.front (t.sent.drop t.parsed),
      S.answers t.server ((t.sent.drop t.parsed).take n) m after))
  | .notify m after => inferInstanceAs (Decidable (
      (∃ e ∈ sends t.history, ∃ request ∈ e.1.request, P.opens request) ∧
        S.notifies t.server m after))
  | .change after => inferInstanceAs (Decidable (S.changes t.server after))
  | .write _ | .arrive _ | .poll _ => instDecidableTrue

end

/-- The future runs the script, where `handed` says that an operation that opens a subscription was called.
Nothing is asked of it after a result that no message gives. -/
def Runs : Prop → Script ι ρ α → Fut α → Prop
  | _, .done a, x => x = .done a
  | handed, .call i k, x =>
    (handed ↔ P.request i = []) ∧
      ∃ k', x = P.prog i >>= k' ∧
        ∀ m, Runs (handed ∨ P.opens (P.request i)) (k (P.outcome i m)) (k' (P.outcome i m))

/-- In a state of `Exchange` the script has been played so far, and the future is what is left of it. -/
def Follows (x : Script ι ρ α) (s : State ι μ ρ σ) (z : Fut α) : Prop :=
  match s.pending with
  | none =>
    ∃ a, Played x s.completed (.done a) ∧ z = .done a ∧ s.used = 0 ∧
      s.called = s.completed.map Completed.op
  | some p =>
    ∃ k k', Played x s.completed (.call p.op k) ∧ z = p.fut >>= k' ∧ p.fut.Suspended ∧
      s.called = s.completed.map Completed.op ++ [p.op] ∧
      ∀ m, P.Runs (P.Handed s) (k (P.outcome p.op m)) (k' (P.outcome p.op m))

/-- After `s` the script goes on in `s'`: when an operation has returned the next one was called. -/
structure GoesOn (S : Service σ μ) (σ₀ : σ) (x : Script ι ρ α) (s s' : State ι μ ρ σ) (z : Fut α) :
    Prop where
  reach : Reach P.step (P.Allowed S) (.init σ₀) s'
  follows : P.Follows x s' z
  completed : s'.completed = s.completed
  same : s.pending ≠ none → s' = s

variable {P} {S : Service σ μ} {σ₀ : σ} {x : Script ι ρ α}

/-! ## Simulation -/

section
variable {s : State ι μ ρ σ} {p : Pending ι ρ} {fut : Fut ρ} {n : Nat} (hpending : s.pending = some p)
include hpending

/-- What a write does in the session. -/
lemma step_write {bs : List UInt8} (hput : p.fut.put n = some (bs, fut)) :
    P.step s (.write n) =
      some ({ s with sent := s.sent ++ bs, used := s.used + bs.length }.resume p fut) := by
  rw [step, hpending]
  dsimp only
  rw [hput]

/-- What a poll does in the session. -/
lemma step_poll (htake : p.fut.take (s.arrived.take n) = some fut) :
    P.step s (.poll n) = some ({ s with
      arrived := s.arrived.drop n, used := s.used + (s.arrived.take n).length }.resume p fut) := by
  rw [step, hpending]
  dsimp only
  rw [htake]

end

/-- An operation that writes, or has written its request, waits for something. -/
lemma suspended_body (i : ι) : (P.body i).Suspended := by
  obtain ⟨n, k, hbody⟩ := P.awaits i
  rw [hbody]
  exact .read n k

/-- A write waits, and so does what comes after it. -/
lemma suspended_write (i : ι) (bs : List UInt8) : (Fut.write bs (P.body i)).settle.Suspended := by
  cases bs with
  | nil =>
    rw [settle_write_nil]
    exact suspended_body i
  | cons b bs => exact .write b bs _

/-- An operation waits for something when it is called. -/
lemma suspended_prog (i : ι) : (P.prog i).settle.Suspended := by
  rw [P.settle_prog]
  exact suspended_write i (P.request i)

/-- What returned was made of a message. -/
lemma exists_explains {cs : List (Completed ι ρ)} {es : List (Sent σ μ × Nat)}
    (h : List.Forall₂ P.Explains cs es) {c : Completed ι ρ} (hc : c ∈ cs) :
    ∃ e ∈ es, P.Explains c e := by
  induction h with
  | nil => cases hc
  | @cons c' e cs es hexplains _ ih =>
    obtain rfl | hc := List.mem_cons.mp hc
    · exact ⟨e, List.mem_cons_self, hexplains⟩
    · obtain ⟨e', he', hexplains'⟩ := ih hc
      exact ⟨e', List.mem_cons_of_mem e he', hexplains'⟩

/-- The requests that were answered are those of the operations that returned. -/
lemma requests_of_explains {cs : List (Completed ι ρ)} {es : List (Sent σ μ × Nat)}
    (h : List.Forall₂ P.Explains cs es) (hne : ∀ c ∈ cs, P.request c.op ≠ []) :
    es.map (·.1.request) = cs.map fun c => some (P.request c.op) := by
  induction h with
  | nil => rfl
  | @cons c e cs es hexplains _ ih =>
    obtain ⟨hhead, htail⟩ := List.forall_mem_cons.mp hne
    have hrequest : e.1.request = some (P.request c.op) := by
      have hbelongs := hexplains.1
      unfold Belongs at hbelongs
      cases hr : e.1.request with
      | none =>
        rw [hr] at hbelongs
        exact absurd hbelongs hhead
      | some request =>
        rw [hr] at hbelongs
        rw [hbelongs.2.1]
    rw [List.map_cons, List.map_cons, ih htail, hrequest]

/-- One more operation was called. -/
lemma handed_snoc {s s' : State ι μ ρ σ} {i : ι} (h : s'.called = s.called ++ [i]) :
    P.Handed s' = (P.Handed s ∨ P.opens (P.request i)) := by
  unfold Handed
  simp only [h, List.mem_append, List.mem_singleton, or_and_right, exists_or, exists_eq_left]

/-- When no operation is pending the script goes on. -/
lemma Follows.begin {s : State ι μ ρ σ} (hreach : Reach P.step (P.Allowed S) (.init σ₀) s)
    (hpending : s.pending = none) (hused : s.used = 0)
    (hcalled : s.called = s.completed.map Completed.op) {y : Script ι ρ α}
    (hplayed : Played x s.completed y) {z : Fut α} (hruns : P.Runs (P.Handed s) y z) :
    ∃ s', s'.talk z.settle = s.talk z.settle ∧ P.GoesOn S σ₀ x s s' z.settle := by
  cases y with
  | done a =>
    refine ⟨s, rfl, hreach, ?_, rfl, fun _ => rfl⟩
    cases hruns
    unfold Follows
    rw [hpending]
    exact ⟨a, hplayed, rfl, hused, hcalled⟩
  | call i k =>
    obtain ⟨hhanded, k', rfl, hk⟩ := hruns
    have hsuspended := suspended_prog (P := P) i
    let p : Pending ι ρ := ⟨i, s.history.length, (P.prog i).settle⟩
    have hallowed : P.Allowed S s (.call i) := ⟨hused, hhanded⟩
    let s' : State ι μ ρ σ := { s with called := s.called ++ [i], pending := some p }
    have hstep : P.step s (.call i) = some s' := by
      rw [step, hpending]
    have hfut : (P.prog i >>= k').settle = p.fut >>= k' := by
      rw [← Fut.settle_bind]
      exact (hsuspended.bind k').settle
    have hfollows : P.Follows x s' (P.prog i >>= k').settle := by
      refine ⟨k, k', hplayed, hfut, hsuspended, ?_, fun m => ?_⟩
      · rw [← hcalled]
      · rw [handed_snoc rfl]
        exact hk m
    exact ⟨s', rfl, hreach.step hallowed hstep, hfollows, rfl, fun hne => absurd hpending hne⟩

/-- A poll of the future is a poll of the pending operation, after which the script goes on when the
operation has returned. -/
lemma Follows.resume {s : State ι μ ρ σ} {p : Pending ι ρ} {fut : Fut ρ}
    (hreach : Reach P.step (P.Allowed S) (.init σ₀) (s.resume p fut))
    (hfut : (∃ r, fut = .done r) ∨ fut.Suspended)
    {k : ρ → Script ι ρ α} {k' : ρ → Fut α} (hplayed : Played x s.completed (.call p.op k))
    (hcalled : s.called = s.completed.map Completed.op ++ [p.op])
    (hruns : ∀ m, P.Runs (P.Handed s) (k (P.outcome p.op m)) (k' (P.outcome p.op m))) :
    ∃ s', s'.talk (fut >>= k').settle = s.talk (fut >>= k').settle ∧
      P.GoesOn S σ₀ x (s.resume p fut) s' (fut >>= k').settle := by
  obtain ⟨r, rfl⟩ | hsuspended := hfut
  · -- the result is what the operation makes of a message
    change Reach P.step (P.Allowed S) (.init σ₀) (s.complete ⟨p.op, p.began, r⟩) at hreach
    obtain ⟨-, hinv⟩ := linearizes hreach
    have hmem : (⟨p.op, p.began, r⟩ : Completed ι ρ) ∈ s.completed ++ [⟨p.op, p.began, r⟩] :=
      List.mem_append_right _ (List.mem_singleton_self _)
    obtain ⟨e, -, -, hr⟩ := exists_explains hinv.paired hmem
    have hnext := hruns e.1.message
    rw [← show r = P.outcome p.op e.1.message from hr] at hnext
    have hcalled' : s.called =
        (s.completed ++ [(⟨p.op, p.began, r⟩ : Completed ι ρ)]).map Completed.op := by
      rw [hcalled, List.map_append]
      rfl
    exact Follows.begin hreach rfl rfl hcalled' (hplayed.snoc (c := ⟨p.op, p.began, r⟩) rfl) hnext
  · rw [State.resume_suspended hsuspended] at hreach ⊢
    let s' : State ι μ ρ σ := { s with pending := some { p with fut := fut } }
    have hfollows : P.Follows x s' (fut >>= k').settle :=
      ⟨k, k', hplayed, (hsuspended.bind k').settle, hsuspended, hcalled, hruns⟩
    exact ⟨s', rfl, hreach, hfollows, rfl, fun _ => rfl⟩

/-- A future that is not done is that of the pending operation and what comes after it. -/
lemma Follows.pending {s : State ι μ ρ σ} {z : Fut α} (h : P.Follows x s z) (hz : ∀ a, z ≠ .done a) :
    ∃ p k k', s.pending = some p ∧ Played x s.completed (.call p.op k) ∧ z = p.fut >>= k' ∧
      p.fut.Suspended ∧ s.called = s.completed.map Completed.op ++ [p.op] ∧
      ∀ m, P.Runs (P.Handed s) (k (P.outcome p.op m)) (k' (P.outcome p.op m)) := by
  unfold Follows at h
  cases hpending : s.pending with
  | none =>
    rw [hpending] at h
    obtain ⟨a, -, hdone, -⟩ := h
    exact absurd hdone (hz a)
  | some p =>
    rw [hpending] at h
    obtain ⟨k, k', h⟩ := h
    exact ⟨p, k, k', rfl, h⟩

/-- When the future is done all operations have returned. -/
lemma Follows.returned {s : State ι μ ρ σ} {a : α} (h : P.Follows x s (.done a)) :
    s.pending = none ∧ Played x s.completed (.done a) ∧ s.used = 0 ∧
      s.called = s.completed.map Completed.op := by
  unfold Follows at h
  cases hpending : s.pending with
  | none =>
    rw [hpending] at h
    obtain ⟨b, hplayed, hb, hrest⟩ := h
    cases hb
    exact ⟨rfl, hplayed, hrest⟩
  | some p =>
    rw [hpending] at h
    obtain ⟨k, k', -, hdone, hsuspended, -⟩ := h
    exact absurd hdone.symm ((hsuspended.bind k').ne_done a)

section
variable {s : State ι μ ρ σ} {z : Fut α} {t' : Talk μ α σ}
  (hreach : Reach P.step (P.Allowed S) (.init σ₀) s) (h : P.Follows x s z)
include hreach h

/-- A turn of the client and the server is a step of `Exchange`, after which the next operation may start. -/
lemma simulates_turn {e : Turn μ σ} (hfair : P.Fair S (s.talk z) e)
    (hturn : P.turn (s.talk z) e = some t') :
    ∃ s₁ s' z', P.Allowed S s e.event ∧ P.step s e.event = some s₁ ∧ t' = s'.talk z' ∧
      P.GoesOn S σ₀ x s₁ s' z' := by
  cases e with
  | answer m after =>
    obtain ⟨n, hfront, rfl⟩ := Option.map_eq_some_iff.mp hturn
    have hallowed : P.Allowed S s (.answer m after) := hfair
    have hstep : P.step s (.answer m after) = some
        { P.push s ⟨s.server, some ((s.sent.drop s.parsed).take n), m, after⟩ with
          parsed := s.parsed + n } := by
      change P.front (s.sent.drop s.parsed) = some n at hfront
      rw [step, hfront]
    exact ⟨_, _, z, hallowed, hstep, rfl, hreach.step hallowed hstep, h, rfl, fun _ => rfl⟩
  | notify m after =>
    cases hturn
    exact ⟨_, _, z, hfair, rfl, rfl, hreach.step (e := .notify m after) hfair rfl, h, rfl, fun _ => rfl⟩
  | change after =>
    cases hturn
    exact ⟨_, _, z, hfair, rfl, rfl, hreach.step (e := .change after) hfair rfl, h, rfl, fun _ => rfl⟩
  | arrive n =>
    cases hturn
    exact ⟨_, _, z, trivial, rfl, rfl, hreach.step (e := .arrive n) trivial rfl, h, rfl, fun _ => rfl⟩
  | write n =>
    obtain ⟨⟨bs', z'⟩, hput, rfl⟩ := Option.map_eq_some_iff.mp hturn
    obtain ⟨p, k, k', hpending, hplayed, rfl, hsuspended, hcalled, hruns⟩ :=
      h.pending (Fut.ne_done_of_put hput)
    have hput' := (hsuspended.put k' n).symm.trans hput
    obtain ⟨⟨bs, fut⟩, hfirst, heq⟩ := Option.map_eq_some_iff.mp hput'
    cases heq
    have hstep := step_write (P := P) hpending hfirst
    have hfut : (∃ r, fut = .done r) ∨ fut.Suspended := by
      rw [← Fut.settled_put hfirst]
      exact fut.settle_cases
    obtain ⟨s', htalk, hon⟩ := Follows.resume
      (s := { s with sent := s.sent ++ bs, used := s.used + bs.length })
      (hreach.step (e := .write n) trivial hstep) hfut hplayed hcalled hruns
    exact ⟨_, s', _, trivial, hstep, htalk.symm, hon⟩
  | poll n =>
    obtain ⟨z', htake, rfl⟩ := Option.map_eq_some_iff.mp hturn
    obtain ⟨p, k, k', hpending, hplayed, rfl, hsuspended, hcalled, hruns⟩ :=
      h.pending (Fut.ne_done_of_take htake)
    have htake' := (hsuspended.take k' _).symm.trans htake
    obtain ⟨fut, hfirst, rfl⟩ := Option.map_eq_some_iff.mp htake'
    have hstep := step_poll (P := P) hpending hfirst
    have hfut : (∃ r, fut = .done r) ∨ fut.Suspended := by
      rw [← Fut.settled_take hfirst]
      exact fut.settle_cases
    obtain ⟨s', htalk, hon⟩ := Follows.resume
      (s := { s with arrived := s.arrived.drop n, used := s.used + (s.arrived.take n).length })
      (hreach.step (e := .poll n) trivial hstep) hfut hplayed hcalled hruns
    exact ⟨_, s', _, trivial, hstep, htalk.symm, hon⟩

end

/-- The client starts with a call of the first operation. -/
lemma Follows.start (S : Service σ μ) (σ₀ : σ) {z : Fut α} (hruns : P.Runs False x z) :
    ∃ s', s'.talk z.settle = .start σ₀ z ∧ P.GoesOn S σ₀ x (.init σ₀) s' z.settle := by
  have hnone : P.Handed (State.init σ₀ : State ι μ ρ σ) = False :=
    eq_false fun ⟨i, hi, _⟩ => (List.not_mem_nil hi).elim
  rw [← hnone] at hruns
  exact Follows.begin .init rfl rfl rfl .nil hruns

/-- Every state of a client that runs a script is one of `Exchange` in which the script has been played so
far. -/
lemma simulates {z : Fut α} (hruns : P.Runs False x z) {t : Talk μ α σ}
    (h : Reach P.turn (P.Fair S) (.start σ₀ z) t) :
    ∃ s z', Reach P.step (P.Allowed S) (.init σ₀) s ∧ t = s.talk z' ∧ P.Follows x s z' := by
  induction h with
  | init =>
    obtain ⟨s, htalk, hon⟩ := Follows.start S σ₀ hruns
    exact ⟨s, _, hon.reach, htalk.symm, hon.follows⟩
  | step _ hfair hturn ih =>
    obtain ⟨s, z', hreach, rfl, hfollows⟩ := ih
    obtain ⟨_, s', z'', -, -, htalk, hon⟩ := simulates_turn hreach hfollows hfair hturn
    exact ⟨s', z'', hon.reach, htalk, hon.follows⟩

/-- What the future has done is what its run does on the bytes it has taken, which are the first that the
server sent. -/
lemma replays {z : Fut α} {t : Talk μ α σ} (h : Reach P.turn (P.Fair S) (.start σ₀ z) t) :
    ∃ taken, taken ++ (t.arrived ++ t.wire) = (sends t.history).flatMap (P.bytes ·.1.message) ∧
      ∀ input, z.run (taken ++ input) =
        { t.fut.run input with written := t.sent ++ (t.fut.run input).written } := by
  induction h with
  | init => exact ⟨[], rfl, fun input => (Fut.run_settle z input).symm⟩
  | @step t t' e _ hfair hturn ih =>
    obtain ⟨taken, hstream, hrun⟩ := ih
    have hpush : ∀ m : Sent σ μ, taken ++ (t.arrived ++ (t.wire ++ P.bytes m.message)) =
        (sends (t.history ++ [.sent m])).flatMap (P.bytes ·.1.message) := by
      intro m
      rw [sends_sent, List.flatMap_append, ← hstream, List.flatMap_singleton]
      simp only [List.append_assoc]
    cases e with
    | answer m after =>
      obtain ⟨n, -, rfl⟩ := Option.map_eq_some_iff.mp hturn
      exact ⟨taken, hpush _, hrun⟩
    | notify m after =>
      cases hturn
      exact ⟨taken, hpush _, hrun⟩
    | change after =>
      cases hturn
      refine ⟨taken, ?_, hrun⟩
      rw [sends_change]
      exact hstream
    | arrive n =>
      cases hturn
      refine ⟨taken, ?_, hrun⟩
      show taken ++ (t.arrived ++ t.wire.take n ++ t.wire.drop n) = _
      rw [List.append_assoc, List.take_append_drop]
      exact hstream
    | write n =>
      obtain ⟨⟨bs, fut⟩, hput, rfl⟩ := Option.map_eq_some_iff.mp hturn
      refine ⟨taken, hstream, fun input => ?_⟩
      rw [hrun, Fut.run_put hput]
      simp only [List.append_assoc]
    | poll n =>
      obtain ⟨fut, htake, rfl⟩ := Option.map_eq_some_iff.mp hturn
      refine ⟨taken ++ t.arrived.take n, ?_, fun input => ?_⟩
      · show taken ++ t.arrived.take n ++ (t.arrived.drop n ++ t.wire) = _
        rw [List.append_assoc, ← List.append_assoc (t.arrived.take n), List.take_append_drop]
        exact hstream
      · rw [List.append_assoc, hrun, Fut.run_take htake]

/-- When a program has returned, its operations were answered one after another, in a legal history of the
server, and nothing else was sent unless one of them opened a subscription. -/
theorem explained {z : Fut α} (hruns : P.Runs False x z) {t : Talk μ α σ}
    (h : Reach P.turn (P.Fair S) (.start σ₀ z) t) {a : α} (hdone : t.fut = .done a) :
    Legal S σ₀ t.history t.server ∧
      ∃ completed, Played x completed (.done a) ∧
        List.Forall₂ P.Explains completed ((sends t.history).take completed.length) ∧
        (completed.length = (sends t.history).length ∧ t.arrived ++ t.wire = [] ∨
          ∃ c ∈ completed, P.opens (P.request c.op)) := by
  obtain ⟨s, z', hreach, rfl, hfollows⟩ := simulates hruns h
  obtain ⟨hlegal, hinv⟩ := linearizes hreach
  obtain rfl : z' = .done a := hdone
  obtain ⟨hpending, hplayed, hused, hcalled⟩ := hfollows.returned
  refine ⟨hlegal, s.completed, hplayed, hinv.paired, ?_⟩
  have hlive : ∀ p, ¬ Live s p := by
    rintro p (hp | ⟨-, hne⟩)
    · rw [hpending] at hp
      cases hp
    · exact hne hused
  cases hinv.phase with
  | asking p written rest ha => exact absurd ha.live (hlive p)
  | reading p got hr => exact absurd hr.live (hlive p)
  | idle hi =>
    obtain hnil | ⟨i, hmem, hopens⟩ := hi.handed
    · have hstream := hi.stream
      rw [hnil] at hstream
      exact .inl ⟨Nat.le_antisymm hinv.paired.le (List.drop_eq_nil_iff.mp hnil), hstream⟩
    · rw [hcalled] at hmem
      obtain ⟨c, hc, rfl⟩ := List.mem_map.mp hmem
      exact .inr ⟨c, hc, hopens⟩

end Protocol

end Exchange
