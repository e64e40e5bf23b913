import Mathlib.Data.List.Forall2
import Mathlib.Data.List.Induction
import Rlldpctl.Lib.Async
import Rlldpctl.Lib.Transitions

/-!
# Exchanges over a byte stream

A client with at most one pending operation, and a server, on one connection. An operation writes its
request and reads one message; after an operation that opens a subscription, operations only read. The
server answers the requests in what was written to it, one after another, sends messages unasked once it
has answered a request that opens a subscription, and changes by itself. Bytes are written, arrive and are
read in any portions, and the client may drop the pending operation.

When no operation is called after one that was dropped halfway, the operations that return and the
messages of the server are paired in order (`linearizes`): the client sees the server as if each operation
took place at the one moment at which it is answered.
-/

namespace Exchange
open Async Transitions

/-- Operations `ι` with results `ρ`, and messages `μ`. An operation writes `request`, which is nothing when
it only waits for a message, and then runs `body`. -/
structure Protocol (ι μ ρ : Type) where
  prog : ι → Fut ρ
  request : ι → List UInt8
  body : ι → Fut ρ
  bytes : μ → List UInt8
  /-- What an operation makes of a message. -/
  outcome : ι → μ → ρ
  /-- The length of the request in front, when it is complete. -/
  front : List UInt8 → Option Nat
  /-- The request opens a subscription. -/
  opens : List UInt8 → Prop
  settle_prog : ∀ i, (prog i).settle = (Fut.write (request i) (body i)).settle
  reads : ∀ i, Fut.Reads (body i)
  awaits : ∀ i, ∃ n k, body i = .read (n + 1) k
  takes : ∀ i m rest, (body i).run (bytes m ++ rest) = ⟨outcome i m, rest, []⟩
  front_nil : front [] = none
  front_request : ∀ i, request i ≠ [] → front (request i) = some (request i).length
  front_part : ∀ i written rest, written ++ rest = request i → rest ≠ [] → front written = none

/-- What a server with the states `σ` may do. -/
structure Service (σ μ : Type) where
  answers : σ → List UInt8 → μ → σ → Prop
  notifies : σ → μ → σ → Prop
  changes : σ → σ → Prop

variable {ι μ ρ σ : Type}

/-! ## Histories -/

/-- A message of the server: the request it answers, if any, and the states around it. -/
structure Sent (σ μ : Type) where
  before : σ
  request : Option (List UInt8)
  message : μ
  after : σ

/-- What happens to the server at one moment. -/
inductive Moment (σ μ : Type) where
  | sent (m : Sent σ μ)
  | change (before after : σ)

/-- The server before a moment. -/
def Moment.before : Moment σ μ → σ
  | .sent m => m.before
  | .change before _ => before

/-- The server after a moment. -/
def Moment.after : Moment σ μ → σ
  | .sent m => m.after
  | .change _ after => after

/-- The server may do this. -/
def Service.Permits (S : Service σ μ) : Moment σ μ → Prop
  | .sent m =>
    match m.request with
    | some request => S.answers m.before request m.message m.after
    | none => S.notifies m.before m.message m.after
  | .change before after => S.changes before after

/-- A history of the server from `σ₀`. -/
inductive Legal (S : Service σ μ) (σ₀ : σ) : List (Moment σ μ) → σ → Prop where
  | init : Legal S σ₀ [] σ₀
  | act {history : List (Moment σ μ)} {m : Moment σ μ} :
    Legal S σ₀ history m.before →
    S.Permits m →
    Legal S σ₀ (history ++ [m]) m.after

/-- Every moment of a legal history is permitted. -/
lemma Legal.permits {S : Service σ μ} {σ₀ server : σ} {history : List (Moment σ μ)}
    (h : Legal S σ₀ history server) {m : Moment σ μ} (hm : m ∈ history) : S.Permits m := by
  induction h with
  | init => cases hm
  | act _ hpermits ih =>
    obtain hm | hm := List.mem_append.mp hm
    · exact ih hm
    · rw [List.mem_singleton.mp hm]
      exact hpermits

/-- The messages in a history and when they were sent. -/
def sends (history : List (Moment σ μ)) : List (Sent σ μ × Nat) :=
  history.zipIdx.filterMap fun p =>
    match p.1 with
    | .sent m => some (m, p.2)
    | .change _ _ => none

/-- A message is the last one sent. -/
@[simp] lemma sends_sent (history : List (Moment σ μ)) (m : Sent σ μ) :
    sends (history ++ [.sent m]) = sends history ++ [(m, history.length)] := by
  rw [sends, List.zipIdx_append, List.filterMap_append, Nat.zero_add]
  rfl

/-- A change sends nothing. -/
@[simp] lemma sends_change (history : List (Moment σ μ)) (before after : σ) :
    sends (history ++ [.change before after]) = sends history := by
  rw [sends, List.zipIdx_append, List.filterMap_append]
  exact List.append_nil _

/-- A message is in the history at the time it was sent. -/
lemma getElem?_of_mem_sends {history : List (Moment σ μ)} {e : Sent σ μ × Nat}
    (h : e ∈ sends history) : history[e.2]? = some (.sent e.1) := by
  obtain ⟨⟨m, j⟩, hmem, hm⟩ := List.mem_filterMap.mp h
  cases m with
  | change before after => cases hm
  | sent m =>
    cases hm
    exact List.mem_zipIdx_iff_getElem?.mp hmem

/-- Messages are sent one after another. -/
lemma pairwise_sends (history : List (Moment σ μ)) :
    (sends history).Pairwise fun e e' => e.2 < e'.2 := by
  induction history using List.reverseRecOn with
  | nil => exact .nil
  | append_singleton history m ih =>
    cases m with
    | change before after =>
      rw [sends_change]
      exact ih
    | sent m =>
      rw [sends_sent, List.pairwise_append]
      refine ⟨ih, List.pairwise_singleton _ _, fun e he e' he' => ?_⟩
      obtain ⟨hlt, -⟩ := List.getElem?_eq_some_iff.mp (getElem?_of_mem_sends he)
      rw [List.mem_singleton.mp he']
      exact hlt

/-- What was sent is in the history. -/
lemma mem_of_mem_sends {history : List (Moment σ μ)} {e : Sent σ μ × Nat} (h : e ∈ sends history) :
    .sent e.1 ∈ history :=
  List.mem_of_getElem? (getElem?_of_mem_sends h)

/-! ## The system -/

/-- An operation that has not returned, and how much had happened when it was called. -/
structure Pending (ι ρ : Type) where
  op : ι
  began : Nat
  fut : Fut ρ

/-- An operation that has returned. -/
structure Completed (ι ρ : Type) where
  op : ι
  began : Nat
  result : ρ

/-- `sent` is all that was written, of which the server has taken `parsed` bytes; `wire` is what of its
messages has not arrived, `arrived` what has not been read. `used` is how many bytes operations have written
and read since the last that returned. -/
structure State (ι μ ρ σ : Type) where
  server : σ
  history : List (Moment σ μ)
  called : List ι
  sent : List UInt8
  parsed : Nat
  wire : List UInt8
  arrived : List UInt8
  pending : Option (Pending ι ρ)
  used : Nat
  completed : List (Completed ι ρ)

/-- What can happen. -/
inductive Event (ι μ σ : Type) where
  | call (i : ι)
  | write (n : Nat)
  | answer (m : μ) (after : σ)
  | notify (m : μ) (after : σ)
  | change (after : σ)
  | arrive (n : Nat)
  | poll (n : Nat)
  | drop

/-- Nothing was called or sent. -/
def State.init (server : σ) : State ι μ ρ σ := ⟨server, [], [], [], 0, [], [], none, 0, []⟩

/-- The pending operation returns. -/
def State.complete (s : State ι μ ρ σ) (c : Completed ι ρ) : State ι μ ρ σ :=
  { s with pending := none, used := 0, completed := s.completed ++ [c] }

/-- The operation `p` after a poll that has changed it to `fut`. -/
def State.resume (s : State ι μ ρ σ) (p : Pending ι ρ) (fut : Fut ρ) : State ι μ ρ σ :=
  match fut with
  | .done r => s.complete ⟨p.op, p.began, r⟩
  | fut => { s with pending := some { p with fut := fut } }

/-- The server changes by itself. -/
def State.change (s : State ι μ ρ σ) (after : σ) : State ι μ ρ σ :=
  { s with server := after, history := s.history ++ [.change s.server after] }

/-- The messages that have not been returned. -/
def State.outstanding (s : State ι μ ρ σ) : List (Sent σ μ × Nat) :=
  (sends s.history).drop s.completed.length

namespace Protocol
variable (P : Protocol ι μ ρ)

/-- The server sends a message. -/
def push (s : State ι μ ρ σ) (m : Sent σ μ) : State ι μ ρ σ :=
  { s with
    server := m.after
    history := s.history ++ [.sent m]
    wire := s.wire ++ P.bytes m.message }

/-- What an event does, when it can happen. -/
def step (s : State ι μ ρ σ) : Event ι μ σ → Option (State ι μ ρ σ)
  | .call i =>
    match s.pending with
    | some _ => none
    | none =>
      some { s with
        called := s.called ++ [i]
        pending := some ⟨i, s.history.length, (P.prog i).settle⟩ }
  | .write n =>
    match s.pending with
    | none => none
    | some p =>
      match p.fut.put n with
      | none => none
      | some (bs, fut) =>
        some ({ s with sent := s.sent ++ bs, used := s.used + bs.length }.resume p fut)
  | .answer m after =>
    match P.front (s.sent.drop s.parsed) with
    | none => none
    | some n =>
      let request := (s.sent.drop s.parsed).take n
      some { P.push s ⟨s.server, some request, m, after⟩ with parsed := s.parsed + n }
  | .notify m after => some (P.push s ⟨s.server, none, m, after⟩)
  | .change after => some (s.change after)
  | .arrive n =>
    some { s with arrived := s.arrived ++ s.wire.take n, wire := s.wire.drop n }
  | .poll n =>
    match s.pending with
    | none => none
    | some p =>
      match p.fut.take (s.arrived.take n) with
      | none => none
      | some fut =>
        some ({ s with
          arrived := s.arrived.drop n, used := s.used + (s.arrived.take n).length }.resume p fut)
  | .drop =>
    match s.pending with
    | none => none
    | some _ => some { s with pending := none }

/-- An operation that opens a subscription was called. -/
def Handed (s : State ι μ ρ σ) : Prop := ∃ i ∈ s.called, P.opens (P.request i)

/-- A request that opens a subscription was answered. -/
def Opened (s : State ι μ ρ σ) : Prop :=
  ∃ e ∈ sends s.history, ∃ request ∈ e.1.request, P.opens request

/-- An operation is called only when none was dropped that had written or read something. Operations with
a request are called before the subscription, the others after it. The server does what it may, and sends
messages unasked only to a subscriber. -/
def Allowed (S : Service σ μ) (s : State ι μ ρ σ) : Event ι μ σ → Prop
  | .call i => s.used = 0 ∧ (P.Handed s ↔ P.request i = [])
  | .answer m after => ∀ n ∈ P.front (s.sent.drop s.parsed),
      S.answers s.server ((s.sent.drop s.parsed).take n) m after
  | .notify m after => P.Opened s ∧ S.notifies s.server m after
  | .change after => S.changes s.server after
  | _ => True

section
variable [∀ request, Decidable (P.opens request)]

/-- The operations that were called are searched. -/
instance (s : State ι μ ρ σ) : Decidable (P.Handed s) :=
  inferInstanceAs (Decidable (∃ i ∈ s.called, P.opens (P.request i)))

/-- The requests that were answered are searched. -/
instance (s : State ι μ ρ σ) : Decidable (P.Opened s) :=
  inferInstanceAs (Decidable (∃ e ∈ sends s.history, ∃ request ∈ e.1.request, P.opens request))

/-- What is allowed is decided by what the server may do. -/
instance (S : Service σ μ) [∀ server request m after, Decidable (S.answers server request m after)]
    [∀ server m after, Decidable (S.notifies server m after)]
    [∀ server after, Decidable (S.changes server after)] (s : State ι μ ρ σ) (e : Event ι μ σ) :
    Decidable (P.Allowed S s e) :=
  match e with
  | .call i => inferInstanceAs (Decidable (s.used = 0 ∧ (P.Handed s ↔ P.request i = [])))
  | .answer m after => inferInstanceAs (Decidable (∀ n ∈ P.front (s.sent.drop s.parsed),
      S.answers s.server ((s.sent.drop s.parsed).take n) m after))
  | .notify m after => inferInstanceAs (Decidable (P.Opened s ∧ S.notifies s.server m after))
  | .change after => inferInstanceAs (Decidable (S.changes s.server after))
  | .write _ | .arrive _ | .poll _ | .drop => instDecidableTrue

end

/-- The message belongs to the operation: it answers the request of this operation and was sent after the
operation was called, or it was sent unasked and the operation waits for a message. -/
def Belongs (op : ι) (began : Nat) (e : Sent σ μ × Nat) : Prop :=
  match e.1.request with
  | some request => P.request op ≠ [] ∧ request = P.request op ∧ began ≤ e.2
  | none => P.request op = []

/-- The operation returned what it makes of this message. -/
def Explains (c : Completed ι ρ) (e : Sent σ μ × Nat) : Prop :=
  P.Belongs c.op c.began e ∧ c.result = P.outcome c.op e.1.message

/-- The operations that have returned are explained by the first messages of the server. -/
def Paired (s : State ι μ ρ σ) : Prop :=
  List.Forall₂ P.Explains s.completed ((sends s.history).take s.completed.length)

/-! ## Where a run stands -/

/-- The operation is pending, or it was dropped halfway. -/
def Live (s : State ι μ ρ σ) (p : Pending ι ρ) : Prop :=
  s.pending = some p ∨ s.pending = none ∧ s.used ≠ 0

/-- What is live while an operation is pending is this operation. -/
lemma Live.eq {s : State ι μ ρ σ} {p q : Pending ι ρ} (h : Live s q) (hpending : s.pending = some p) :
    p = q := by
  obtain hq | ⟨hq, -⟩ := h
  · exact Option.some.inj (hpending.symm.trans hq)
  · rw [hpending] at hq
    cases hq

/-- Between operations, with messages that were sent unasked. -/
structure Idle (s : State ι μ ρ σ) : Prop where
  pending : s.pending = none
  parsed : s.parsed = s.sent.length
  stream : s.arrived ++ s.wire = s.outstanding.flatMap (P.bytes ·.1.message)
  unasked : ∀ e ∈ s.outstanding, e.1.request = none
  handed : s.outstanding = [] ∨ P.Handed s
  opened : P.Opened s → P.Handed s

/-- The request of an operation has not been answered: `rest` was not written. -/
structure Asking (s : State ι μ ρ σ) (p : Pending ι ρ) (written rest : List UInt8) : Prop where
  live : Live s p
  called : p.op ∈ s.called
  began : p.began ≤ s.history.length
  request : written ++ rest = P.request p.op
  ne_nil : P.request p.op ≠ []
  fut : p.fut = (Fut.write rest (P.body p.op)).settle
  unparsed : s.parsed + written.length = s.sent.length ∧ s.sent.drop s.parsed = written
  used : s.used = written.length
  outstanding : s.outstanding = []
  stream : s.arrived ++ s.wire = []
  opened : ¬ P.Opened s

/-- What has not been returned while an operation reads: the answer to its request, or what was sent
unasked. -/
inductive Queue (s : State ι μ ρ σ) (p : Pending ι ρ) : Prop where
  | waiting :
    P.request p.op = [] →
    P.Handed s →
    (∀ e ∈ s.outstanding, e.1.request = none) →
    Queue s p
  | answered {e : Sent σ μ × Nat} {rest : List (Sent σ μ × Nat)} :
    P.request p.op ≠ [] →
    s.outstanding = e :: rest →
    e.1.request = some (P.request p.op) →
    p.began ≤ e.2 →
    (∀ e ∈ rest, e.1.request = none) →
    (rest = [] ∨ P.Handed s) →
    Queue s p

/-- An operation reads, and was given `got` of the first message that has not been returned. -/
structure Reading (s : State ι μ ρ σ) (p : Pending ι ρ) (got : List UInt8) : Prop where
  live : Live s p
  reads : Fut.Reads p.fut
  run : ∀ input, p.fut.run input = (P.body p.op).run (got ++ input)
  parsed : s.parsed = s.sent.length
  used : s.used = (P.request p.op).length + got.length
  stream : got ++ (s.arrived ++ s.wire) = s.outstanding.flatMap (P.bytes ·.1.message)
  queue : P.Queue s p
  opened : P.Opened s → P.Handed s

/-- Where a run stands. -/
inductive Phase (s : State ι μ ρ σ) : Prop where
  | idle : P.Idle s → Phase s
  | asking (p : Pending ι ρ) (written rest : List UInt8) : P.Asking s p written rest → Phase s
  | reading (p : Pending ι ρ) (got : List UInt8) : P.Reading s p got → Phase s

/-- Where the run stands, and that all that was returned is explained. -/
structure Inv (s : State ι μ ρ σ) : Prop where
  phase : P.Phase s
  paired : P.Paired s

variable {P} {S : Service σ μ} {s s' : State ι μ ρ σ}

/-- No more operations have returned than messages were sent. -/
lemma Paired.le (h : P.Paired s) : s.completed.length ≤ (sends s.history).length := by
  have hlen := h.length_eq
  rw [List.length_take] at hlen
  omega

/-- What is sent changes nothing about what was returned. -/
lemma Paired.push (h : P.Paired s) (m : Sent σ μ) : P.Paired (P.push s m) := by
  show List.Forall₂ P.Explains s.completed
    ((sends (s.history ++ [.sent m])).take s.completed.length)
  rw [sends_sent, List.take_append_of_le_length h.le]
  exact h

/-- A message that is sent is the last that has not been returned. -/
lemma Paired.outstanding_push (h : P.Paired s) (m : Sent σ μ) :
    (P.push s m).outstanding = s.outstanding ++ [(m, s.history.length)] := by
  show (sends (s.history ++ [.sent m])).drop s.completed.length = _
  rw [sends_sent, List.drop_append_of_le_length h.le]
  rfl

/-- A change of the server sends nothing. -/
@[simp] lemma sends_history_change (after : σ) :
    sends (s.change after).history = sends s.history :=
  sends_change _ _ _

/-- A change of the server leaves the messages that were not returned alone. -/
@[simp] lemma outstanding_change (after : σ) : (s.change after).outstanding = s.outstanding := by
  unfold State.outstanding
  rw [sends_history_change]
  rfl

/-- An operation that returns takes the first message that was not returned. -/
lemma outstanding_complete {e : Sent σ μ × Nat} {rest : List (Sent σ μ × Nat)}
    (h : s.outstanding = e :: rest) (c : Completed ι ρ) : (s.complete c).outstanding = rest := by
  show (sends s.history).drop (s.completed ++ [c]).length = rest
  rw [List.length_append, List.length_singleton, ← List.drop_drop, ← State.outstanding, h]
  rfl

/-- A subscription that is open after a message was open before, or the message opens it. -/
lemma opened_push {m : Sent σ μ} (h : P.Opened (P.push s m)) :
    P.Opened s ∨ ∃ request ∈ m.request, P.opens request := by
  obtain ⟨e, he, hopens⟩ := h
  change e ∈ sends (s.history ++ [.sent m]) at he
  rw [sends_sent] at he
  obtain he | he := List.mem_append.mp he
  · exact .inl ⟨e, he, hopens⟩
  · rw [List.mem_singleton.mp he] at hopens
    exact .inr hopens

/-- A body waits for bytes. -/
lemma settle_body (i : ι) : (P.body i).settle = P.body i := by
  obtain ⟨n, k, hbody⟩ := P.awaits i
  rw [hbody]
  rfl

/-- When all of its request is written an operation runs its body. -/
lemma settle_write_nil (i : ι) : (Fut.write [] (P.body i)).settle = P.body i :=
  settle_body i

/-- An operation that writes does not return. -/
lemma resume_write (p : Pending ι ρ) (bs : List UInt8) :
    s.resume p (Fut.write bs (P.body p.op)).settle =
      { s with pending := some { p with fut := (Fut.write bs (P.body p.op)).settle } } := by
  cases bs with
  | nil =>
    obtain ⟨n, k, hbody⟩ := P.awaits p.op
    rw [settle_write_nil, hbody]
    rfl
  | cons b bs => rfl

/-! ## Steps -/

/-- An operation starts between operations. -/
lemma inv_call (h : P.Inv s) {i : ι} (hallowed : P.Allowed S s (.call i))
    (hstep : P.step s (.call i) = some s') : P.Inv s' := by
  rw [step] at hstep
  split at hstep
  case h_1 => cases hstep
  case h_2 hpending =>
    cases hstep
    obtain ⟨hused, hhanded⟩ := hallowed
    have hlive : ∀ p, ¬ Live s p := by
      rintro p (hp | ⟨-, hne⟩)
      · rw [hpending] at hp
        cases hp
      · exact hne hused
    refine ⟨?_, h.paired⟩
    cases h.phase with
    | asking p written rest ha => exact absurd ha.live (hlive _)
    | reading p got hr => exact absurd hr.live (hlive _)
    | idle hi =>
      by_cases hrequest : P.request i = []
      · -- nothing is written: the operation reads what was sent unasked
        have hfut : (P.prog i).settle = P.body i := by
          rw [P.settle_prog, hrequest, settle_write_nil]
        obtain ⟨j, hj, hopens⟩ := hhanded.mpr hrequest
        have hmem : j ∈ s.called ++ [i] := List.mem_append_left _ hj
        refine .reading ⟨i, s.history.length, (P.prog i).settle⟩ []
          ⟨.inl rfl, ?_, ?_, hi.parsed, ?_, hi.stream, ?_, fun _ => ⟨j, hmem, hopens⟩⟩
        · rw [hfut]
          exact P.reads i
        · intro input
          rw [hfut]
          rfl
        · rw [hrequest]
          exact hused
        · exact .waiting hrequest ⟨j, hmem, hopens⟩ hi.unasked
      · have hnot : ¬ P.Handed s := fun hh => hrequest (hhanded.mp hh)
        have hnil : s.outstanding = [] := hi.handed.resolve_right hnot
        have hstream := hi.stream
        rw [hnil] at hstream
        refine .asking ⟨i, s.history.length, (P.prog i).settle⟩ [] _
          ⟨.inl rfl, ?_, Nat.le_refl _, rfl, hrequest, P.settle_prog i, ⟨hi.parsed, ?_⟩, hused, hnil,
            hstream, fun ho => hnot (hi.opened ho)⟩
        · exact List.mem_append_right _ (List.mem_singleton_self i)
        · rw [hi.parsed, List.drop_length]

/-- A write keeps the invariant. -/
lemma inv_write (h : P.Inv s) {n : Nat} (hstep : P.step s (.write n) = some s') : P.Inv s' := by
  rw [step] at hstep
  split at hstep
  case h_1 => cases hstep
  case h_2 p hpending =>
    split at hstep
    case h_1 => cases hstep
    case h_2 bs fut hput =>
      cases hstep
      cases h.phase with
      | idle hi =>
        rw [hi.pending] at hpending
        cases hpending
      | reading p got hr =>
        obtain rfl := hr.live.eq hpending
        rw [hr.reads.put] at hput
        cases hput
      | asking p written rest ha =>
        obtain rfl := ha.live.eq hpending
        rw [ha.fut] at hput
        cases rest with
        | nil =>
          rw [settle_write_nil, (P.reads _).put] at hput
          cases hput
        | cons b rest =>
          rw [Fut.settle_write (List.cons_ne_nil b rest), Fut.put] at hput
          split at hput
          case isFalse => cases hput
          case isTrue =>
            cases hput
            rw [resume_write]
            obtain ⟨hlen, hdrop⟩ := ha.unparsed
            have hle : s.parsed ≤ s.sent.length := by omega
            refine ⟨.asking { p with fut := _ } (written ++ (b :: rest).take n) _
              ⟨.inl rfl, ha.called, ha.began, ?_, ha.ne_nil, rfl, ⟨?_, ?_⟩, ?_, ha.outstanding,
                ha.stream, ha.opened⟩, h.paired⟩
            · rw [List.append_assoc, List.take_append_drop]
              exact ha.request
            · rw [List.length_append, List.length_append, ← hlen, Nat.add_assoc]
            · rw [List.drop_append_of_le_length hle, hdrop]
            · rw [List.length_append, ← ha.used]

/-- The server answers a request that is complete, which is that of the last operation. -/
lemma inv_answer (h : P.Inv s) {m : μ} {after : σ}
    (hstep : P.step s (.answer m after) = some s') : P.Inv s' := by
  rw [step] at hstep
  split at hstep
  case h_1 => cases hstep
  case h_2 n hfront =>
    cases hstep
    refine ⟨?_, h.paired.push _⟩
    cases h.phase with
    | idle hi =>
      rw [hi.parsed, List.drop_length, P.front_nil] at hfront
      cases hfront
    | reading p got hr =>
      rw [hr.parsed, List.drop_length, P.front_nil] at hfront
      cases hfront
    | asking p written rest ha =>
      obtain ⟨hlen, hdrop⟩ := ha.unparsed
      rw [hdrop] at hfront ⊢
      cases rest with
      | cons b rest =>
        rw [P.front_part p.op written (b :: rest) ha.request (List.cons_ne_nil b rest)] at hfront
        cases hfront
      | nil =>
        obtain rfl : written = P.request p.op := by
          rw [← ha.request, List.append_nil]
        rw [P.front_request p.op ha.ne_nil] at hfront
        obtain rfl := Option.some.inj hfront
        rw [List.take_length]
        have hout := h.paired.outstanding_push ⟨s.server, some (P.request p.op), m, after⟩
        rw [ha.outstanding, List.nil_append] at hout
        have hfut : p.fut = P.body p.op := by
          rw [ha.fut, settle_write_nil]
        refine .reading p [] ⟨ha.live, ?_, ?_, hlen, ha.used, ?_, ?_, ?_⟩
        · rw [hfut]
          exact P.reads p.op
        · intro input
          rw [hfut]
          rfl
        · show s.arrived ++ (s.wire ++ P.bytes m) = List.flatMap _ (State.outstanding (P.push s _))
          rw [hout, ← List.append_assoc, ha.stream]
          exact (List.append_nil _).symm
        · exact .answered ha.ne_nil hout rfl ha.began (List.forall_mem_nil _) (.inl rfl)
        · intro ho
          obtain ho | ⟨request, hrequest, hopens⟩ := opened_push ho
          · exact absurd ho ha.opened
          · obtain rfl := Option.some.inj hrequest
            exact ⟨p.op, ha.called, hopens⟩

/-- What is sent to a subscriber comes after all that was sent before. -/
lemma inv_notify (h : P.Inv s) {m : μ} {after : σ} (hallowed : P.Allowed S s (.notify m after))
    (hstep : P.step s (.notify m after) = some s') : P.Inv s' := by
  cases hstep
  obtain ⟨hopened, -⟩ := hallowed
  refine ⟨?_, h.paired.push _⟩
  have hout := h.paired.outstanding_push ⟨s.server, none, m, after⟩
  generalize hm : (⟨s.server, none, m, after⟩ : Sent σ μ) = m' at hout ⊢
  have hrequest : m'.request = none := by
    rw [← hm]
  have hunasked : ∀ es : List (Sent σ μ × Nat), (∀ e ∈ es, e.1.request = none) →
      ∀ e ∈ es ++ [(m', s.history.length)], e.1.request = none := by
    intro es hes e he
    obtain he | he := List.mem_append.mp he
    · exact hes e he
    · rw [List.mem_singleton.mp he]
      exact hrequest
  have hstream : ∀ got, got ++ (s.arrived ++ s.wire) =
      s.outstanding.flatMap (P.bytes ·.1.message) →
      got ++ (s.arrived ++ (s.wire ++ P.bytes m'.message)) =
        (P.push s m').outstanding.flatMap (P.bytes ·.1.message) := by
    intro got hgot
    rw [hout, List.flatMap_append, List.flatMap_singleton, ← hgot]
    simp only [List.append_assoc]
  cases h.phase with
  | asking p written rest ha => exact absurd hopened ha.opened
  | idle hi =>
    have hhanded : P.Handed s := hi.opened hopened
    refine .idle ⟨hi.pending, hi.parsed, hstream [] hi.stream, ?_, .inr hhanded, fun _ => hhanded⟩
    rw [hout]
    exact hunasked _ hi.unasked
  | reading p got hr =>
    have hhanded : P.Handed s := hr.opened hopened
    refine .reading p got ⟨hr.live, hr.reads, hr.run, hr.parsed, hr.used,
      hstream got hr.stream, ?_, fun _ => hhanded⟩
    cases hr.queue with
    | waiting hwaits _ hes =>
      refine .waiting hwaits hhanded ?_
      rw [hout]
      exact hunasked _ hes
    | @answered e rest hne hcons hown hbegan hes _ =>
      refine .answered hne ?_ hown hbegan (hunasked _ hes) (.inr hhanded)
      rw [hout, hcons, List.cons_append]

/-- A change of the server reaches the client with the messages only. -/
lemma inv_change (h : P.Inv s) {after : σ} (hstep : P.step s (.change after) = some s') :
    P.Inv s' := by
  cases hstep
  have hopened : P.Opened (s.change after) → P.Opened s := by
    rintro ⟨e, he, hrequest⟩
    rw [sends_history_change] at he
    exact ⟨e, he, hrequest⟩
  have hout := outstanding_change (s := s) after
  refine ⟨?_, ?_⟩
  · cases h.phase with
    | idle hi =>
      refine .idle ⟨hi.pending, hi.parsed, ?_, ?_, ?_, fun ho => hi.opened (hopened ho)⟩
      · rw [hout]
        exact hi.stream
      · rw [hout]
        exact hi.unasked
      · rw [hout]
        exact hi.handed
    | asking p written rest ha =>
      refine .asking p written rest ⟨ha.live, ha.called, ?_, ha.request, ha.ne_nil, ha.fut, ha.unparsed,
        ha.used, hout.trans ha.outstanding, ha.stream, fun ho => ha.opened (hopened ho)⟩
      show p.began ≤ (s.history ++ [_]).length
      rw [List.length_append]
      exact Nat.le_trans ha.began (Nat.le_add_right _ _)
    | reading p got hr =>
      refine .reading p got ⟨hr.live, hr.reads, hr.run, hr.parsed, hr.used, ?_, ?_,
        fun ho => hr.opened (hopened ho)⟩
      · rw [hout]
        exact hr.stream
      · cases hr.queue with
        | waiting hrequest hhanded hes =>
          refine .waiting hrequest hhanded ?_
          rw [hout]
          exact hes
        | answered hne hcons hrequest hbegan hes hhanded =>
          exact .answered hne (hout.trans hcons) hrequest hbegan hes hhanded
  · unfold Paired
    rw [sends_history_change]
    exact h.paired

/-- Bytes that arrive keep the invariant. -/
lemma inv_arrive (h : P.Inv s) {n : Nat} (hstep : P.step s (.arrive n) = some s') : P.Inv s' := by
  cases hstep
  have hsame : s.arrived ++ s.wire.take n ++ s.wire.drop n = s.arrived ++ s.wire := by
    rw [List.append_assoc, List.take_append_drop]
  refine ⟨?_, h.paired⟩
  cases h.phase with
  | idle hi =>
    exact .idle ⟨hi.pending, hi.parsed, hsame.trans hi.stream, hi.unasked, hi.handed, hi.opened⟩
  | asking p written rest ha =>
    exact .asking p written rest ⟨ha.live, ha.called, ha.began, ha.request, ha.ne_nil, ha.fut, ha.unparsed,
      ha.used, ha.outstanding, hsame.trans ha.stream, ha.opened⟩
  | reading p got hr =>
    have hstream := (congrArg (got ++ ·) hsame).trans hr.stream
    refine .reading p got ⟨hr.live, hr.reads, hr.run, hr.parsed, hr.used, hstream, ?_, hr.opened⟩
    cases hr.queue with
    | waiting hrequest hhanded hes => exact .waiting hrequest hhanded hes
    | answered hne hcons hrequest hbegan hes hhanded =>
      exact .answered hne hcons hrequest hbegan hes hhanded

/-- The message in front belongs to the operation that reads it. -/
lemma Queue.front {p : Pending ι ρ} (h : P.Queue s p) {e : Sent σ μ × Nat}
    {rest : List (Sent σ μ × Nat)} (hcons : s.outstanding = e :: rest) :
    P.Belongs p.op p.began e ∧ (∀ e ∈ rest, e.1.request = none) ∧ (rest = [] ∨ P.Handed s) := by
  cases h with
  | waiting hrequest hhanded hes =>
    rw [hcons] at hes
    obtain ⟨hnone, hes⟩ := List.forall_mem_cons.mp hes
    refine ⟨?_, hes, .inr hhanded⟩
    rw [Belongs, hnone]
    exact hrequest
  | answered hne hcons' hown hbegan hes hhanded =>
    rw [hcons] at hcons'
    cases hcons'
    refine ⟨?_, hes, hhanded⟩
    rw [Belongs, hown]
    exact ⟨hne, rfl, hbegan⟩

/-- An operation that returns has taken the message in front, whole, and is explained by it. -/
lemma Reading.returns {p : Pending ι ρ} {got : List UInt8} (hr : P.Reading s p got)
    (hpaired : P.Paired s) (hne : got ≠ []) {r : ρ}
    (hrun : ∀ input, (P.body p.op).run (got ++ input) = ⟨r, input, []⟩) :
    P.Idle (s.complete ⟨p.op, p.began, r⟩) ∧ P.Paired (s.complete ⟨p.op, p.began, r⟩) := by
  have hstream := hr.stream
  cases hout : s.outstanding with
  | nil =>
    rw [hout, List.flatMap_nil] at hstream
    exact absurd (List.append_eq_nil_iff.mp hstream).1 hne
  | cons e rest =>
    rw [hout, List.flatMap_cons] at hstream
    have hprefix : got <+: P.bytes e.1.message ∨ P.bytes e.1.message <+: got :=
      List.prefix_or_prefix_of_prefix ⟨_, hstream⟩ (List.prefix_append _ _)
    obtain ⟨rfl, rfl⟩ := Fut.done_exact hrun (P.takes p.op e.1.message) hprefix
    obtain ⟨hbelongs, hes, hhanded⟩ := hr.queue.front hout
    have hrest := outstanding_complete hout ⟨p.op, p.began, P.outcome p.op e.1.message⟩
    refine ⟨⟨rfl, hr.parsed, ?_, ?_, ?_, hr.opened⟩, ?_⟩
    · rw [hrest]
      exact List.append_cancel_left hstream
    · rw [hrest]
      exact hes
    · rw [hrest]
      exact hhanded
    · have htake : (sends s.history).take (s.completed.length + 1) =
          (sends s.history).take s.completed.length ++ [e] := by
        rw [List.take_add, ← State.outstanding, hout]
        rfl
      show List.Forall₂ _ (s.completed ++ [_]) ((sends s.history).take (s.completed ++ [_]).length)
      rw [List.length_append, List.length_singleton, htake]
      exact List.rel_append hpaired (.cons ⟨hbelongs, rfl⟩ .nil)

/-- Bytes that were read are given to the operation that reads. -/
lemma Reading.given {p : Pending ι ρ} {got : List UInt8} (hr : P.Reading s p got)
    {n : Nat} {fut : Fut ρ}
    (htake : p.fut.take (s.arrived.take n) = some fut) :
    P.Reading { s with
      arrived := s.arrived.drop n
      used := s.used + (s.arrived.take n).length
      pending := some { p with fut := fut } } { p with fut := fut } (got ++ s.arrived.take n) := by
  have hrun : ∀ input, fut.run input = (P.body p.op).run (got ++ s.arrived.take n ++ input) := by
    intro input
    rw [Fut.run_take htake, hr.run, List.append_assoc]
  have hstream : got ++ s.arrived.take n ++ (s.arrived.drop n ++ s.wire) =
      s.outstanding.flatMap (P.bytes ·.1.message) := by
    rw [← hr.stream, List.append_assoc, ← List.append_assoc (s.arrived.take n),
      List.take_append_drop]
  have hused : s.used + (s.arrived.take n).length =
      (P.request p.op).length + (got ++ s.arrived.take n).length := by
    rw [hr.used, List.length_append, Nat.add_assoc]
  refine ⟨.inl rfl, hr.reads.take htake, hrun, hr.parsed, hused, hstream, ?_, hr.opened⟩
  cases hr.queue with
  | waiting hrequest hhanded hes => exact .waiting hrequest hhanded hes
  | answered hnil hcons hown hbegan hes hhanded =>
    exact .answered hnil hcons hown hbegan hes hhanded

/-- Only an operation that reads is given anything. -/
lemma inv_poll (h : P.Inv s) {n : Nat} (hstep : P.step s (.poll n) = some s') : P.Inv s' := by
  rw [step] at hstep
  split at hstep
  case h_1 => cases hstep
  case h_2 p hpending =>
    split at hstep
    case h_1 => cases hstep
    case h_2 fut htake =>
      cases hstep
      have hne := Fut.take_ne_nil htake
      cases h.phase with
      | idle hi =>
        rw [hi.pending] at hpending
        cases hpending
      | asking p written rest ha =>
        rw [(List.append_eq_nil_iff.mp ha.stream).1, List.take_nil] at hne
        exact absurd rfl hne
      | reading p got hr =>
        obtain rfl := hr.live.eq hpending
        have hgiven := hr.given htake
        cases fut with
        | write bs k => exact ⟨.reading _ _ hgiven, h.paired⟩
        | read m k => exact ⟨.reading _ _ hgiven, h.paired⟩
        | done r =>
          have hgot : got ++ s.arrived.take n ≠ [] := List.append_ne_nil_of_right_ne_nil _ hne
          obtain ⟨hidle, hpaired⟩ :=
            hgiven.returns h.paired hgot fun input => (hgiven.run input).symm
          exact ⟨.idle hidle, hpaired⟩

/-- An operation that is dropped leaves no trace or is the last. -/
lemma inv_drop (h : P.Inv s) (hstep : P.step s .drop = some s') : P.Inv s' := by
  rw [step] at hstep
  split at hstep
  case h_1 => cases hstep
  case h_2 p hpending =>
    cases hstep
    refine ⟨?_, h.paired⟩
    by_cases hused : s.used = 0
    · cases h.phase with
      | idle hi =>
        rw [hi.pending] at hpending
        cases hpending
      | asking p written rest ha =>
        have hwritten := List.length_eq_zero_iff.mp (ha.used.symm.trans hused)
        obtain ⟨hlen, -⟩ := ha.unparsed
        rw [hwritten] at hlen
        have hstream : s.arrived ++ s.wire = s.outstanding.flatMap (P.bytes ·.1.message) := by
          rw [ha.outstanding]
          exact ha.stream
        have hunasked : ∀ e ∈ s.outstanding, e.1.request = none := by
          rw [ha.outstanding]
          exact List.forall_mem_nil _
        exact .idle
          ⟨rfl, hlen, hstream, hunasked, .inl ha.outstanding, fun ho => absurd ho ha.opened⟩
      | reading p got hr =>
        have hzero := hr.used.symm.trans hused
        have hrequest : P.request p.op = [] := List.length_eq_zero_iff.mp (by omega)
        have hgot : got = [] := List.length_eq_zero_iff.mp (by omega)
        have hstream := hr.stream
        rw [hgot] at hstream
        cases hr.queue with
        | waiting _ hhanded hes => exact .idle ⟨rfl, hr.parsed, hstream, hes, .inr hhanded, hr.opened⟩
        | answered hne => exact absurd hrequest hne
    · cases h.phase with
      | idle hi =>
        rw [hi.pending] at hpending
        cases hpending
      | asking p written rest ha =>
        exact .asking p written rest ⟨.inr ⟨rfl, hused⟩, ha.called, ha.began, ha.request, ha.ne_nil, ha.fut,
          ha.unparsed, ha.used, ha.outstanding, ha.stream, ha.opened⟩
      | reading p got hr =>
        refine .reading p got ⟨.inr ⟨rfl, hused⟩, hr.reads, hr.run, hr.parsed, hr.used, hr.stream, ?_,
          hr.opened⟩
        cases hr.queue with
        | waiting hrequest hhanded hes => exact .waiting hrequest hhanded hes
        | answered hne hcons hown hbegan hes hhanded =>
          exact .answered hne hcons hown hbegan hes hhanded

/-! ## Runs -/

/-- The invariant holds at the start. -/
lemma inv_init (server : σ) : P.Inv (State.init server : State ι μ ρ σ) := by
  refine ⟨.idle ⟨rfl, rfl, rfl, List.forall_mem_nil _, .inl rfl, ?_⟩, .nil⟩
  rintro ⟨e, he, -⟩
  cases he

/-- What is allowed keeps the invariant. -/
lemma inv_step (h : P.Inv s) {e : Event ι μ σ} (hallowed : P.Allowed S s e)
    (hstep : P.step s e = some s') : P.Inv s' := by
  cases e with
  | call i => exact inv_call h hallowed hstep
  | write n => exact inv_write h hstep
  | answer m after => exact inv_answer h hstep
  | notify m after => exact inv_notify h hallowed hstep
  | change after => exact inv_change h hstep
  | arrive n => exact inv_arrive h hstep
  | poll n => exact inv_poll h hstep
  | drop => exact inv_drop h hstep

/-- What a step adds to the history and to what was returned. -/
inductive Adds (S : Service σ μ) (s s' : State ι μ ρ σ) : Prop where
  | moment {m : Moment σ μ} :
    S.Permits m →
    m.before = s.server →
    m.after = s'.server →
    s'.history = s.history ++ [m] →
    s'.completed = s.completed →
    Adds S s s'
  | returned {c : Completed ι ρ} :
    s'.server = s.server →
    s'.history = s.history →
    s'.completed = s.completed ++ [c] →
    Adds S s s'
  | nothing :
    s'.server = s.server →
    s'.history = s.history →
    s'.completed = s.completed →
    Adds S s s'

/-- A poll adds nothing but what it returns. -/
lemma adds_resume {s₁ : State ι μ ρ σ} (hserver : s₁.server = s.server)
    (hhistory : s₁.history = s.history) (hcompleted : s₁.completed = s.completed) (p : Pending ι ρ)
    (fut : Fut ρ) : Adds S s (s₁.resume p fut) := by
  cases fut with
  | done r =>
    refine .returned hserver hhistory (c := ⟨p.op, p.began, r⟩) ?_
    show s₁.completed ++ _ = _
    rw [hcompleted]
  | read n k => exact .nothing hserver hhistory hcompleted
  | write bs k => exact .nothing hserver hhistory hcompleted

/-- A step adds to the history and to what has returned. -/
lemma step_adds {e : Event ι μ σ} (hallowed : P.Allowed S s e) (hstep : P.step s e = some s') :
    Adds S s s' := by
  cases e with
  | answer m after =>
    rw [step] at hstep
    split at hstep
    case h_1 => cases hstep
    case h_2 n hfront =>
      cases hstep
      let sent : Sent σ μ := ⟨s.server, some ((s.sent.drop s.parsed).take n), m, after⟩
      exact .moment (m := .sent sent) (hallowed n hfront) rfl rfl rfl rfl
  | notify m after =>
    cases hstep
    exact .moment (m := .sent ⟨s.server, none, m, after⟩) hallowed.2 rfl rfl rfl rfl
  | change after =>
    cases hstep
    exact .moment (m := .change s.server after) hallowed rfl rfl rfl rfl
  | arrive n =>
    cases hstep
    exact .nothing rfl rfl rfl
  | call i =>
    rw [step] at hstep
    split at hstep
    case h_1 => cases hstep
    case h_2 =>
      cases hstep
      exact .nothing rfl rfl rfl
  | drop =>
    rw [step] at hstep
    split at hstep
    case h_1 => cases hstep
    case h_2 =>
      cases hstep
      exact .nothing rfl rfl rfl
  | write n =>
    rw [step] at hstep
    split at hstep
    case h_1 => cases hstep
    case h_2 p hpending =>
      split at hstep
      case h_1 => cases hstep
      case h_2 bs fut hput =>
        cases hstep
        apply adds_resume <;> rfl
  | poll n =>
    rw [step] at hstep
    split at hstep
    case h_1 => cases hstep
    case h_2 p hpending =>
      split at hstep
      case h_1 => cases hstep
      case h_2 fut htake =>
        cases hstep
        apply adds_resume <;> rfl

/-- A step that is allowed keeps the history legal. -/
lemma Adds.legal {σ₀ : σ} (hadds : Adds S s s') (h : Legal S σ₀ s.history s.server) :
    Legal S σ₀ s'.history s'.server := by
  cases hadds with
  | moment hpermits hbefore hafter hhistory _ =>
    rw [← hbefore] at h
    rw [hhistory, ← hafter]
    exact .act h hpermits
  | returned hserver hhistory _ =>
    rw [hserver, hhistory]
    exact h
  | nothing hserver hhistory _ =>
    rw [hserver, hhistory]
    exact h

/-- In every run the operations that have returned are explained, one after another, by the first messages
in a legal history of the server. -/
theorem linearizes {σ₀ : σ} (h : Reach P.step (P.Allowed S) (State.init σ₀) s) :
    Legal S σ₀ s.history s.server ∧ P.Inv s := by
  induction h with
  | init => exact ⟨.init, inv_init σ₀⟩
  | step _ hallowed hstep ih =>
    obtain ⟨hlegal, hinv⟩ := ih
    exact ⟨(step_adds hallowed hstep).legal hlegal, inv_step hinv hallowed hstep⟩

/-- Of the requests that were answered at most one belongs to no operation that has returned. -/
lemma Inv.unasked (h : P.Inv s) : ∀ e ∈ s.outstanding.tail, e.1.request = none := by
  cases h.phase with
  | idle hi => exact fun e he => hi.unasked e (List.mem_of_mem_tail he)
  | asking p written rest ha =>
    rw [ha.outstanding]
    exact List.forall_mem_nil _
  | reading p got hr =>
    cases hr.queue with
    | waiting _ _ hes => exact fun e he => hes e (List.mem_of_mem_tail he)
    | answered _ hcons _ _ hes =>
      rw [hcons]
      exact hes

end Protocol

end Exchange
