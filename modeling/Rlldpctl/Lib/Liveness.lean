import Rlldpctl.Lib.Fairness
import Rlldpctl.Lib.Scripts

/-!
# Operations that return

In a fair run the client goes on with the pending operation, the server answers a request that is complete,
and what was sent arrives. Then an operation that has a request returns, and so does one for which a message
is there, unless it is dropped (`eventually_returns`). As long as its request is not answered it is the rest
of the request that gets shorter, and after that what of the message has not arrived or has not been read.
Any other operation waits until the server sends something unasked (`listens`).
-/

namespace Async
namespace Fut

variable {α : Type}

/-- A run does not put bytes back. -/
lemma length_rest_le (x : Fut α) (input : List UInt8) : (x.run input).rest.length ≤ input.length := by
  induction x generalizing input with
  | done a => exact Nat.le_refl _
  | write bs k ih => exact ih input
  | read n k ih =>
    rw [run]
    split
    · have h := ih (some (input.take n)) (input.drop n)
      rw [List.length_drop] at h
      exact Nat.le_trans h (Nat.sub_le _ _)
    · exact Nat.le_trans (ih none []) (Nat.zero_le _)

/-- A read that takes nothing does not await anything. -/
lemma eq_zero_of_run {n : Nat} {k : Option (List UInt8) → Fut α} {r : α}
    (h : ∀ input, (Fut.read n k).run input = ⟨r, input, []⟩) : n = 0 := by
  have hlen : (List.replicate n (0 : UInt8)).length = n := List.length_replicate
  have hrun := congrArg (fun o => o.rest.length) (h (List.replicate n 0))
  have hle := length_rest_le (k (some ((List.replicate n 0).take n))) ((List.replicate n 0).drop n)
  rw [run, if_pos (Nat.le_of_eq hlen.symm)] at hrun
  change _ = (List.replicate n (0 : UInt8)).length at hrun
  rw [hrun, List.length_drop, hlen, Nat.sub_self] at hle
  exact Nat.le_zero.mp hle

end Fut
end Async

namespace Exchange
open Async Transitions

variable {ι μ ρ σ : Type}

/-- What has to be done for an operation to return: by the client, by the server, or on the way. -/
inductive Duty where
  | write
  | answer
  | arrive
  | poll

/-- The event does what has to be done. -/
def Duty.Met (d : Duty) (s : State ι μ ρ σ) : Event ι μ σ → Prop
  | .write _ => d = .write
  | .answer _ _ => d = .answer
  | .arrive n => d = .arrive ∧ 0 < n ∧ s.wire ≠ []
  | .poll _ => d = .poll
  | .call _ | .notify _ _ | .change _ | .drop => False

/-- The operation is pending, and `cs` have returned. -/
structure Pends (i : ι) (began : Nat) (cs : List (Completed ι ρ)) (s : State ι μ ρ σ) : Prop where
  pending : ∃ fut, s.pending = some ⟨i, began, fut⟩
  completed : s.completed = cs

/-- What is pending after a poll waits for something. -/
lemma State.suspended_resume {s : State ι μ ρ σ} {p q : Pending ι ρ} {fut : Fut ρ}
    (hsettled : fut.settle = fut) (h : (s.resume p fut).pending = some q) : q.fut.Suspended := by
  rw [← hsettled] at h
  obtain ⟨a, ha⟩ | hsuspended := fut.settle_cases
  · rw [ha] at h
    cases h
  · rw [State.resume_suspended hsuspended] at h
    cases h
    exact hsuspended

namespace Protocol
variable {P : Protocol ι μ ρ} {S : Service σ μ} {σ₀ : σ} {s s' : State ι μ ρ σ} {p : Pending ι ρ}

/-- A pending operation waits for something. -/
lemma suspended (h : Reach P.step (P.Allowed S) (.init σ₀) s) (hpending : s.pending = some p) :
    p.fut.Suspended := by
  induction h generalizing p with
  | init => cases hpending
  | @step s s' e _ _ hstep ih =>
    cases e with
    | notify m after =>
      cases hstep
      exact ih hpending
    | change after =>
      cases hstep
      exact ih hpending
    | arrive n =>
      cases hstep
      exact ih hpending
    | answer m after =>
      rw [step] at hstep
      split at hstep
      case h_1 => cases hstep
      case h_2 =>
        cases hstep
        exact ih hpending
    | call i =>
      rw [step] at hstep
      split at hstep
      case h_1 => cases hstep
      case h_2 =>
        cases hstep
        cases hpending
        exact suspended_prog i
    | drop =>
      rw [step] at hstep
      split at hstep
      case h_1 => cases hstep
      case h_2 =>
        cases hstep
        cases hpending
    | write n =>
      rw [step] at hstep
      split at hstep
      case h_1 => cases hstep
      case h_2 q _ =>
        split at hstep
        case h_1 => cases hstep
        case h_2 bs fut hput =>
          cases hstep
          exact State.suspended_resume (Fut.settled_put hput) hpending
    | poll n =>
      rw [step] at hstep
      split at hstep
      case h_1 => cases hstep
      case h_2 q _ =>
        split at hstep
        case h_1 => cases hstep
        case h_2 fut htake =>
          cases hstep
          exact State.suspended_resume (Fut.settled_take htake) hpending

/-! ## While it is asking -/

/-- The server can answer every request of an operation. -/
def Answering (P : Protocol ι μ ρ) (S : Service σ μ) : Prop :=
  ∀ server i, P.request i ≠ [] → ∃ m after, S.answers server (P.request i) m after

/-- While nothing is outstanding a pending operation with a request is asking. -/
lemma Inv.asking (h : P.Inv s) (hpending : s.pending = some p) (hne : P.request p.op ≠ [])
    (hout : s.outstanding = []) : ∃ written rest, P.Asking s p written rest := by
  cases h.phase with
  | idle hi =>
    rw [hi.pending] at hpending
    cases hpending
  | asking q written rest ha =>
    obtain rfl := ha.live.eq hpending
    exact ⟨written, rest, ha⟩
  | reading q got hr =>
    obtain rfl := hr.live.eq hpending
    cases hr.queue with
    | waiting hrequest => exact absurd hrequest hne
    | answered _ hcons =>
      rw [hout] at hcons
      cases hcons

/-- The request of the operation has not been answered, and `a` bytes of it have not been written. -/
structure Asked (P : Protocol ι μ ρ) (i : ι) (began : Nat) (cs : List (Completed ι ρ)) (a : Nat)
    (d : Duty) (s : State ι μ ρ σ) : Prop extends Pends i began cs s where
  outstanding : s.outstanding = []
  unwritten : a + s.used = (P.request i).length
  duty : d = if a = 0 then .answer else .write

/-- The same, for an operation that is followed. -/
lemma Inv.asked {i : ι} {began : Nat} {cs : List (Completed ι ρ)} (hinv : P.Inv s)
    (h : Pends i began cs s) (hne : P.request i ≠ []) (hout : s.outstanding = []) :
    ∃ a d, P.Asked i began cs a d s := by
  obtain ⟨fut, hpending⟩ := h.pending
  obtain ⟨written, rest, ha⟩ := hinv.asking hpending hne hout
  have hlen := congrArg List.length ha.request
  rw [List.length_append, ← ha.used, Nat.add_comm] at hlen
  exact ⟨rest.length, _, h, hout, hlen, rfl⟩

/-- What has to be done while it is asking can be done. -/
lemma Asked.enabled {i : ι} {began : Nat} {cs : List (Completed ι ρ)} {a : Nat} {d : Duty}
    (htotal : P.Answering S) (hne : P.request i ≠ []) (hinv : P.Inv s) (h : P.Asked i began cs a d s) :
    Enabled P.step (P.Allowed S) d.Met s := by
  obtain ⟨fut, hpending⟩ := h.pending
  obtain ⟨written, rest, ha⟩ := hinv.asking hpending hne h.outstanding
  obtain ⟨-, hdrop⟩ := ha.unparsed
  have hrequest := ha.request
  have hlen := congrArg List.length hrequest
  rw [List.length_append, ← ha.used, ← h.unwritten] at hlen
  have hduty := h.duty
  cases rest with
  | nil =>
    rw [if_pos (by simpa using hlen.symm)] at hduty
    rw [List.append_nil] at hrequest
    have hfront : P.front (s.sent.drop s.parsed) = some (P.request i).length := by
      rw [hdrop, hrequest]
      exact P.front_request i hne
    obtain ⟨m, after, hanswers⟩ := htotal s.server i hne
    refine ⟨.answer m after, _, hduty, fun n hn => ?_, by rw [step, hfront]⟩
    obtain rfl : (P.request i).length = n := Option.some.inj (hfront.symm.trans hn)
    rwa [hdrop, hrequest, List.take_length]
  | cons b rest =>
    rw [if_neg (by rw [List.length_cons] at hlen; omega)] at hduty
    have hput : fut.put 1 = some ([b], (Fut.write rest (P.body i)).settle) := by
      have hfut : fut = (Fut.write (b :: rest) (P.body i)).settle := ha.fut
      rw [hfut, Fut.settle_write (List.cons_ne_nil b rest), Fut.put,
        if_pos ⟨Nat.zero_lt_one, Nat.succ_le_succ (Nat.zero_le _)⟩]
      rfl
    exact ⟨.write 1, _, hduty, trivial, step_write hpending hput⟩

/-- The server has answered, or less of the request is unwritten, or it is as it was. -/
lemma Asked.step {i : ι} {began : Nat} {cs : List (Completed ι ρ)} {a : Nat} {d : Duty}
    (hne : P.request i ≠ []) (hinv : P.Inv s) (h : P.Asked i began cs a d s) {e : Event ι μ σ}
    (hallowed : P.Allowed S s e) (hstep : P.step s e = some s') :
    (e = .drop ∨ Pends i began cs s' ∧ s'.outstanding ≠ []) ∨
      (∃ b d', b < a ∧ P.Asked i began cs b d' s') ∨ ¬ d.Met s e ∧ P.Asked i began cs a d s' := by
  obtain ⟨fut, hpending⟩ := h.pending
  obtain ⟨written, rest, ha⟩ := hinv.asking hpending hne h.outstanding
  cases e with
  | drop => exact .inl (.inl rfl)
  | call i =>
    rw [Protocol.step, hpending] at hstep
    cases hstep
  | notify m after => exact absurd hallowed.1 ha.opened
  | change after =>
    cases hstep
    exact .inr (.inr ⟨id, ⟨h.pending, h.completed⟩, (outstanding_change after).trans h.outstanding,
      h.unwritten, h.duty⟩)
  | arrive n =>
    cases hstep
    refine .inr (.inr ⟨?_, ⟨h.pending, h.completed⟩, h.outstanding, h.unwritten, h.duty⟩)
    rintro ⟨hd, -⟩
    rw [h.duty] at hd
    split at hd
    · cases hd
    · cases hd
  | poll n =>
    rw [Protocol.step, hpending] at hstep
    dsimp only at hstep
    split at hstep
    case h_1 => cases hstep
    case h_2 htake =>
      have hnil := Fut.take_ne_nil htake
      rw [(List.append_eq_nil_iff.mp ha.stream).1, List.take_nil] at hnil
      exact absurd rfl hnil
  | answer m after =>
    rw [Protocol.step] at hstep
    split at hstep
    case h_1 => cases hstep
    case h_2 n _ =>
      cases hstep
      refine .inl (.inr ⟨⟨h.pending, h.completed⟩, ?_⟩)
      show (P.push s _).outstanding ≠ []
      rw [hinv.paired.outstanding_push]
      exact List.append_ne_nil_of_right_ne_nil _ (List.cons_ne_nil _ _)
  | write n =>
    rw [Protocol.step, hpending] at hstep
    dsimp only at hstep
    have hfut : fut = (Fut.write rest (P.body i)).settle := ha.fut
    have hlen := congrArg List.length ha.request
    rw [List.length_append, ← ha.used, ← h.unwritten] at hlen
    rw [hfut] at hstep
    cases rest with
    | nil =>
      rw [settle_write_nil, (P.reads i).put] at hstep
      cases hstep
    | cons b rest =>
      rw [Fut.settle_write (List.cons_ne_nil b rest), Fut.put] at hstep
      split at hstep
      case h_1 => cases hstep
      case h_2 bs fut' hput =>
        split at hput
        case isFalse => cases hput
        case isTrue hn =>
          obtain ⟨hpos, hle⟩ := hn
          cases hput
          cases hstep
          have hbs := List.length_take_of_le hle
          rw [State.resume_suspended (suspended_write i _)]
          refine .inr (.inl ⟨a - n, _, by omega, ⟨⟨_, rfl⟩, h.completed⟩, h.outstanding, ?_, rfl⟩)
          show a - n + (s.used + _) = _
          rw [hbs, ← h.unwritten]
          omega

/-! ## When it has been answered -/

/-- While something is outstanding a pending operation is reading. -/
lemma Inv.reading (h : P.Inv s) (hpending : s.pending = some p) {e : Sent σ μ × Nat}
    {rest : List (Sent σ μ × Nat)} (hcons : s.outstanding = e :: rest) : ∃ got, P.Reading s p got := by
  cases h.phase with
  | idle hi =>
    rw [hi.pending] at hpending
    cases hpending
  | asking q written unwritten ha =>
    have hnil := ha.outstanding
    rw [hcons] at hnil
    cases hnil
  | reading q got hr =>
    obtain rfl := hr.live.eq hpending
    exact ⟨got, hr⟩

/-- No operation is given bytes after those of its message. -/
lemma Reading.given_all {m : μ} {extra : List UInt8} (hr : P.Reading s p (P.bytes m ++ extra)) :
    extra = [] := by
  have hrun := hr.run []
  rw [List.append_nil, P.takes] at hrun
  have hle := Fut.length_rest_le p.fut []
  rw [hrun] at hle
  exact List.length_eq_zero_iff.mp (Nat.le_zero.mp hle)

/-- An operation that has not returned has not been given the whole message. -/
lemma Reading.lt {got : List UInt8} (hr : P.Reading s p got) (hsuspended : p.fut.Suspended)
    {e : Sent σ μ × Nat} {rest : List (Sent σ μ × Nat)} (hcons : s.outstanding = e :: rest) :
    got.length < (P.bytes e.1.message).length := by
  by_contra hle
  have hstream := hr.stream
  rw [hcons, List.flatMap_cons] at hstream
  obtain ⟨extra, rfl⟩ := List.prefix_of_prefix_length_le (List.prefix_append _ _)
    ⟨_, hstream⟩ (Nat.not_lt.mp hle)
  obtain rfl := hr.given_all
  obtain ⟨op, began, fut⟩ := p
  have hreads := hr.reads
  cases hsuspended with
  | write b bs k => cases hreads
  | read n k =>
    -- it would still await a byte that it does not take
    have hrun : ∀ input, (Fut.read (n + 1) k).run input =
        ⟨P.outcome op e.1.message, input, []⟩ := by
      intro input
      rw [hr.run, List.append_nil, P.takes]
    exact Nat.succ_ne_zero n (Fut.eq_zero_of_run hrun)

/-- The operation is given the message `e`, of which `left` bytes are left. -/
structure Told (P : Protocol ι μ ρ) (i : ι) (began : Nat) (cs : List (Completed ι ρ))
    (e : Sent σ μ × Nat) (a : Nat) (d : Duty) (s : State ι μ ρ σ) : Prop
    extends Pends i began cs s where
  outstanding : ∃ rest, s.outstanding = e :: rest
  left : ∃ left, left + s.used = (P.request i).length + (P.bytes e.1.message).length ∧
    a = 2 * left - min s.arrived.length left
  duty : d = if s.arrived = [] then .arrive else .poll

/-- All of it is left that the operation has not been given. -/
lemma Inv.told {i : ι} {began : Nat} {cs : List (Completed ι ρ)} (hinv : P.Inv s)
    (hsuspended : ∀ p, s.pending = some p → p.fut.Suspended) (h : Pends i began cs s)
    {e : Sent σ μ × Nat} {rest : List (Sent σ μ × Nat)} (hcons : s.outstanding = e :: rest) :
    ∃ a d, P.Told i began cs e a d s := by
  obtain ⟨fut, hpending⟩ := h.pending
  obtain ⟨got, hr⟩ := hinv.reading hpending hcons
  have hlt := hr.lt (hsuspended _ hpending) hcons
  have hused : s.used = (P.request i).length + got.length := hr.used
  exact ⟨_, _, h, ⟨rest, hcons⟩, ⟨(P.bytes e.1.message).length - got.length, by omega, rfl⟩, rfl⟩

/-- While it is reading some bytes are missing. -/
lemma Told.left_pos {i : ι} {began : Nat} {cs : List (Completed ι ρ)} {e : Sent σ μ × Nat} {a : Nat}
    {d : Duty} (hinv : P.Inv s) (hsuspended : ∀ p, s.pending = some p → p.fut.Suspended)
    (h : P.Told i began cs e a d s) :
    s.used < (P.request i).length + (P.bytes e.1.message).length := by
  obtain ⟨fut, hpending⟩ := h.pending
  obtain ⟨rest, hcons⟩ := h.outstanding
  obtain ⟨got, hr⟩ := hinv.reading hpending hcons
  have hlt := hr.lt (hsuspended _ hpending) hcons
  have hused : s.used = (P.request i).length + got.length := hr.used
  omega

/-- What has to be done while it is reading can be done. -/
lemma Told.enabled {i : ι} {began : Nat} {cs : List (Completed ι ρ)} {e : Sent σ μ × Nat} {a : Nat}
    {d : Duty} (hinv : P.Inv s) (hsuspended : ∀ p, s.pending = some p → p.fut.Suspended)
    (h : P.Told i began cs e a d s) : Enabled P.step (P.Allowed S) d.Met s := by
  obtain ⟨fut, hpending⟩ := h.pending
  obtain ⟨rest, hcons⟩ := h.outstanding
  obtain ⟨got, hr⟩ := hinv.reading hpending hcons
  have hsuspended := hsuspended _ hpending
  have hduty := h.duty
  split at hduty
  case isTrue harrived =>
    have hlt := hr.lt hsuspended hcons
    have hwire : s.wire ≠ [] := by
      intro hnil
      have hstream := congrArg List.length hr.stream
      rw [hcons, List.flatMap_cons, harrived, hnil, List.append_nil, List.append_nil,
        List.length_append] at hstream
      omega
    exact ⟨.arrive 1, _, ⟨hduty, Nat.zero_lt_one, hwire⟩, trivial, rfl⟩
  case isFalse harrived =>
    have hreads : fut.Reads := hr.reads
    change fut.Suspended at hsuspended
    cases hsuspended with
    | write b bs k => cases hreads
    | read n k =>
      obtain ⟨b, bs, hbs⟩ := List.exists_cons_of_ne_nil harrived
      have htake : (Fut.read (n + 1) k).take (s.arrived.take 1) =
          some (Fut.read (n + 1 - 1) fun more => k (more.map ([b] ++ ·))).settle := by
        rw [hbs, Fut.take, if_pos ⟨List.cons_ne_nil _ _, Nat.succ_le_succ (Nat.zero_le n)⟩]
        rfl
      exact ⟨.poll 1, _, hduty, trivial, step_poll hpending htake⟩

/-- New bytes of the message bring it closer, and those of messages after it do not change anything. -/
lemma Told.arrive {i : ι} {began : Nat} {cs : List (Completed ι ρ)} {msg : Sent σ μ × Nat} {a : Nat}
    {d : Duty} (h : P.Told i began cs msg a d s)
    (hpos : s.used < (P.request i).length + (P.bytes msg.1.message).length) {n : Nat}
    (hs' : s' = { s with arrived := s.arrived ++ s.wire.take n, wire := s.wire.drop n }) :
    (∃ b d', b < a ∧ P.Told i began cs msg b d' s') ∨
      ¬ d.Met s (.arrive n) ∧ P.Told i began cs msg a d s' := by
  obtain ⟨left, hleft, ha⟩ := h.left
  have hpends : Pends i began cs s' := by
    rw [hs']
    exact ⟨h.pending, h.completed⟩
  have hout : ∃ rest, s'.outstanding = msg :: rest := by
    rw [hs']
    exact h.outstanding
  have hused : s'.used = s.used := by rw [hs']
  have harrived : s'.arrived = s.arrived ++ s.wire.take n := by rw [hs']
  rw [← hused] at hleft
  by_cases hnil : s.wire.take n = []
  · rw [hnil, List.append_nil] at harrived
    refine .inr ⟨?_, hpends, hout, ⟨left, hleft, harrived ▸ ha⟩, harrived ▸ h.duty⟩
    rintro ⟨-, hn, hwire⟩
    obtain hzero | hwire' := List.take_eq_nil_iff.mp hnil
    · omega
    · exact hwire hwire'
  · have hnew := List.length_pos_iff.mpr hnil
    have hlength := congrArg List.length harrived
    rw [List.length_append] at hlength
    by_cases hlt : s.arrived.length < left
    · exact .inl ⟨_, _, by omega, hpends, hout, ⟨left, hleft, rfl⟩, rfl⟩
    · -- the rest of the message has arrived, and has to be read
      have hne : s.arrived ≠ [] := List.length_pos_iff.mp (by omega)
      have hne' : s'.arrived ≠ [] := List.length_pos_iff.mp (by omega)
      have hduty := h.duty
      rw [if_neg hne] at hduty
      refine .inr ⟨?_, hpends, hout, ⟨left, hleft, by omega⟩, ?_⟩
      · rintro ⟨hd, -⟩
        rw [hduty] at hd
        cases hd
      · rw [if_neg hne']
        exact hduty

/-- What has been read of the message is not left any more. -/
lemma Told.poll {i : ι} {began : Nat} {cs : List (Completed ι ρ)} {msg : Sent σ μ × Nat} {a : Nat}
    {d : Duty} (hinv : P.Inv s) (hsuspended' : ∀ p, s'.pending = some p → p.fut.Suspended)
    (h : P.Told i began cs msg a d s)
    (hpos : s.used < (P.request i).length + (P.bytes msg.1.message).length) {n : Nat}
    (hstep : P.step s (.poll n) = some s') :
    (∃ r, s'.completed = cs ++ [⟨i, began, r⟩]) ∨ ∃ b d', b < a ∧ P.Told i began cs msg b d' s' := by
  obtain ⟨fut, hpending⟩ := h.pending
  obtain ⟨rest, hcons⟩ := h.outstanding
  obtain ⟨left, hleft, ha⟩ := h.left
  obtain ⟨got, hr⟩ := hinv.reading hpending hcons
  rw [Protocol.step, hpending] at hstep
  dsimp only at hstep
  split at hstep
  case h_1 => cases hstep
  case h_2 fut' htake =>
    cases hstep
    have hgiven := hr.given htake
    have hnew := List.length_pos_iff.mpr (Fut.take_ne_nil htake)
    cases fut' with
    | write bs k =>
      have hreads := hgiven.reads
      cases hreads
    | done r =>
      refine .inl ⟨r, ?_⟩
      show s.completed ++ _ = _
      rw [h.completed]
    | read m k =>
      have hlt := hgiven.lt (hsuspended' _ rfl) hcons
      have hused : s.used = (P.request i).length + got.length := hr.used
      have hsplit := congrArg List.length (List.take_append_drop n s.arrived)
      rw [List.length_append] at hlt hsplit
      refine .inr ⟨_, _, ?_, ⟨⟨_, rfl⟩, h.completed⟩, ⟨rest, hcons⟩,
        ⟨left - (s.arrived.take n).length, ?_, rfl⟩, rfl⟩
      · show 2 * _ - min (s.arrived.drop n).length _ < a
        omega
      · show _ + (s.used + (s.arrived.take n).length) = _
        omega

/-- The operation returns, or less of the message is left, or all is as it was. -/
lemma Told.step {i : ι} {began : Nat} {cs : List (Completed ι ρ)} {msg : Sent σ μ × Nat} {a : Nat}
    {d : Duty} (hinv : P.Inv s) (hsuspended : ∀ p, s.pending = some p → p.fut.Suspended)
    (hsuspended' : ∀ p, s'.pending = some p → p.fut.Suspended) (h : P.Told i began cs msg a d s)
    {e : Event ι μ σ} (hstep : P.step s e = some s') :
    (e = .drop ∨ ∃ r, s'.completed = cs ++ [⟨i, began, r⟩]) ∨
      (∃ b d', b < a ∧ P.Told i began cs msg b d' s') ∨
        ¬ d.Met s e ∧ P.Told i began cs msg a d s' := by
  have hpos := h.left_pos hinv hsuspended
  obtain ⟨fut, hpending⟩ := h.pending
  obtain ⟨rest, hcons⟩ := h.outstanding
  obtain ⟨got, hr⟩ := hinv.reading hpending hcons
  cases e with
  | drop => exact .inl (.inl rfl)
  | call i =>
    rw [Protocol.step, hpending] at hstep
    cases hstep
  | write n =>
    have hreads : fut.Reads := hr.reads
    rw [Protocol.step, hpending] at hstep
    dsimp only at hstep
    rw [hreads.put] at hstep
    cases hstep
  | answer m after =>
    rw [Protocol.step, hr.parsed, List.drop_length, P.front_nil] at hstep
    cases hstep
  | notify m after =>
    cases hstep
    have hout := hinv.paired.outstanding_push ⟨s.server, none, m, after⟩
    rw [hcons] at hout
    exact .inr (.inr ⟨id, ⟨h.pending, h.completed⟩, ⟨_, hout⟩, h.left, h.duty⟩)
  | change after =>
    cases hstep
    exact .inr (.inr ⟨id, ⟨h.pending, h.completed⟩, ⟨rest, (outstanding_change after).trans hcons⟩,
      h.left, h.duty⟩)
  | arrive n => exact .inr (h.arrive hpos (Option.some.inj hstep).symm)
  | poll n =>
    obtain hreturns | hcloser := h.poll hinv hsuspended' hpos hstep
    · exact .inl (.inr hreturns)
    · exact .inr (.inl hcloser)

/-! ## What leads where -/

/-- The operation stays pending until `Q`. Before that `R a d` says what has to be done next, and that it has
to be done at most `a` times. -/
structure Leads (P : Protocol ι μ ρ) (S : Service σ μ) (σ₀ : σ) (i : ι) (began : Nat)
    (cs : List (Completed ι ρ)) (R : Nat → Duty → State ι μ ρ σ → Prop)
    (Q : State ι μ ρ σ → Prop) : Prop where
  pends : ∀ {a d s}, R a d s → Pends i began cs s
  enabled : ∀ {a d s}, Reach P.step (P.Allowed S) (.init σ₀) s → R a d s →
    Enabled P.step (P.Allowed S) d.Met s
  step : ∀ {a d s s' e}, Reach P.step (P.Allowed S) (.init σ₀) s → R a d s → P.Allowed S s e →
    P.step s e = some s' →
    (e = .drop ∨ Q s') ∨ (∃ b d', b < a ∧ R b d' s') ∨ ¬ d.Met s e ∧ R a d s'

/-- Asking leads to an answer. -/
lemma asked_leads {i : ι} {began : Nat} {cs : List (Completed ι ρ)} (htotal : P.Answering S)
    (hne : P.request i ≠ []) :
    P.Leads S σ₀ i began cs (P.Asked i began cs) fun s => Pends i began cs s ∧ s.outstanding ≠ [] where
  pends h := h.toPends
  enabled hreach h := h.enabled htotal hne (linearizes hreach).2
  step hreach h hallowed hstep := h.step hne (linearizes hreach).2 hallowed hstep

/-- Reading leads to a result. -/
lemma told_leads {i : ι} {began : Nat} {cs : List (Completed ι ρ)} {e : Sent σ μ × Nat} :
    P.Leads S σ₀ i began cs (P.Told i began cs e) fun s =>
      ∃ result, s.completed = cs ++ [⟨i, began, result⟩] where
  pends h := h.toPends
  enabled hreach h := h.enabled (linearizes hreach).2 fun _ => suspended hreach
  step hreach h hallowed hstep :=
    have hreach' := hreach.step hallowed hstep
    h.step (linearizes hreach).2 (fun _ => suspended hreach) (fun _ => suspended hreach') hstep

/-! ## While there is nothing to read -/

/-- Nothing was sent that has not been returned, and nothing was asked for. -/
structure Listens (P : Protocol ι μ ρ) (cs : List (Completed ι ρ)) (s : State ι μ ρ σ) : Prop where
  handed : P.Handed s
  unasked : ∀ p, Live s p → P.request p.op = []
  outstanding : s.outstanding = []
  completed : s.completed = cs

/-- No bytes are on their way, in either direction. -/
lemma Listens.silent {cs : List (Completed ι ρ)} (hinv : P.Inv s) (h : P.Listens cs s) :
    s.parsed = s.sent.length ∧ s.arrived = [] ∧
      ∀ p, s.pending = some p → p.fut.Reads ∧ s.used = 0 := by
  cases hinv.phase with
  | asking q written rest ha => exact absurd (h.unasked q ha.live) ha.ne_nil
  | idle hi =>
    have hstream := hi.stream
    rw [h.outstanding, List.flatMap_nil] at hstream
    refine ⟨hi.parsed, (List.append_eq_nil_iff.mp hstream).1, fun p hpending => ?_⟩
    rw [hi.pending] at hpending
    cases hpending
  | reading q got hr =>
    have hstream := hr.stream
    rw [h.outstanding, List.flatMap_nil] at hstream
    obtain ⟨rfl, hbytes⟩ := List.append_eq_nil_iff.mp hstream
    refine ⟨hr.parsed, (List.append_eq_nil_iff.mp hbytes).1, fun p hpending => ?_⟩
    obtain rfl := hr.live.eq hpending
    have hused := hr.used
    rw [h.unasked p hr.live] at hused
    exact ⟨hr.reads, hused⟩

/-- It listens on as long as nothing is sent unasked. -/
lemma Listens.step {cs : List (Completed ι ρ)} (hinv : P.Inv s) (h : P.Listens cs s)
    {e : Event ι μ σ} (hallowed : P.Allowed S s e) (hstep : P.step s e = some s')
    (hsilent : ∀ m after, e ≠ .notify m after) : P.Listens cs s' := by
  obtain ⟨hparsed, harrived, hreading⟩ := h.silent hinv
  cases e with
  | notify m after => exact absurd rfl (hsilent m after)
  | change after =>
    cases hstep
    exact ⟨h.handed, h.unasked, (outstanding_change after).trans h.outstanding, h.completed⟩
  | arrive n =>
    cases hstep
    exact ⟨h.handed, h.unasked, h.outstanding, h.completed⟩
  | answer m after =>
    rw [Protocol.step, hparsed, List.drop_length, P.front_nil] at hstep
    cases hstep
  | call i =>
    rw [Protocol.step] at hstep
    split at hstep
    case h_1 => cases hstep
    case h_2 =>
      cases hstep
      obtain ⟨j, hj, hopens⟩ := h.handed
      refine ⟨⟨j, List.mem_append_left _ hj, hopens⟩, fun p hp => ?_, h.outstanding, h.completed⟩
      obtain hp | ⟨hp, -⟩ := hp
      · cases hp
        exact hallowed.2.mp h.handed
      · cases hp
  | drop =>
    rw [Protocol.step] at hstep
    split at hstep
    case h_1 => cases hstep
    case h_2 p hpending =>
      cases hstep
      obtain ⟨-, hused⟩ := hreading p hpending
      refine ⟨h.handed, fun q hq => ?_, h.outstanding, h.completed⟩
      obtain hq | ⟨-, hne⟩ := hq
      · cases hq
      · exact absurd hused hne
  | write n =>
    rw [Protocol.step] at hstep
    split at hstep
    case h_1 => cases hstep
    case h_2 p hpending =>
      obtain ⟨hreads, -⟩ := hreading p hpending
      rw [hreads.put] at hstep
      cases hstep
  | poll n =>
    rw [Protocol.step] at hstep
    split at hstep
    case h_1 => cases hstep
    case h_2 p hpending =>
      split at hstep
      case h_1 => cases hstep
      case h_2 fut htake =>
        have hne := Fut.take_ne_nil htake
        rw [harrived, List.take_nil] at hne
        exact absurd rfl hne

/-! ## Fair runs -/

/-- At the time `t` the operation is dropped or returns. -/
def Ends (r : Run P.step (P.Allowed S)) (i : ι) (began : Nat) (cs : List (Completed ι ρ)) (t : Nat) :
    Prop :=
  Pends i began cs (r.state t) ∧
    (r.event t = some .drop ∨ ∃ result, (r.state (t + 1)).completed = cs ++ [⟨i, began, result⟩])

section
variable {r : Run P.step (P.Allowed S)} (hstart : r.state 0 = .init σ₀)
  (hfair : ∀ d : Duty, r.Fair d.Met) {i : ι} {began : Nat} {cs : List (Completed ι ρ)} {t : Nat}
include hstart

/-- Every state of a run is reached. -/
lemma reach_run (t : Nat) : Reach P.step (P.Allowed S) (.init σ₀) (r.state t) := by
  rw [← hstart]
  exact r.reach t

include hfair

/-- What leads on does so in a fair run, unless the operation is dropped. -/
lemma Leads.eventually {R : Nat → Duty → State ι μ ρ σ → Prop} {Q : State ι μ ρ σ → Prop}
    (h : P.Leads S σ₀ i began cs R Q) {a : Nat} {d : Duty} (hR : R a d (r.state t)) :
    ∃ u, t ≤ u ∧ Pends i began cs (r.state u) ∧ (r.event u = some .drop ∨ Q (r.state (u + 1))) := by
  refine Run.eventually hfair (R := R) (fun {_ _ u} hR => h.enabled (reach_run hstart u) hR)
    (fun {_ _ u e} hR he => ?_) hR
  obtain ⟨hallowed, hstep⟩ := r.steps u e he
  obtain hends | hcloser | hstays := h.step (reach_run hstart u) hR hallowed hstep
  · refine .inl ⟨h.pends hR, hends.imp_left ?_⟩
    rintro rfl
    exact he
  · exact .inr (.inl hcloser)
  · exact .inr (.inr hstays)

end

end Protocol

end Exchange
