import Rlldpctl.Lib.Transitions
import Rlldpctl.Sessions

/-!
# Dropping calls of the async client

An async client, whose caller may drop a pending call and make another, and the daemon, which answers
every complete request it finds in what was written to the socket, in order, with one frame. Bytes are
written, arrive and are read in any portions. What was written and what was read stays so when a call is
dropped.

A call that is dropped before any of its request was written leaves no trace. After that its reply, or the
rest of its request, is outstanding, and the next call takes the one or completes the other.
-/

namespace Rlldpctl.AsyncClient
open Async Transitions ByteReader CLayout NativeBytes

variable {T : Target}

/-! ## The system -/

/-- The length in the header of a request, as the daemon reads it. -/
def nativeLen (T : Target) (bytes : List UInt8) : Nat :=
  T.endian.nat (slice bytes (alignUp 4 T.ptrSize) T.ptrSize)

/-- The length of the request at the front of `bytes`, when it is complete. -/
def requestLen (T : Target) (bytes : List UInt8) : Option Nat :=
  if headerLen T + nativeLen T bytes ≤ bytes.length then
    some (headerLen T + nativeLen T bytes)
  else
    none

/-- A request the daemon has answered: where in what was written it starts, its bytes, and the reply. -/
structure Served (T : Target) where
  start : Nat
  request : List UInt8
  reply : Frame T

/-- A call that has not returned: where in what was written its request starts, and what is left of
it. -/
structure Pending where
  call : Call
  start : Nat
  fut : Fut (Except Fault Reply)

/-- A call that has returned. -/
structure Completed where
  call : Call
  start : Nat
  result : Except Fault Reply

/-- `sent` is all that was written to the socket, of which the daemon has taken `parsed` bytes; `wire`
is what of its replies has not arrived, `arrived` what has not been read. -/
structure State (T : Target) where
  sent : List UInt8
  parsed : Nat
  served : List (Served T)
  wire : List UInt8
  arrived : List UInt8
  pending : Option Pending
  completed : List Completed

/-- What can happen. -/
inductive Event (T : Target) where
  | call (c : Call)
  | write (n : Nat)
  | serve (reply : Frame T)
  | arrive (n : Nat)
  | poll (n : Nat)
  | drop

/-- Nothing was written or sent. -/
def State.init (T : Target) : State T := ⟨[], 0, [], [], [], none, []⟩

/-- The call `p` after a poll that has changed it to `fut`. -/
def State.resume (s : State T) (p : Pending) (fut : Fut (Except Fault Reply)) : State T :=
  match fut with
  | .done r => { s with pending := none, completed := s.completed ++ [⟨p.call, p.start, r⟩] }
  | fut => { s with pending := some { p with fut := fut } }

/-- What an event does, when it can happen. A request is not larger than memory, a reply not larger than
the daemon builds. -/
def step (s : State T) : Event T → Option (State T)
  | .call c =>
    match s.pending with
    | some _ => none
    | none =>
      if (sentBy T c).length ≤ T.isizeMax then
        some { s with pending := some ⟨c, s.sent.length, (call T c).run.settle⟩ }
      else
        none
  | .write n =>
    match s.pending with
    | none => none
    | some p =>
      match p.fut.put n with
      | none => none
      | some (bs, fut) => some ({ s with sent := s.sent ++ bs }.resume p fut)
  | .serve reply =>
    match requestLen T (s.sent.drop s.parsed) with
    | none => none
    | some n =>
      if reply.Small then
        some { s with
          parsed := s.parsed + n
          served := s.served ++ [⟨s.parsed, (s.sent.drop s.parsed).take n, reply⟩]
          wire := s.wire ++ reply.bytes }
      else
        none
  | .arrive n =>
    some { s with arrived := s.arrived ++ s.wire.take n, wire := s.wire.drop n }
  | .poll n =>
    match s.pending with
    | none => none
    | some p =>
      match p.fut.take (s.arrived.take n) with
      | none => none
      | some fut => some ({ s with arrived := s.arrived.drop n }.resume p fut)
  | .drop =>
    match s.pending with
    | none => none
    | some _ => some { s with pending := none }

/-- The daemon has answered all that was written, and all of its replies was read. -/
def Settled (s : State T) : Prop :=
  s.parsed = s.sent.length ∧ s.arrived ++ s.wire = []

/-- A call is made only when nothing of an earlier exchange is outstanding. -/
def Allowed (s : State T) : Event T → Prop
  | .call _ => Settled s
  | _ => True

/-- What is allowed is looked up in the state. -/
instance (s : State T) (e : Event T) : Decidable (Allowed s e) :=
  match e with
  | .call _ => inferInstanceAs (Decidable (_ ∧ _))
  | .write _ | .serve _ | .arrive _ | .poll _ | .drop => instDecidableTrue

/-- The result of a call is what is made of the daemon's reply to the request of this call. -/
def OwnReply (s : State T) (c : Completed) : Prop :=
  ∃ r ∈ s.served, r.start = c.start ∧ r.request = sentBy T c.call ∧
    c.result = r.reply.outcome c.call

/-! ## Requests -/

/-- A request has a header. -/
lemma headerLen_le_sentBy (c : Call) : headerLen T ≤ (sentBy T c).length := by
  rw [sentBy, encodeHeader_eq, List.length_append, Header.length_bytes]
  exact Nat.le_add_right _ _

/-- A request is not empty. -/
lemma sentBy_ne_nil (c : Call) : sentBy T c ≠ [] := by
  have hlen := headerLen_le_sentBy (T := T) c
  have hge := headerLen_ge T
  intro h
  rw [h, List.length_nil] at hlen
  omega

/-- The daemon reads the length that the client wrote, once the header is there. -/
lemma nativeLen_prefix (hT : ReadsWords T) {c : Call} (hfit : (sentBy T c).length ≤ T.isizeMax)
    {bytes : List UInt8} (hbytes : bytes <+: sentBy T c) (hlen : headerLen T ≤ bytes.length) :
    headerLen T + nativeLen T bytes = (sentBy T c).length := by
  have hheader : encodeHeader T c.ty (c.payload T).length =
      ((Header.zeroed T).write c.ty.toI32 (c.payload T).length).bytes := by
    rw [encodeHeader_eq, if_pos hT]
  have hsent : (sentBy T c).length = headerLen T + (c.payload T).length := by
    rw [sentBy, hheader, List.length_append, Header.length_bytes]
  obtain ⟨more, rfl⟩ : encodeHeader T c.ty (c.payload T).length <+: bytes := by
    refine List.prefix_of_prefix_length_le (List.prefix_append _ _) hbytes ?_
    rwa [hheader, Header.length_bytes]
  have hslice : nativeLen T (encodeHeader T c.ty (c.payload T).length ++ more) =
      (c.payload T).length := by
    have hend : alignUp 4 T.ptrSize + T.ptrSize ≤
        ((Header.zeroed T).write c.ty.toI32 (c.payload T).length).bytes.length := by
      rw [Header.length_bytes]
      exact le_rfl
    rw [nativeLen, hheader, slice_append_of_le hend, Header.get_len, Target.word, Endian.nat_bytes]
    exact T.mod_word_of_le (by omega)
  rw [hslice, hsent]

/-- A request that was written whole has its own length. -/
lemma requestLen_sentBy (hT : ReadsWords T) {c : Call} (hfit : (sentBy T c).length ≤ T.isizeMax) :
    requestLen T (sentBy T c) = some (sentBy T c).length := by
  have hlen := nativeLen_prefix hT hfit List.prefix_rfl (headerLen_le_sentBy c)
  rw [requestLen, hlen, if_pos le_rfl]

/-- A request that is not written whole is not answered. -/
lemma requestLen_part (hT : ReadsWords T) {c : Call} (hfit : (sentBy T c).length ≤ T.isizeMax)
    {written rest : List UInt8} (h : written ++ rest = sentBy T c) (hrest : rest ≠ []) :
    requestLen T written = none := by
  refine if_neg fun hle => ?_
  have hlen := nativeLen_prefix hT hfit ⟨rest, h⟩ ((Nat.le_add_right _ _).trans hle)
  have hpos := List.length_pos_iff.mpr hrest
  rw [← h, List.length_append] at hlen
  omega

/-- Nothing is no request. -/
lemma requestLen_nil : requestLen T [] = none := by
  have hge := headerLen_ge T
  refine if_neg fun hle => ?_
  rw [List.length_nil] at hle
  omega

/-- A call that has written its request awaits a header. -/
lemma reading_eq (T : Target) (c : Call) : ∃ k, reading T c = .read (headerLen T) k :=
  ⟨_, rfl⟩

/-- A call that reads waits for bytes. -/
lemma settle_reading (c : Call) : (reading T c).settle = reading T c := by
  obtain ⟨k, hk⟩ := reading_eq T c
  have hpos : 0 < headerLen T := (Nat.succ_pos 7).trans_le (headerLen_ge T)
  rw [hk, Fut.settle_read hpos]

/-- Run on the reply, a call takes the reply. -/
lemma run_reading (hT : ReadsWords T) {f : Frame T} (hsmall : f.Small) (c : Call)
    (rest : List UInt8) : (reading T c).run (f.bytes ++ rest) = ⟨f.outcome c, rest, []⟩ := by
  refine run_of_block ?_
  have hread := readMessage_frame (Or.inl hT) hsmall c.ty rest []
  rw [block_bind, block_readMessage]
  unfold Frame.outcome
  cases hv : f.verdict c.ty with
  | ok payload =>
    rw [hv] at hread
    rw [bind_ok hread, block_ofExcept]
    rfl
  | error e =>
    rw [hv] at hread
    exact bind_error hread

/-! ## Runs -/

/-- Where an allowed run stands: no call is pending; its request is being written; it has been written
and not been answered; it has been answered, and the call was given `got` of the reply. -/
inductive Phase (s : State T) : Prop where
  | idle :
    s.pending = none →
    Phase s
  | writing {p : Pending} {before written rest : List UInt8} :
    s.pending = some p →
    (sentBy T p.call).length ≤ T.isizeMax →
    p.start = before.length →
    s.parsed = before.length →
    s.sent = before ++ written →
    written ++ rest = sentBy T p.call →
    rest ≠ [] →
    p.fut = .write rest (reading T p.call) →
    s.arrived ++ s.wire = [] →
    Phase s
  | waiting {p : Pending} {before : List UInt8} :
    s.pending = some p →
    (sentBy T p.call).length ≤ T.isizeMax →
    p.start = before.length →
    s.parsed = before.length →
    s.sent = before ++ sentBy T p.call →
    p.fut = reading T p.call →
    s.arrived ++ s.wire = [] →
    Phase s
  | answered {p : Pending} {before got : List UInt8} {reply : Frame T} :
    s.pending = some p →
    p.start = before.length →
    s.parsed = s.sent.length →
    s.sent = before ++ sentBy T p.call →
    ⟨p.start, sentBy T p.call, reply⟩ ∈ s.served →
    reply.Small →
    Fut.Reads p.fut →
    (∀ input, p.fut.run input = (reading T p.call).run (got ++ input)) →
    got ++ (s.arrived ++ s.wire) = reply.bytes →
    Phase s

/-- Where the run stands, and that every call that has returned had its own reply. -/
structure Inv (s : State T) : Prop where
  phase : Phase s
  own : ∀ c ∈ s.completed, OwnReply s c

/-- A reply stays the own one when more are served. -/
lemma OwnReply.mono {s s' : State T} {c : Completed} (h : OwnReply s c)
    (hserved : s.served ⊆ s'.served) : OwnReply s' c := by
  obtain ⟨r, hr, hown⟩ := h
  exact ⟨r, hserved hr, hown⟩

/-- A call that is allowed keeps the invariant. -/
lemma inv_call {s s' : State T} {c : Call} (h : Inv s) (hallowed : Settled s)
    (hstep : step s (.call c) = some s') : Inv s' := by
  rw [step] at hstep
  split at hstep
  case h_1 => cases hstep
  case h_2 hpending =>
    split at hstep
    case isFalse => cases hstep
    case isTrue hfit =>
      cases hstep
      obtain ⟨hparsed, hstream⟩ := hallowed
      have hfut : (call T c).run.settle = .write (sentBy T c) (reading T c) := by
        rw [run_call]
        exact Fut.settle_write (sentBy_ne_nil c) _
      exact ⟨.writing rfl hfit rfl hparsed (List.append_nil _).symm rfl (sentBy_ne_nil c) hfut
        hstream, h.own⟩

/-- A write keeps the invariant. -/
lemma inv_write {s s' : State T} {n : Nat} (h : Inv s) (hstep : step s (.write n) = some s') :
    Inv s' := by
  rw [step] at hstep
  split at hstep
  case h_1 => cases hstep
  case h_2 p hpending =>
    split at hstep
    case h_1 => cases hstep
    case h_2 bs fut hput =>
      cases hstep
      cases h.phase with
      | idle hp => exact absurd (hpending.symm.trans hp) nofun
      | waiting hp _ _ _ _ hfut =>
        obtain rfl := Option.some.inj (hpending.symm.trans hp)
        rw [hfut, (reads_reading _).put] at hput
        cases hput
      | answered hp _ _ _ _ _ hreads =>
        obtain rfl := Option.some.inj (hpending.symm.trans hp)
        rw [hreads.put] at hput
        cases hput
      | @writing p before written rest hp hfit hstart hparsed hsent hrest hne hfut hstream =>
        obtain rfl := Option.some.inj (hpending.symm.trans hp)
        rw [hfut, Fut.put] at hput
        split at hput
        case isFalse => cases hput
        case isTrue =>
          cases hput
          have hsent' : s.sent ++ rest.take n = before ++ (written ++ rest.take n) := by
            rw [hsent, List.append_assoc]
          have hrest' : written ++ rest.take n ++ rest.drop n = sentBy T p.call := by
            rw [List.append_assoc, List.take_append_drop, hrest]
          by_cases hdrop : rest.drop n = []
          · -- the request is complete
            obtain ⟨k, hk⟩ := reading_eq T p.call
            have hfut' : (Fut.write (rest.drop n) (reading T p.call)).settle =
                .read (headerLen T) k := by
              rw [hdrop, ← hk]
              exact settle_reading p.call
            rw [hfut']
            rw [hdrop, List.append_nil] at hrest'
            rw [hrest'] at hsent'
            exact ⟨.waiting rfl hfit hstart hparsed hsent' hk.symm hstream, h.own⟩
          · rw [Fut.settle_write hdrop]
            exact ⟨.writing rfl hfit hstart hparsed hsent' hrest' hdrop rfl hstream, h.own⟩

/-- The daemon answers a request that is complete, which is that of the pending call. -/
lemma inv_serve (hT : ReadsWords T) {s s' : State T} {reply : Frame T} (h : Inv s)
    (hstep : step s (.serve reply) = some s') : Inv s' := by
  rw [step] at hstep
  split at hstep
  case h_1 => cases hstep
  case h_2 n hlen =>
    split at hstep
    case isFalse => cases hstep
    case isTrue hsmall =>
      cases hstep
      cases h.phase with
      | idle hp => exact ⟨.idle hp, fun c hc => (h.own c hc).mono (List.subset_append_left _ _)⟩
      | answered _ _ hparsed =>
        rw [hparsed, List.drop_length, requestLen_nil] at hlen
        cases hlen
      | writing _ hfit _ hparsed hsent hrest hne =>
        rw [hparsed, hsent, List.drop_left, requestLen_part hT hfit hrest hne] at hlen
        cases hlen
      | @waiting p before hp hfit hstart hparsed hsent hfut hstream =>
        have hnext : s.sent.drop s.parsed = sentBy T p.call := by
          rw [hparsed, hsent, List.drop_left]
        rw [hnext, requestLen_sentBy hT hfit] at hlen
        cases hlen
        have hend : s.parsed + (sentBy T p.call).length = s.sent.length := by
          rw [hparsed, hsent, List.length_append]
        have hserved : ⟨p.start, sentBy T p.call, reply⟩ ∈ s.served ++ [⟨s.parsed,
            (s.sent.drop s.parsed).take (sentBy T p.call).length, reply⟩] := by
          rw [hnext, List.take_length, hparsed, ← hstart]
          exact List.mem_append_right _ (List.mem_singleton_self _)
        have hreads : Fut.Reads p.fut := by
          rw [hfut]
          exact reads_reading p.call
        have hrun : ∀ input, p.fut.run input = (reading T p.call).run ([] ++ input) := by
          intro input
          rw [hfut]
          rfl
        have hbytes : [] ++ (s.arrived ++ (s.wire ++ reply.bytes)) = reply.bytes := by
          rw [List.nil_append, ← List.append_assoc, hstream, List.nil_append]
        refine ⟨.answered hp hstart hend hsent hserved hsmall hreads hrun hbytes, fun c hc => ?_⟩
        exact (h.own c hc).mono (List.subset_append_left _ _)

/-- Bytes that arrive keep the invariant. -/
lemma inv_arrive {s s' : State T} {n : Nat} (h : Inv s) (hstep : step s (.arrive n) = some s') :
    Inv s' := by
  cases hstep
  have hsame : s.arrived ++ s.wire.take n ++ s.wire.drop n = s.arrived ++ s.wire := by
    rw [List.append_assoc, List.take_append_drop]
  refine ⟨?_, h.own⟩
  cases h.phase with
  | idle hp => exact .idle hp
  | writing hp hfit hstart hparsed hsent hrest hne hfut hstream =>
    exact .writing hp hfit hstart hparsed hsent hrest hne hfut (hsame.trans hstream)
  | waiting hp hfit hstart hparsed hsent hfut hstream =>
    exact .waiting hp hfit hstart hparsed hsent hfut (hsame.trans hstream)
  | @answered p before got reply hp hstart hparsed hsent hserved hsmall hreads hrun hstream =>
    refine .answered hp hstart hparsed hsent hserved hsmall hreads hrun ?_
    exact (congrArg (got ++ ·) hsame).trans hstream

/-- A drop keeps the invariant. -/
lemma inv_drop {s s' : State T} (h : Inv s) (hstep : step s .drop = some s') : Inv s' := by
  rw [step] at hstep
  split at hstep
  case h_1 => cases hstep
  case h_2 =>
    cases hstep
    exact ⟨.idle rfl, h.own⟩

/-- Only the pending call's own reply can be read, and the call that ends has read all of it. -/
lemma inv_poll (hT : ReadsWords T) {s s' : State T} {n : Nat} (h : Inv s)
    (hstep : step s (.poll n) = some s') : Inv s' := by
  rw [step] at hstep
  split at hstep
  case h_1 => cases hstep
  case h_2 p hpending =>
    split at hstep
    case h_1 => cases hstep
    case h_2 fut htake =>
      cases hstep
      have hne := Fut.take_ne_nil htake
      cases h.phase with
      | idle hp => exact absurd (hpending.symm.trans hp) nofun
      | writing _ _ _ _ _ _ _ _ hstream =>
        rw [(List.append_eq_nil_iff.mp hstream).1, List.take_nil] at hne
        exact absurd rfl hne
      | waiting _ _ _ _ _ _ hstream =>
        rw [(List.append_eq_nil_iff.mp hstream).1, List.take_nil] at hne
        exact absurd rfl hne
      | @answered p before got reply hp hstart hparsed hsent hserved hsmall hreads hrun hstream =>
        obtain rfl := Option.some.inj (hpending.symm.trans hp)
        have hrun' : ∀ input, fut.run input =
            (reading T p.call).run (got ++ s.arrived.take n ++ input) := by
          intro input
          rw [Fut.run_take htake, hrun, List.append_assoc]
        have hstream' : got ++ s.arrived.take n ++ (s.arrived.drop n ++ s.wire) = reply.bytes := by
          rw [← hstream, List.append_assoc, ← List.append_assoc (s.arrived.take n),
            List.take_append_drop]
        cases fut with
        | read m k =>
          exact ⟨.answered rfl hstart hparsed hsent hserved hsmall (hreads.take htake) hrun'
            hstream', h.own⟩
        | write bs k =>
          exact ⟨.answered rfl hstart hparsed hsent hserved hsmall (hreads.take htake) hrun'
            hstream', h.own⟩
        | done r =>
          obtain ⟨hgot, rfl⟩ := Fut.done_exact (fun input => (hrun' input).symm)
            (run_reading hT hsmall p.call) (Or.inl ⟨_, hstream'⟩)
          refine ⟨.idle rfl, fun c hc => ?_⟩
          obtain hc | hc := List.mem_append.mp hc
          · exact h.own c hc
          · rw [List.mem_singleton.mp hc]
            exact ⟨_, hserved, rfl, rfl, rfl⟩

/-- In every run that makes a call only when nothing of an earlier exchange is outstanding, every call
that returns has the result that is made of the daemon's reply to the request of this very call. -/
theorem replies_stay_paired (hT : ReadsWords T) {s : State T}
    (h : Reach step Allowed (State.init T) s) :
    ∀ c ∈ s.completed, OwnReply s c := by
  have hinit : Inv (State.init T) :=
    ⟨.idle rfl, fun c hc => absurd hc List.not_mem_nil⟩
  refine (h.invariant hinit fun s e s' hs hallowed hstep => ?_).own
  cases e with
  | call c => exact inv_call hs hallowed hstep
  | write n => exact inv_write hs hstep
  | serve reply => exact inv_serve hT hs hstep
  | arrive n => exact inv_arrive hs hstep
  | poll n => exact inv_poll hT hs hstep
  | drop => exact inv_drop hs hstep

/-- The reply with the list of interfaces. -/
def listReply (xs : List (Wire.InterfaceNode .lp64le))
    (h : (Wire.interfacesMessage (.zeroed _ _) xs).length ≤ Target.lp64le.usizeMax) :
    Frame .lp64le :=
  .of .lp64le .getInterfaces (Wire.interfacesMessage (.zeroed _ _) xs) h

/-- Two interfaces are listed, in two portions. -/
def listingRun : List (Event .lp64le) :=
  [.call .interfaces, .write 10, .write 6,
    .serve (listReply (Wire.twoInterfaces .lp64le) Wire.length_twoInterfaces), .arrive 100, .poll 16,
    .poll 84, .arrive 500, .poll 500]

/-- A run in which the list is read. -/
theorem replies_stay_paired_listingRun :
    ∃ s, run step Allowed (State.init .lp64le) listingRun = some s ∧ ∀ c ∈ s.completed, OwnReply s c := by
  have hsome : (run step Allowed (State.init .lp64le) listingRun).isSome := by decide +kernel
  obtain ⟨s, hs⟩ := Option.isSome_iff_exists.mp hsome
  exact ⟨s, hs, replies_stay_paired (Or.inl rfl) (Reach.run .init hs)⟩

/-- The first call is dropped when its request is written; the second takes its reply. -/
def staleRun : List (Event .lp64le) :=
  [.call .interfaces, .write 16, .drop,
    .serve (listReply (Wire.twoInterfaces .lp64le) Wire.length_twoInterfaces),
    .call .interfaces, .write 16, .serve (listReply [] (by decide +kernel)),
    .arrive 500, .poll 16, .poll 169]

/-- The second call returns the reply to the first. -/
theorem staleRun_mispaired :
    ∃ s, Reach step (fun _ _ => True) (State.init .lp64le) s ∧
      ∃ c ∈ s.completed, (∃ reply, c.result = .ok reply) ∧ ¬ OwnReply s c := by
  have hstale : (run step (fun _ _ => True) (State.init .lp64le) staleRun).any fun s =>
      s.completed.any fun c => c.result.toBool &&
        s.served.all fun r => r.start = c.start → r.reply.outcome c.call ≠ c.result := by
    decide +kernel
  obtain ⟨s, hs, hs'⟩ := (Option.any_eq_true _ _).mp hstale
  obtain ⟨c, hc, hc'⟩ := List.any_eq_true.mp hs'
  obtain ⟨hok, hall⟩ := Bool.and_eq_true_iff.mp hc'
  refine ⟨s, Reach.run .init hs, c, hc, ?_, fun ⟨r, hr, hstart, _, hresult⟩ => ?_⟩
  · cases hresult : c.result with
    | ok reply => exact ⟨reply, rfl⟩
    | error e =>
      rw [hresult] at hok
      cases hok
  · exact of_decide_eq_true (List.all_eq_true.mp hall r hr) hstart hresult.symm

end Rlldpctl.AsyncClient
