import Rlldpctl.Daemon
import Rlldpctl.Lib.Exchange
import Rlldpctl.Methods

/-!
# An async client and the daemon

The methods of `AsyncClient` and `AsyncSubscription` as operations of `Exchange`, with the daemon at the
other end. However the bytes are split and whenever pending calls are dropped, a run that makes no call
after one that was dropped halfway is a sequence of operations on what the daemon keeps: each call returns
what the daemon has at one moment between the call and its return, `set_port_description` takes effect
exactly once, and after `subscribe` the notifications come one after another.
-/

namespace Rlldpctl
open Async ByteReader
open AsyncClient (sentBy block)
open Wire (Naming)

variable {T : Target} {κ σ : Type}

/-- `subscribe` writes something. -/
lemma Method.subscribe_ne_nil : Method.request T .subscribe ≠ [] := by
  intro hnil
  have hlen := congrArg List.length hnil
  have hge := headerLen_ge T
  change (encodeHeader T .subscribe _ ++ []).length = 0 at hlen
  rw [List.append_nil, encodeHeader_eq, Header.length_bytes] at hlen
  omega

/-- A request is a frame. -/
lemma Method.request_frame (hT : ReadsWords T) {m : Method} (hfit : (m.request T).length ≤ T.isizeMax)
    (hne : m.request T ≠ []) : ∃ f : Frame T, m.request T = f.bytes := by
  have hsize : ∀ payload : List UInt8, payload.length ≤ T.isizeMax → payload.length ≤ T.usizeMax := by
    intro payload hle
    have h := T.two_mul_isizeMax
    omega
  cases m with
  | call c =>
    rw [request, sentBy, List.length_append] at hfit
    exact ⟨_, encode_frame hT c.ty (hsize _ ((Nat.le_add_left _ _).trans hfit))⟩
  | subscribe => exact ⟨_, encode_frame hT .subscribe (Nat.zero_le _)⟩
  | nextChange => exact absurd rfl hne

/-! ## Sessions -/

/-- A method whose request fits in memory. -/
abbrev Operation (T : Target) := {m : Method // (m.request T).length ≤ T.isizeMax}

/-- A frame that is not larger than the daemon builds. -/
abbrev Message (T : Target) := {f : Frame T // f.Small}

/-- The methods as operations on a connection. -/
def session (hT : ReadsWords T) : Exchange.Protocol (Operation T) (Message T) Returned where
  prog i := i.1.fut T
  request i := i.1.request T
  body i := i.1.reading T
  bytes m := m.1.bytes
  outcome i m := i.1.judge T (.frame m.1.ty m.1.payload)
  front := AsyncClient.requestLen T
  opens request := requestTy T request = HmsgType.subscribe.toI32
  settle_prog i := i.1.settle_fut
  reads i := i.1.reads
  awaits i := i.1.awaits
  takes i m rest := i.1.takes (Or.inl hT) m.2 rest
  front_nil := AsyncClient.requestLen_nil
  front_request i hne := by
    obtain ⟨f, hf⟩ := Method.request_frame hT i.2 hne
    have h := f.requestLen []
    rwa [List.append_nil, ← hf] at h
  front_part i written rest h hrest := by
    have hne : i.1.request T ≠ [] := h ▸ List.append_ne_nil_of_right_ne_nil _ hrest
    obtain ⟨f, hf⟩ := Method.request_frame hT i.2 hne
    exact f.requestLen_part (h.trans hf) hrest

namespace Lldpd
variable [DecidableEq κ] (D : Lldpd T κ σ)

/-- The daemon as the server of a session. -/
def service : Exchange.Service σ (Message T) where
  answers before request reply after := D.Replies before (Query.parse T request) reply.1 after
  notifies before message after := D.Notifies before message.1 after
  changes := D.changes

/-- What `next_change` returns for a notification. -/
def Notified (before : σ) (x : Wire.NeighborChangeNode T κ)
    (r : Except Fault (Option NeighborChange)) : Prop :=
  match x.value (D.heap before) with
  | some change => r = .ok (some change)
  | none => ∃ msg, r = .error (protocol msg)

/-- A call saw the daemon as it was before this message and had its effect with it; it had been called
by then. A call of `next_change` saw what the daemon notified subscribers of. -/
def Saw (c : Exchange.Completed (Operation T) Returned) (e : Exchange.Sent σ (Message T) × Nat) :
    Prop :=
  match c.op.1 with
  | .call call =>
    c.began ≤ e.2 ∧ c.result = .reply (D.result e.1.before call) ∧
      e.1.after = D.effect e.1.before call
  | .subscribe => c.began ≤ e.2 ∧ c.result = .subscribed (.ok ()) ∧ e.1.after = e.1.before
  | .nextChange => ∃ x r, D.notifies e.1.before x e.1.after ∧ c.result = .change r ∧
      D.Notified e.1.before x r

end Lldpd

/-- The request of `subscribe` is read as such. -/
lemma Query.parse_subscribe (hT : ReadsWords T) :
    Query.parse T (Method.request T .subscribe) = .subscribe := by
  have hframe : Method.request T .subscribe = (Frame.of T .subscribe [] (Nat.zero_le _)).bytes ++ [] := by
    rw [List.append_nil]
    exact encode_frame hT .subscribe (Nat.zero_le _)
  unfold Query.parse
  rw [hframe, Frame.requestTy]
  rfl

/-- What `next_change` makes of a notification. -/
lemma Lldpd.Notifies.item [DecidableEq κ] {D : Lldpd T κ σ} (hT : ReadsWords T) {before after : σ}
    {f : Frame T} (hsmall : f.Small) (h : D.Notifies before f after) :
    ∃ x, D.notifies before x after ∧ D.Notified before x (f.item.map some) := by
  obtain ⟨x, hx, hty, hpayload⟩ := h
  have hlen := small_le_isizeMax (T := T) hsmall
  rw [hpayload] at hlen
  obtain ⟨hsome, hnone⟩ := Wire.decode_neighborChange (Naming.orig T) (D.heap before) hT x hlen
  have hverdict : f.verdict .notification = .ok f.payload := Frame.verdict_of_ty hty nofun
  refine ⟨x, hx, ?_⟩
  rw [Frame.item, hverdict, hpayload, Notified]
  show match x.value (D.heap before) with
    | some change => (Wire.decodeNeighborChange T _).map some = .ok (some change)
    | none => ∃ msg, (Wire.decodeNeighborChange T _).map some = .error (protocol msg)
  cases hv : x.value (D.heap before) with
  | some change =>
    rw [hsome change hv]
    rfl
  | none =>
    obtain ⟨msg, hmsg⟩ := hnone hv
    rw [hmsg]
    exact ⟨msg, rfl⟩

/-- A message that explains an operation is one that it saw. -/
lemma Lldpd.saw [DecidableEq κ] {D : Lldpd T κ σ} (hT : ReadsWords T)
    {c : Exchange.Completed (Operation T) Returned} {e : Exchange.Sent σ (Message T) × Nat}
    (hpermits : D.service.Permits (.sent e.1)) (h : (session hT).Explains c e) : D.Saw c e := by
  obtain ⟨⟨m, hfit⟩, began, r⟩ := c
  obtain ⟨⟨before, request, message, after⟩, time⟩ := e
  obtain ⟨hbelongs, hresult⟩ := h
  cases m with
  | nextChange =>
    cases request with
    -- a reply answers no operation without a request
    | some request => exact absurd rfl hbelongs.1
    | none =>
      obtain ⟨x, hx, hnotified⟩ := Lldpd.Notifies.item hT message.2 hpermits
      exact ⟨x, _, hx, hresult.trans message.1.judge_nextChange, hnotified⟩
  | call call =>
    cases request with
    | none => exact absurd hbelongs (AsyncClient.sentBy_ne_nil call)
    | some request =>
      obtain ⟨-, rfl, hbegan⟩ := hbelongs
      change D.Replies before (Query.parse T (sentBy T call)) message.1 after at hpermits
      rw [Query.parse_sentBy hT hfit] at hpermits
      obtain ⟨houtcome, hafter⟩ := hpermits.call hT message.2
      refine ⟨hbegan, ?_, hafter⟩
      rw [← houtcome]
      exact hresult.trans (message.1.judge_call call)
  | subscribe =>
    cases request with
    | none => exact absurd hbelongs Method.subscribe_ne_nil
    | some request =>
      obtain ⟨-, rfl, hbegan⟩ := hbelongs
      change D.Replies before (Query.parse T (Method.request T .subscribe)) message.1 after at hpermits
      rw [Query.parse_subscribe hT] at hpermits
      obtain ⟨hafter, hty, -⟩ := hpermits
      have hverdict : message.1.verdict .subscribe = .ok message.1.payload :=
        Frame.verdict_of_ty hty nofun
      refine ⟨hbegan, (hresult.trans message.1.judge_subscribe).trans ?_, hafter⟩
      rw [hverdict]
      rfl

/-- Operations that are explained saw the messages that explain them. -/
lemma Lldpd.saw_all [DecidableEq κ] {D : Lldpd T κ σ} (hT : ReadsWords T)
    {cs : List (Exchange.Completed (Operation T) Returned)}
    {es : List (Exchange.Sent σ (Message T) × Nat)} (hpermits : ∀ e ∈ es, D.service.Permits (.sent e.1))
    (h : List.Forall₂ (session hT).Explains cs es) : List.Forall₂ D.Saw cs es := by
  induction h with
  | nil => exact .nil
  | cons hexplains _ ih =>
    obtain ⟨hhead, htail⟩ := List.forall_mem_cons.mp hpermits
    exact .cons (Lldpd.saw hT hhead hexplains) (ih htail)

/-- What was sent in a legal history was permitted. -/
lemma Lldpd.permits_sends [DecidableEq κ] {D : Lldpd T κ σ} {server₀ server : σ}
    {history : List (Exchange.Moment σ (Message T))}
    (hlegal : Exchange.Legal D.service server₀ history server) {n : Nat} :
    ∀ e ∈ (Exchange.sends history).take n, D.service.Permits (.sent e.1) :=
  fun _ he => hlegal.permits (Exchange.mem_of_mem_sends (List.mem_of_mem_take he))

/-- A neighbor that has been added to `eth0`, without its details. -/
def addedNode : Wire.NeighborChangeNode .lp64le Empty :=
  ⟨.zeroed _ _, some "eth0", none, 1, none⟩

/-- A daemon that keeps the alias of `eth0`. -/
def aliasOnly : Lldpd .lp64le Empty (Option (List UInt8)) where
  interfaces server := (.zeroed _ _, [{ eth0Node with «alias» := server }])
  heap _ := Empty.elim
  hardware _ _ := none
  setPort _ _ ifname description := if ifname = eth0Node.name then some (some description) else none
  changes _ _ := False
  notifies server x after := x = addedNode ∧ after = server

/-- There is one notification only. -/
instance (before : Option (List UInt8)) (message : Frame .lp64le) (after : Option (List UInt8)) :
    Decidable (aliasOnly.Notifies before message after) :=
  decidable_of_iff (after = before ∧ message.ty = HmsgType.notification.toI32 ∧
      message.payload = Wire.neighborChangeMessage (Naming.orig _) Empty.elim addedNode)
    ⟨fun ⟨hafter, hmessage⟩ => ⟨addedNode, ⟨rfl, hafter⟩, hmessage⟩,
      fun ⟨_, ⟨hx, hafter⟩, hmessage⟩ => ⟨hafter, hx ▸ hmessage⟩⟩

section
variable (before after : Option (List UInt8)) (message : Message .lp64le)

/-- An answer is compared with the one that the daemon makes. -/
instance (request : List UInt8) : Decidable (aliasOnly.service.answers before request message after) :=
  inferInstanceAs (Decidable (aliasOnly.Replies _ _ _ _))

/-- A notification is compared with the only one. -/
instance : Decidable (aliasOnly.service.notifies before message after) :=
  inferInstanceAs (Decidable (aliasOnly.Notifies _ _ _))

/-- The daemon does not change by itself. -/
instance : Decidable (aliasOnly.service.changes before after) := instDecidableFalse

end

/-- The type of a request is compared with `SUBSCRIBE`. -/
instance (hT : ReadsWords T) (request : List UInt8) : Decidable ((session hT).opens request) :=
  inferInstanceAs (Decidable (requestTy T request = HmsgType.subscribe.toI32))

/-- The 64-bit little-endian target reads words back. -/
lemma readsWords_lp64le : ReadsWords .lp64le := Or.inl rfl

/-- The request for a description is short. -/
lemma fits_describe :
    (Method.request .lp64le (.call (.setPortDescription "eth0" "up"))).length ≤
      Target.lp64le.isizeMax := by
  decide +kernel

/-- The request for the list is short. -/
lemma fits_list : (Method.request .lp64le (.call .interfaces)).length ≤ Target.lp64le.isizeMax := by
  decide +kernel

/-- A reply without a payload. -/
def ack (ty : HmsgType) : Frame .lp64le := { refusal .lp64le with ty := ty.toI32 }

/-- An acknowledgement is small. -/
lemma small_ack (ty : HmsgType) : (ack ty).Small := Nat.zero_le _

/-- The list with the description is short. -/
lemma length_aliased : (Wire.namesMessage (.zeroed _ _)
    [{ eth0Node with «alias» := some [0x75, 0x70] }]).length ≤ Target.lp64le.usizeMax := by
  decide +kernel

/-- So it is small. -/
lemma small_aliased : (namesReply [{ eth0Node with «alias» := some [0x75, 0x70] }] length_aliased).Small := by
  decide +kernel

end Rlldpctl
