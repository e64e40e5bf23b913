import Rlldpctl.Sessions
import Rlldpctl.Wire.Calls

/-!
# Asking for every interface

`all_interfaces` asks for the list and then for each interface in it. A rejection is skipped, any other
failure ends the loop. The daemon's side is one frame for each request; since each is taken whole, the
replies stay with their requests.
-/

namespace Rlldpctl
open AsyncClient (sentBy block)
open ByteReader CLayout NativeBytes
open Utf8 (utf8Bytes)

variable {T : Target}

/-! ## One interface -/

/-- The details in a reply to `GET_INTERFACE`. -/
def Frame.details (f : Frame T) : Except Fault InterfaceDetails :=
  f.verdict .getInterface >>= Wire.decodeHardware T

/-- A reply of type `NONE`, whatever its payload is. -/
def Frame.Rejection (f : Frame T) : Prop := f.ty = HmsgType.none.toI32

/-- A reply that does not end the loop. -/
def Frame.Answers (f : Frame T) : Prop := f.Rejection ∨ ∃ details, f.details = .ok details

/-- A rejection has no details. -/
lemma Frame.details_rejection {f : Frame T} (h : f.Rejection) :
    f.details = .error (.error .requestRejected) := by
  unfold Frame.Rejection at h
  rw [Frame.details, Frame.verdict, if_pos h]
  rfl

/-- What is small fits a slice. -/
lemma small_le_isizeMax {p : List UInt8} (h : p.length ≤ hmsgMaxSize) : p.length ≤ T.isizeMax :=
  h.trans ((show hmsgMaxSize ≤ 2 ^ 31 - 1 by decide).trans T.isizeMax_ge)

/-- A decoder of an interface does not report a rejection. -/
lemma decodeHardware_error {p : List UInt8} (hlen : p.length ≤ T.isizeMax) {e : Fault}
    (h : Wire.decodeHardware T p = .error e) : ∃ msg, e = protocol msg := by
  obtain ⟨v, hv⟩ | ⟨msg, hmsg⟩ := Wire.returns_decodeHardware hlen
  · rw [hv] at h
    cases h
  · rw [hmsg] at h
    cases h
    exact ⟨msg, rfl⟩

/-- A reply that ends the loop fails with an error that is not a rejection. -/
lemma Frame.details_error {f : Frame T} (hsmall : f.Small) (h : ¬ f.Answers) :
    ∃ e, f.details = .error e ∧ e ≠ .error .requestRejected := by
  obtain ⟨hty, hdetails⟩ := not_or.mp h
  unfold Frame.Rejection at hty
  cases hd : f.details with
  | ok details => exact absurd ⟨details, hd⟩ hdetails
  | error e =>
    refine ⟨e, rfl, ?_⟩
    rw [Frame.details, Frame.verdict, if_neg hty] at hd
    split at hd
    · cases hd
      intro heq
      cases heq
    · obtain ⟨msg, rfl⟩ := decodeHardware_error (small_le_isizeMax hsmall) hd
      intro heq
      cases heq

/-- An exchange is its request and what is made of the reply. -/
lemma exchange_of {α : Type} {ty : HmsgType} {payload : List UInt8}
    {decode : List UInt8 → Except Fault α} {input out : List UInt8} {s : UnixStream}
    {r : Except Fault (List UInt8)}
    (h : readMessage T ty ⟨input, out ++ (encodeHeader T ty payload.length ++ payload)⟩ =
      (ofExcept r : Io _) s) :
    (request T ty payload >>= fun p => ofExcept (decode p) : Io α) ⟨input, out⟩ =
      (ofExcept (r >>= decode) : Io α) s := by
  let sent := encodeHeader T ty payload.length ++ payload
  have hwrite : writeAll sent ⟨input, out⟩ = .ok () ⟨input, out ++ sent⟩ := rfl
  unfold request
  rw [bind_assoc, bind_ok hwrite]
  cases r with
  | ok payload => exact bind_ok h
  | error e => exact bind_error h

section
variable (hT : ReadsWords T)
include hT

/-- An exchange takes one frame. -/
lemma exchange_frame {α : Type} {f : Frame T} (hsmall : f.Small) (ty : HmsgType)
    (payload : List UInt8) (decode : List UInt8 → Except Fault α) (rest out : List UInt8) :
    (request T ty payload >>= fun p => ofExcept (decode p) : Io α) ⟨f.bytes ++ rest, out⟩ =
      (ofExcept (f.verdict ty >>= decode) : Io α)
        ⟨rest, out ++ (encodeHeader T ty payload.length ++ payload)⟩ :=
  exchange_of (readMessage_frame (Or.inl hT) hsmall ty rest _)

/-- A request for an interface takes one frame. -/
lemma interface_frame {f : Frame T} (hsmall : f.Small) (name : String) (rest out : List UInt8) :
    Client.interface T name ⟨f.bytes ++ rest, out⟩ =
      (ofExcept f.details : Io _) ⟨rest, out ++ sentBy T (.interface name)⟩ :=
  exchange_frame hT hsmall .getInterface _ (Wire.decodeHardware T) rest out

/-- A request for the list takes one frame. -/
lemma interfaces_frame {f : Frame T} (hsmall : f.Small) (rest out : List UInt8) :
    Client.interfaces T ⟨f.bytes ++ rest, out⟩ =
      (ofExcept (f.verdict .getInterfaces >>= Wire.decodeInterfaces T) : Io _)
        ⟨rest, out ++ sentBy T .interfaces⟩ :=
  exchange_frame hT hsmall .getInterfaces [] (Wire.decodeInterfaces T) rest out

/-- An attempt at an interface takes one frame, whatever comes of it. -/
lemma attempt_frame {f : Frame T} (hsmall : f.Small) (name : String) (rest out : List UInt8) :
    attempt (Client.interface T name) ⟨f.bytes ++ rest, out⟩ =
      .ok f.details ⟨rest, out ++ sentBy T (.interface name)⟩ := by
  unfold attempt
  rw [interface_frame hT hsmall]
  cases f.details with
  | ok details => rfl
  | error e => rfl

end

/-- A request whose reply is not there whole. -/
lemma interface_ended {tail : List UInt8} (h : Ended T tail) (name : String) (out : List UInt8) :
    Client.interface T name ⟨tail, out⟩ =
      .error (.error (.io .unexpectedEof)) ⟨[], out ++ sentBy T (.interface name)⟩ :=
  exchange_of (r := .error _) (h .getInterface _)

/-- A list that was decoded was read on a target that reads words back. -/
lemma readsWords_of_decodeInterfaces {p : List UInt8} (hlen : p.length ≤ T.isizeMax)
    {ifaces : List Interface} (h : Wire.decodeInterfaces T p = .ok ifaces) : ReadsWords T := by
  by_contra hT
  obtain ⟨-, self, hok, -⟩ := Wire.decode_eq_ok.mp h
  obtain ⟨raw, s₁, hpod, -⟩ := bind_eq_ok hok
  by_cases hfits : Wire.PodFits T .interfaceList (Wire.Cursor.new p)
  · have hdeclared : (Wire.Cursor.new p).declared T = 0 := by
      refine Wire.wordAt_eq_zero hT ?_
      have hend := hfits.1
      omega
    have hsize := hfits.2
    have hpos := (Wire.sizeOf_bound T .interfaceList).1
    omega
  · have hrej := Wire.readChunkPod_rejects (Nat.zero_le _) hlen hfits
    rw [hpod] at hrej
    exact hrej.elim

/-! ## The loop -/

/-- The requests for the interfaces of a list. -/
def queries (T : Target) (ifaces : List Interface) : List UInt8 :=
  ifaces.flatMap fun iface => sentBy T (.interface iface.name)

/-- The request for the interface with this name, natively: its payload is a chunk with a pointer that is not
null, the size of the chunk, and the name with one NUL. -/
def nativeNameRequest (T : Target) (name : List UInt8) : List UInt8 :=
  nativeMessage T .getInterface
    (T.word 1 ++ T.word (2 * T.ptrSize + (name.length + 1)) ++ (name ++ [0]))

/-- The request for the list and those for the interfaces on it, natively. -/
def listingRequests (T : Target) (ifaces : List Interface) : List UInt8 :=
  nativeMessage T .getInterfaces [] ++ ifaces.flatMap fun iface => nativeNameRequest T (utf8Bytes iface.name)

/-- The request for the list is native. -/
lemma sentBy_interfaces (hT : ReadsWords T) : sentBy T .interfaces = nativeMessage T .getInterfaces [] :=
  encode_nativeMessage hT .getInterfaces []

/-- The request for an interface is native, and has its name in UTF-8. -/
lemma sentBy_interface (hT : ReadsWords T) (name : String) :
    sentBy T (.interface name) = nativeNameRequest T (utf8Bytes name) := by
  have hlength : (utf8Bytes name ++ [0]).length = (utf8Bytes name).length + 1 := List.length_append
  rw [nativeNameRequest, ← hlength]
  exact encode_nativeMessage hT .getInterface (Wire.encodeInterfaceNameRequest T name)

/-- What the client writes for a list is what a native program would write. -/
lemma listingRequests_eq (hT : ReadsWords T) (ifaces : List Interface) :
    sentBy T .interfaces ++ queries T ifaces = listingRequests T ifaces := by
  have hnames : queries T ifaces =
      ifaces.flatMap fun iface => nativeNameRequest T (utf8Bytes iface.name) :=
    List.flatMap_congr fun iface _ => sentBy_interface hT iface.name
  rw [listingRequests, hnames, sentBy_interfaces hT]

/-- The details in the replies that are not rejections. -/
def answers (fs : List (Frame T)) : List InterfaceDetails :=
  fs.filterMap fun f => f.details.toOption

section
variable (hT : ReadsWords T)
include hT

/-- What the loop does with the first reply, if it does not end it. -/
lemma details_cons {f : Frame T} (hsmall : f.Small) (h : f.Answers) (iface : Interface)
    (ifaces : List Interface) (rest out : List UInt8) :
    Client.details T (iface :: ifaces) ⟨f.bytes ++ rest, out⟩ =
      (Client.details T ifaces >>= fun ds => pure (answers [f] ++ ds) : Io _)
        ⟨rest, out ++ sentBy T (.interface iface.name)⟩ := by
  rw [Client.details, bind_ok (attempt_frame hT hsmall iface.name rest out), answers,
    List.filterMap_cons]
  obtain hrejected | ⟨details, hdetails⟩ := h
  · rw [f.details_rejection hrejected]
    exact congrFun (bind_pure _).symm _
  · rw [hdetails]
    rfl

/-- What the loop does with replies that do not end it: each is one element of the list. -/
lemma details_append {pre : List (Frame T)} (hsmall : ∀ f ∈ pre, f.Small)
    (h : ∀ f ∈ pre, f.Answers) {ifaces : List Interface} (hle : pre.length ≤ ifaces.length)
    (rest out : List UInt8) :
    Client.details T ifaces ⟨pre.flatMap Frame.bytes ++ rest, out⟩ =
      (Client.details T (ifaces.drop pre.length) >>= fun ds => pure (answers pre ++ ds) : Io _)
        ⟨rest, out ++ queries T (ifaces.take pre.length)⟩ := by
  induction pre generalizing ifaces out with
  | nil =>
    rw [queries, List.length_nil, List.take_zero, List.flatMap_nil, List.flatMap_nil,
      List.append_nil]
    exact congrFun (bind_pure _).symm _
  | cons f pre ih =>
    cases ifaces with
    | nil => cases hle
    | cons iface ifaces =>
      obtain ⟨hsmallHead, hsmallTail⟩ := List.forall_mem_cons.mp hsmall
      obtain ⟨hhead, htail⟩ := List.forall_mem_cons.mp h
      have hrest := ih hsmallTail htail (Nat.le_of_succ_le_succ hle)
        (out ++ sentBy T (.interface iface.name))
      have hanswers : ∀ ds, answers (f :: pre) ++ ds = answers [f] ++ (answers pre ++ ds) := by
        intro ds
        rw [answers, answers, answers, ← List.append_assoc, ← List.filterMap_append]
        rfl
      have hqueries : out ++ queries T ((iface :: ifaces).take (f :: pre).length) =
          out ++ sentBy T (.interface iface.name) ++ queries T (ifaces.take pre.length) :=
        (List.append_assoc _ _ _).symm
      rw [List.flatMap_cons, List.append_assoc, details_cons hT hsmallHead hhead, hqueries,
        List.length_cons, List.drop_succ_cons]
      simp only [hanswers]
      cases hx : Client.details T (ifaces.drop pre.length) ⟨rest, out ++
          sentBy T (.interface iface.name) ++ queries T (ifaces.take pre.length)⟩ with
      | ok ds s =>
        rw [bind_ok hx] at hrest
        rw [bind_ok hrest, bind_ok hx]
      | error e s =>
        rw [bind_error hx] at hrest
        rw [bind_error hrest, bind_error hx]

/-- A request that fails otherwise than by a rejection ends the loop. -/
lemma details_stops {pre : List (Frame T)} (hsmall : ∀ f ∈ pre, f.Small)
    (h : ∀ f ∈ pre, f.Answers) {ifaces : List Interface} (hlt : pre.length < ifaces.length)
    {input rest : List UInt8} {e : Fault} (hne : e ≠ .error .requestRejected)
    (hstop : ∀ name out, Client.interface T name ⟨input, out⟩ =
      .error e ⟨rest, out ++ sentBy T (.interface name)⟩) (out : List UInt8) :
    Client.details T ifaces ⟨pre.flatMap Frame.bytes ++ input, out⟩ =
      .error e ⟨rest, out ++ queries T (ifaces.take (pre.length + 1))⟩ := by
  have hqueries : queries T (ifaces.take (pre.length + 1)) =
      queries T (ifaces.take pre.length) ++ sentBy T (.interface ifaces[pre.length].name) := by
    rw [← List.take_concat_get' ifaces pre.length hlt, queries, List.flatMap_append,
      List.flatMap_singleton]
    rfl
  rw [details_append hT hsmall h hlt.le, List.drop_eq_getElem_cons hlt, hqueries,
    ← List.append_assoc]
  refine bind_error ?_
  have hattempt : ∀ out, attempt (Client.interface T ifaces[pre.length].name) ⟨input, out⟩ =
      .ok (.error e) ⟨rest, out ++ sentBy T (.interface ifaces[pre.length].name)⟩ := by
    intro out
    unfold attempt
    rw [hstop]
  rw [Client.details, bind_ok (hattempt _)]
  cases e with
  | panic => rfl
  | error e =>
    cases e with
    | requestRejected => exact absurd rfl hne
    | io _ => rfl
    | unexpectedMessageType _ _ => rfl
    | protocol _ => rfl

end

/-- The first reply that is no answer ends the loop with the error of this reply. -/
lemma details_ended (hT : ReadsWords T) {pre post : List (Frame T)} {f : Frame T}
    (hsmall : ∀ g ∈ pre ++ f :: post, g.Small) (hpre : ∀ g ∈ pre, g.Answers) (hf : ¬ f.Answers)
    {ifaces : List Interface} (hlen : (pre ++ f :: post).length = ifaces.length)
    (rest out : List UInt8) :
    ∃ e, f.details = .error e ∧
      Client.details T ifaces ⟨(pre ++ f :: post).flatMap Frame.bytes ++ rest, out⟩ =
        .error e ⟨post.flatMap Frame.bytes ++ rest,
          out ++ queries T (ifaces.take (pre.length + 1))⟩ := by
  obtain ⟨hsmallPre, hsmallPost⟩ := List.forall_mem_append.mp hsmall
  obtain ⟨hsmallHead, -⟩ := List.forall_mem_cons.mp hsmallPost
  obtain ⟨e, he, hne⟩ := f.details_error hsmallHead hf
  have hlt : pre.length < ifaces.length := by
    rw [← hlen, List.length_append, List.length_cons]
    omega
  refine ⟨e, he, ?_⟩
  rw [List.flatMap_append, List.flatMap_cons, List.append_assoc, List.append_assoc]
  refine details_stops hT hsmallPre hpre hlt hne (fun name out => ?_) out
  rw [interface_frame hT hsmallHead, he]
  rfl

/-- The requests that the loop sends are those for the interfaces at the front of the list, and for all of
them when no reply ends it. -/
lemma details_output (hT : ReadsWords T) {ifaces : List Interface} {fs : List (Frame T)}
    (hlen : fs.length = ifaces.length) (hsmall : ∀ f ∈ fs, f.Small) (rest out : List UInt8) :
    ∃ m, (final (Client.details T ifaces ⟨fs.flatMap Frame.bytes ++ rest, out⟩)).output =
      out ++ queries T (ifaces.take m) ∧ ((∀ f ∈ fs, f.Answers) → m = ifaces.length) := by
  classical
  by_cases h : ∀ f ∈ fs, f.Answers
  · refine ⟨ifaces.length, ?_, fun _ => rfl⟩
    rw [details_append hT hsmall h hlen.le, hlen, List.drop_length]
    rfl
  · -- the first reply that ends the loop
    obtain ⟨f, hf⟩ : ∃ f, fs.find? (fun f => decide (¬ f.Answers)) = some f := by
      refine Option.isSome_iff_exists.mp (List.find?_isSome.mpr ?_)
      push Not at h
      obtain ⟨f, hmem, hf⟩ := h
      exact ⟨f, hmem, decide_eq_true hf⟩
    obtain ⟨hstop, pre, post, rfl, hpre⟩ := List.find?_eq_some_iff_append.mp hf
    have hpre : ∀ g ∈ pre, g.Answers := fun g hg => by simpa using hpre g hg
    obtain ⟨e, -, hended⟩ :=
      details_ended hT hsmall hpre (of_decide_eq_true hstop) hlen rest out
    refine ⟨pre.length + 1, ?_, fun hall => absurd hall h⟩
    rw [hended]
    rfl

/-- `all_interfaces` is a filter over the list that keeps its order. It asks for the interfaces one at a
time, by the names on the list and in its order, and returns the details in the replies that are not
rejections. The first reply that is neither ends it with the error of this reply and no further request is
sent. The async client does the same. -/
theorem all_interfaces_filters {listing : Frame T} {ifaces : List Interface} {fs : List (Frame T)}
    (hty : listing.ty = HmsgType.getInterfaces.toI32) (hlisting : listing.Small)
    (hlist : Wire.decodeInterfaces T listing.payload = .ok ifaces)
    (hlen : fs.length = ifaces.length) (hsmall : ∀ f ∈ fs, f.Small) (rest out : List UInt8) :
    ((∀ f ∈ fs, f.Answers) →
      Client.allInterfaces T ⟨(listing :: fs).flatMap Frame.bytes ++ rest, out⟩ =
        .ok (answers fs) ⟨rest, out ++ listingRequests T ifaces⟩) ∧
    (∀ pre f post, fs = pre ++ f :: post → (∀ g ∈ pre, g.Answers) → ¬ f.Answers →
      ∃ e, f.details = .error e ∧
        Client.allInterfaces T ⟨(listing :: fs).flatMap Frame.bytes ++ rest, out⟩ =
          .error e ⟨post.flatMap Frame.bytes ++ rest,
            out ++ listingRequests T (ifaces.take (pre.length + 1))⟩) ∧
    (∀ pre f post tail, fs = pre ++ f :: post → (∀ g ∈ pre, g.Answers) →
      tail <+: f.bytes → tail ≠ f.bytes →
      Client.allInterfaces T ⟨(listing :: pre).flatMap Frame.bytes ++ tail, out⟩ =
        .error (.error (.io .unexpectedEof))
          ⟨[], out ++ listingRequests T (ifaces.take (pre.length + 1))⟩) ∧
    block (AsyncClient.allInterfaces T) = Client.allInterfaces T := by
  have hT := readsWords_of_decodeInterfaces (small_le_isizeMax hlisting) hlist
  have hsent : ∀ asked, out ++ listingRequests T asked =
      out ++ sentBy T .interfaces ++ queries T asked := by
    intro asked
    rw [← listingRequests_eq hT, List.append_assoc]
  have hverdict : listing.verdict .getInterfaces = .ok listing.payload := by
    rw [Frame.verdict, hty]
    rfl
  -- after the list the loop runs on what is left of the stream
  have hloop : ∀ input, Client.allInterfaces T ⟨listing.bytes ++ input, out⟩ =
      Client.details T ifaces ⟨input, out ++ sentBy T .interfaces⟩ := by
    intro input
    have h := interfaces_frame hT hlisting input out
    rw [hverdict] at h
    change _ = (ofExcept (Wire.decodeInterfaces T listing.payload) : Io _) _ at h
    rw [hlist] at h
    exact bind_ok h
  refine ⟨fun h => ?_, fun pre f post hfs hpre hf => ?_,
    fun pre f post tail hfs hpre htail hne => ?_, AsyncClient.block_allInterfaces⟩
  · rw [List.flatMap_cons, List.append_assoc, hloop, details_append hT hsmall h hlen.le, hlen,
      List.drop_length, List.take_length, hsent]
    show EStateM.Result.ok (answers fs ++ []) _ = _
    rw [List.append_nil]
  · subst hfs
    obtain ⟨e, he, hended⟩ :=
      details_ended hT hsmall hpre hf hlen rest (out ++ sentBy T .interfaces)
    refine ⟨e, he, ?_⟩
    rw [List.flatMap_cons, List.append_assoc, hloop, hended, hsent]
  · subst hfs
    obtain ⟨hsmallPre, hsmallPost⟩ := List.forall_mem_append.mp hsmall
    obtain ⟨hsmallHead, -⟩ := List.forall_mem_cons.mp hsmallPost
    have hended : Ended T tail := ended_cut (fun _ => Or.inl hT) hsmallHead htail hne
    have hlt : pre.length < ifaces.length := by
      rw [← hlen, List.length_append, List.length_cons]
      omega
    rw [List.flatMap_cons, List.append_assoc, hloop, hsent]
    have hne' : Fault.error (.io .unexpectedEof) ≠ .error .requestRejected := by
      intro heq
      cases heq
    exact details_stops hT hsmallPre hpre hlt hne' (interface_ended hended) _

/-- The reply with the list of two interfaces. -/
def twoListed : Frame .lp64le :=
  .of .lp64le .getInterfaces
    (Wire.interfacesMessage (.zeroed _ _) (Wire.twoInterfaces .lp64le)) Wire.length_twoInterfaces

/-- A rejection with a payload. -/
def rejection : Frame .lp64le :=
  .of .lp64le .none [1, 2] (by decide)

/-- The reply with an interface of two neighbors. -/
def described : Frame .lp64le :=
  .of .lp64le .getInterface
    (Wire.hardwareMessage (Wire.Naming.orig .lp64le) (Wire.sampleHeap .lp64le)
      (Wire.sampleHardware .lp64le)) (Wire.length_sampleHardware_le.trans (by decide))

/-- A message is small when its payload is. -/
lemma Frame.small_of {ty : HmsgType} {payload : List UInt8} {h : payload.length ≤ T.usizeMax}
    (hle : payload.length ≤ hmsgMaxSize) : (Frame.of T ty payload h).Small := hle

/-- The reply with the two neighbors is small. -/
lemma described_small : described.Small := Frame.small_of Wire.length_sampleHardware_le

/-- The details in a reply are decoded from its payload. -/
lemma Frame.details_of {payload : List UInt8} {h : payload.length ≤ T.usizeMax} :
    (Frame.of T .getInterface payload h).details = Wire.decodeHardware T payload := rfl

/-- The details in the reply with the two neighbors. -/
lemma described_details : described.details =
    .ok ((Wire.sampleHardware .lp64le).value (Wire.sampleHeap .lp64le)) :=
  Frame.details_of.trans (Wire.decodeHardware_of_legacy
    (Wire.decodeHardwareAs_hardwareMessage _ _ (Or.inl rfl) _ Wire.length_sampleHardware))

/-- One interface is rejected and one is described. -/
theorem all_interfaces_filters_described :
    Client.allInterfaces .lp64le ⟨[twoListed, rejection, described].flatMap Frame.bytes ++ [], []⟩ =
      .ok (answers [rejection, described])
        ⟨[], [] ++ listingRequests .lp64le [⟨"", some ""⟩, ⟨"eth0", none⟩]⟩ := by
  have hlist : Wire.decodeInterfaces .lp64le twoListed.payload =
      .ok [⟨"", some ""⟩, ⟨"eth0", none⟩] := by decide +kernel
  refine (all_interfaces_filters rfl (by decide +kernel) hlist rfl ?_ [] []).1 ?_
  · exact List.forall_mem_cons.mpr
      ⟨by decide, List.forall_mem_singleton.mpr described_small⟩
  · exact List.forall_mem_cons.mpr
      ⟨Or.inl rfl, List.forall_mem_singleton.mpr (Or.inr ⟨_, described_details⟩)⟩

end Rlldpctl
