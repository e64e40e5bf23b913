import Rlldpctl.Names
import Rlldpctl.Replies
import Rlldpctl.Wire.Requests

/-!
# The daemon

The other end of the socket. A daemon reads a request natively (`Query.parse`), looks at what it keeps or
changes it, and replies with the serialized structures, or with a message of type `NONE` when it cannot
honor the request. What it keeps and how that changes is a parameter (`Lldpd`).

A call is then an operation on what the daemon keeps: its request is read as the query it stands for, and
its result is the answer to this query (`Lldpd.Replies.call`).
-/

namespace Rlldpctl
open AsyncClient (sentBy requestLen nativeLen)
open CLayout NativeBytes
open Wire (Raw NamedNode HardwareNode ChassisNode NeighborChangeNode Naming)

variable {T : Target} {κ σ : Type}

/-! ## Requests -/

/-- The type in the header of a request, as the daemon reads it. -/
def requestTy (T : Target) (request : List UInt8) : Int32 :=
  (UInt32.ofNat (T.endian.nat (slice request 0 4))).toInt32

/-- The `lldpd_port_set` of a `SET_PORT` request. -/
def portSetChunk (T : Target) (payload : List UInt8) : Option (Raw T .portSet) :=
  if h : (slice payload (2 * T.ptrSize) (Wire.sizeOf T .portSet)).length = Wire.sizeOf T .portSet then
    some ⟨_, h⟩
  else
    none

/-- What a request asks for. -/
inductive Query (T : Target) where
  | interfaces
  | interface (name : List UInt8)
  | setPort (settings : Raw T .portSet) (ifname description : List UInt8)
  | subscribe
  | unknown

/-- What the daemon takes a request for. -/
def Query.parse (T : Target) (request : List UInt8) : Query T :=
  let payload := request.drop (headerLen T)
  if requestTy T request = HmsgType.getInterfaces.toI32 then
    .interfaces
  else if requestTy T request = HmsgType.getInterface.toI32 then
    .interface (Wire.cString (Wire.nameChunk T payload))
  else if requestTy T request = HmsgType.setPort.toI32 then
    match portSetChunk T payload with
    | some settings =>
      .setPort settings (Wire.cString (Wire.ifnameChunk T payload))
        (Wire.cString (Wire.descriptionChunk T payload))
    | none => .unknown
  else if requestTy T request = HmsgType.subscribe.toI32 then
    .subscribe
  else
    .unknown

/-- What a call asks for. Its strings end at their first NUL. -/
def Call.query (T : Target) : Call → Query T
  | .interfaces => .interfaces
  | .interface ifname => .interface (Wire.cString (Wire.stringContent ifname))
  | .setPortDescription ifname description =>
    .setPort (Wire.portSetPod T) (Wire.cString (Wire.stringContent ifname))
      (Wire.cString (Wire.stringContent description))

/-- What the client writes for a request is a frame. -/
lemma encode_frame (hT : ReadsWords T) (ty : HmsgType) {payload : List UInt8}
    (h : payload.length ≤ T.usizeMax) :
    encodeHeader T ty payload.length ++ payload = (Frame.of T ty payload h).bytes :=
  encode_nativeMessage hT ty payload

/-- The type of a request that begins the stream. -/
lemma Frame.requestTy (f : Frame T) (rest : List UInt8) :
    Rlldpctl.requestTy T (f.bytes ++ rest) = f.ty := by
  have h4 : 0 + 4 ≤ f.header.bytes.length := by
    have h := headerLen_ge T
    rw [Header.length_bytes]
    omega
  have hlt : f.ty.toUInt32.toNat < 256 ^ 4 := f.ty.toUInt32.toNat_lt
  rw [Rlldpctl.requestTy, Frame.bytes, List.append_assoc, slice_append_of_le h4, Frame.header,
    Header.get_type, Endian.nat_bytes_of_lt _ hlt, UInt32.ofNat_toNat]
  rfl

/-- What is behind the header of a frame. -/
lemma Frame.drop_header (f : Frame T) (rest : List UInt8) :
    (f.bytes ++ rest).drop (headerLen T) = f.payload ++ rest := by
  rw [Frame.bytes, List.append_assoc, ← Header.length_bytes f.header, List.drop_left]

/-- The length of a frame. -/
lemma Frame.length_bytes (f : Frame T) : f.bytes.length = headerLen T + f.payload.length := by
  rw [Frame.bytes, List.length_append, Header.length_bytes]

/-- The length in a header is read natively on every target. -/
lemma Frame.nativeLen (f : Frame T) (rest : List UInt8) :
    nativeLen T (f.header.bytes ++ rest) = f.payload.length := by
  have hend : alignUp 4 T.ptrSize + T.ptrSize ≤ f.header.bytes.length := by
    rw [Header.length_bytes]
    exact le_rfl
  rw [AsyncClient.nativeLen, slice_append_of_le hend, Frame.header, Header.get_len, Target.word,
    Endian.nat_bytes]
  exact Nat.mod_eq_of_lt ((T.lt_pow_iff _).mpr f.length_le)

/-- A frame is found at the front of what was written. -/
lemma Frame.requestLen (f : Frame T) (rest : List UInt8) :
    requestLen T (f.bytes ++ rest) = some f.bytes.length := by
  have hlen : AsyncClient.nativeLen T (f.bytes ++ rest) = f.payload.length := by
    rw [Frame.bytes, List.append_assoc]
    exact f.nativeLen _
  rw [AsyncClient.requestLen, hlen, ← f.length_bytes, List.length_append]
  exact if_pos (Nat.le_add_right _ _)

/-- A frame that is not written whole is not found. -/
lemma Frame.requestLen_part (f : Frame T) {written rest : List UInt8}
    (h : written ++ rest = f.bytes) (hrest : rest ≠ []) : AsyncClient.requestLen T written = none := by
  refine if_neg fun hle => ?_
  have hpos := List.length_pos_iff.mpr hrest
  have hlen := congrArg List.length h
  rw [List.length_append, f.length_bytes] at hlen
  -- the header is there, so the length is that of the frame
  obtain ⟨more, rfl⟩ : f.header.bytes <+: written := by
    refine List.prefix_of_prefix_length_le (List.prefix_append _ f.payload) ⟨rest, h⟩ ?_
    rw [Header.length_bytes]
    exact (Nat.le_add_right _ _).trans hle
  rw [f.nativeLen] at hle
  omega

/-- The settings in a `SET_PORT` request are those that leave everything else as it is. -/
lemma portSetChunk_encode (ifname description : String) :
    portSetChunk T (Wire.encodeSetPortDescriptionRequest T ifname description) =
      some (Wire.portSetPod T) := by
  have hslice : slice (Wire.encodeSetPortDescriptionRequest T ifname description) (2 * T.ptrSize)
      (Wire.sizeOf T .portSet) = (Wire.portSetPod T).bytes := by
    rw [Wire.encodeSetPortDescriptionRequest_eq, Wire.chunk, Wire.front]
    have hs := slice_append (T.word 1 ++ T.word (2 * T.ptrSize + (Wire.portSetPod T).bytes.length +
      (Nesting.nested T.ptrSize (2 * T.ptrSize + (Wire.portSetPod T).bytes.length)
        (Wire.portSetStrings T ifname description)).length)) (Wire.portSetPod T).bytes
      (Nesting.nested T.ptrSize (2 * T.ptrSize + (Wire.portSetPod T).bytes.length)
        (Wire.portSetStrings T ifname description))
    rw [List.length_append, T.length_word, T.length_word, ← Nat.two_mul, Pod.length_eq] at hs
    rwa [Pod.length_eq]
  have hlen := hslice ▸ (Wire.portSetPod T).length_eq
  rw [portSetChunk, dif_pos hlen]
  exact congrArg some (Pod.ext hslice)

section
variable (hT : ReadsWords T)
include hT

/-- What a call writes is a frame with the payload of the call. -/
lemma sentBy_frame {c : Call} (hfit : (sentBy T c).length ≤ T.isizeMax) :
    ∃ f : Frame T, sentBy T c = f.bytes ++ [] ∧ f.ty = c.ty.toI32 ∧ f.payload = c.payload T := by
  rw [sentBy, List.length_append] at hfit
  have hmax := T.two_mul_isizeMax
  have hsize : (c.payload T).length ≤ T.usizeMax := by omega
  refine ⟨Frame.of T c.ty (c.payload T) hsize, ?_, rfl, rfl⟩
  rw [List.append_nil]
  exact encode_frame hT c.ty hsize

/-- The daemon takes the request of a call for what the call asks for. -/
lemma Query.parse_sentBy {c : Call} (hfit : (sentBy T c).length ≤ T.isizeMax) :
    Query.parse T (sentBy T c) = c.query T := by
  have hpayload : (c.payload T).length ≤ T.isizeMax := by
    rw [sentBy, List.length_append] at hfit
    exact (Nat.le_add_left _ _).trans hfit
  obtain ⟨f, hframe, hfty, hfpayload⟩ := sentBy_frame hT hfit
  have hty := f.requestTy []
  have hdrop := f.drop_header []
  rw [← hframe, hfty] at hty
  rw [← hframe, List.append_nil, hfpayload] at hdrop
  unfold Query.parse
  rw [hty, hdrop]
  cases c with
  | interfaces => rfl
  | interface ifname =>
    show Query.interface (Wire.cString (Wire.nameChunk T (Wire.encodeInterfaceNameRequest T ifname))) =
      _
    rw [Wire.nameChunk_encode hpayload]
    rfl
  | setPortDescription ifname description =>
    obtain ⟨hname, hdescription⟩ := Wire.portSetChunks_encode hpayload
    show (match portSetChunk T (Wire.encodeSetPortDescriptionRequest T ifname description) with
      | some settings => Query.setPort settings
          (Wire.cString (Wire.ifnameChunk T (Wire.encodeSetPortDescriptionRequest T ifname description)))
          (Wire.cString
            (Wire.descriptionChunk T (Wire.encodeSetPortDescriptionRequest T ifname description)))
      | none => .unknown) = _
    rw [portSetChunk_encode, hname, hdescription]
    rfl

end

/-! ## What the daemon keeps -/

/-- What lldpd keeps, in states `σ`, with `κ` to name the chassis: the interfaces, the details of the
interface with a name, if there is one, and what it is after `SET_PORT`, if it honors the request. Neighbors
come and go by themselves (`changes`), of which subscribers are notified. The list has names and aliases of any
bytes; the texts in the details and in the notifications are UTF-8. -/
structure Lldpd (T : Target) (κ σ : Type) where
  interfaces : σ → Raw T .interfaceList × List (NamedNode T)
  heap : σ → κ → ChassisNode T
  hardware : σ → List UInt8 → Option (HardwareNode T κ .hardware)
  setPort : σ → Raw T .portSet → List UInt8 → List UInt8 → Option σ
  changes : σ → σ → Prop
  notifies : σ → NeighborChangeNode T κ → σ → Prop

namespace Lldpd
variable [DecidableEq κ] (D : Lldpd T κ σ)

/-- The daemon answers a query, and is `after` then. -/
def Replies (before : σ) (query : Query T) (reply : Frame T) (after : σ) : Prop :=
  match query with
  | .interfaces =>
    after = before ∧ reply.ty = HmsgType.getInterfaces.toI32 ∧
      reply.payload = Wire.namesMessage (D.interfaces before).1 (D.interfaces before).2
  | .interface name =>
    after = before ∧
      match D.hardware before name with
      | some x =>
        reply.ty = HmsgType.getInterface.toI32 ∧
          reply.payload = Wire.hardwareMessage (Naming.orig T) (D.heap before) x
      | none => reply.Rejection
  | .setPort settings ifname description =>
    match D.setPort before settings ifname description with
    | some changed => after = changed ∧ reply.ty = HmsgType.setPort.toI32 ∧ reply.payload = []
    | none => after = before ∧ reply.Rejection
  | .subscribe => after = before ∧ reply.ty = HmsgType.subscribe.toI32 ∧ reply.payload = []
  | .unknown => after = before ∧ reply.Rejection

/-- A reply is compared with the one that the daemon makes. -/
instance [DecidableEq σ] (before : σ) (query : Query T) (reply : Frame T) (after : σ) :
    Decidable (D.Replies before query reply after) :=
  match query with
  | .interfaces => inferInstanceAs (Decidable (_ ∧ _ ∧ _))
  | .interface name =>
    @instDecidableAnd _ _ _
      (match D.hardware before name with
        | some _ => inferInstanceAs (Decidable (_ ∧ _))
        | none => inferInstanceAs (Decidable (reply.ty = HmsgType.none.toI32)))
  | .setPort settings ifname description =>
    show Decidable (match D.setPort before settings ifname description with
      | some changed => after = changed ∧ reply.ty = HmsgType.setPort.toI32 ∧ reply.payload = []
      | none => after = before ∧ reply.Rejection) from
    match D.setPort before settings ifname description with
    | some _ => inferInstanceAs (Decidable (_ ∧ _ ∧ _))
    | none => inferInstanceAs (Decidable (_ ∧ reply.ty = HmsgType.none.toI32))
  | .subscribe => inferInstanceAs (Decidable (_ ∧ _ ∧ _))
  | .unknown => inferInstanceAs (Decidable (_ ∧ reply.ty = HmsgType.none.toI32))

/-- The daemon notifies subscribers. -/
def Notifies (before : σ) (message : Frame T) (after : σ) : Prop :=
  ∃ x, D.notifies before x after ∧ message.ty = HmsgType.notification.toI32 ∧
    message.payload = Wire.neighborChangeMessage (Naming.orig T) (D.heap before) x

/-- What a call returns. -/
def result (before : σ) : Call → Except Fault Reply
  | .interfaces => .ok (.interfaces ((D.interfaces before).2.map NamedNode.value))
  | .interface ifname =>
    match D.hardware before (Wire.cString (Wire.stringContent ifname)) with
    | some x => .ok (.interface (x.value (D.heap before)))
    | none => .error (.error .requestRejected)
  | .setPortDescription ifname description =>
    match D.setPort before (Wire.portSetPod T) (Wire.cString (Wire.stringContent ifname))
      (Wire.cString (Wire.stringContent description)) with
    | some _ => .ok .done
    | none => .error (.error .requestRejected)

/-- What a call makes of the daemon. -/
def effect (before : σ) : Call → σ
  | .interfaces | .interface _ => before
  | .setPortDescription ifname description =>
    (D.setPort before (Wire.portSetPod T) (Wire.cString (Wire.stringContent ifname))
      (Wire.cString (Wire.stringContent description))).getD before

end Lldpd

/-- A rejection is `Err(RequestRejected)` for every call. -/
lemma Frame.outcome_rejection {f : Frame T} (h : f.Rejection) (c : Call) :
    f.outcome c = .error (.error .requestRejected) := by
  unfold Frame.Rejection at h
  rw [Frame.outcome, Frame.verdict, if_pos h]
  rfl

/-- A frame of the expected type is accepted. -/
lemma Frame.verdict_of_ty {f : Frame T} {ty : HmsgType} (h : f.ty = ty.toI32)
    (hne : ty ≠ .none) : f.verdict ty = .ok f.payload := by
  rw [Frame.verdict, h]
  cases ty with
  | none => exact absurd rfl hne
  | getInterfaces => rfl
  | getInterface => rfl
  | setPort => rfl
  | subscribe => rfl
  | notification => rfl

/-- The result of a call is the answer to the query it stands for. -/
lemma Lldpd.Replies.call [DecidableEq κ] {D : Lldpd T κ σ} (hT : ReadsWords T) {c : Call}
    {before after : σ} {reply : Frame T} (hsmall : reply.Small)
    (h : D.Replies before (c.query T) reply after) :
    reply.outcome c = D.result before c ∧ after = D.effect before c := by
  have hlen := small_le_isizeMax (T := T) hsmall
  cases c with
  | interfaces =>
    obtain ⟨rfl, hty, hpayload⟩ := h
    refine ⟨?_, rfl⟩
    rw [hpayload] at hlen
    have hverdict : reply.verdict Call.interfaces.ty = .ok reply.payload :=
      Frame.verdict_of_ty hty nofun
    rw [Frame.outcome, hverdict, hpayload]
    show (Wire.decodeInterfaces T _).map Reply.interfaces = _
    rw [Wire.decodeInterfaces_namesMessage hT _ _ hlen]
    rfl
  | interface ifname =>
    obtain ⟨rfl, h⟩ := h
    refine ⟨?_, rfl⟩
    rw [Lldpd.result]
    cases hx : D.hardware after (Wire.cString (Wire.stringContent ifname)) with
    | none =>
      rw [hx] at h
      exact Frame.outcome_rejection h _
    | some x =>
      rw [hx] at h
      obtain ⟨hty, hpayload⟩ := h
      rw [hpayload] at hlen
      have hverdict : reply.verdict (Call.interface ifname).ty = .ok reply.payload :=
        Frame.verdict_of_ty hty nofun
      rw [Frame.outcome, hverdict, hpayload]
      show (Wire.decodeHardware T _).map Reply.interface = _
      rw [Wire.decodeHardware_of_legacy
        (Wire.decodeHardwareAs_hardwareMessage (Naming.orig T) (D.heap after) hT x hlen)]
      rfl
  | setPortDescription ifname description =>
    unfold Lldpd.Replies Call.query at h
    rw [Lldpd.result, Lldpd.effect]
    cases hx : D.setPort before (Wire.portSetPod T) (Wire.cString (Wire.stringContent ifname))
      (Wire.cString (Wire.stringContent description)) with
    | none =>
      simp only [hx] at h
      obtain ⟨rfl, h⟩ := h
      exact ⟨Frame.outcome_rejection h _, rfl⟩
    | some changed =>
      simp only [hx] at h
      obtain ⟨rfl, hty, -⟩ := h
      refine ⟨?_, rfl⟩
      have hverdict : reply.verdict (Call.setPortDescription ifname description).ty =
          .ok reply.payload := Frame.verdict_of_ty hty nofun
      rw [Frame.outcome, hverdict]
      rfl

end Rlldpctl
