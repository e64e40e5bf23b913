import Rlldpctl.Client
import Rlldpctl.Lib.Async

/-!
# The async client

Model of `async_client.rs`: the same exchanges as futures. `block` drives one to its end on the socket of
the blocking client; what the two do is then the same, function by function.
-/

namespace Rlldpctl.AsyncClient
open Async ByteReader

/-- An `async fn` that returns a `Result`. -/
abbrev AsyncIo := ExceptT Fault Fut

/-- `AsyncReadExt::read_exact`. -/
def readExact (n : Nat) : AsyncIo (List UInt8) :=
  ExceptT.mk (.read n fun
    | some bs => .done (.ok bs)
    | none => .done (.error (.error (.io .unexpectedEof))))

/-- `AsyncWriteExt::write_all`. -/
def writeAll (bs : List UInt8) : AsyncIo Unit :=
  ExceptT.mk (.write bs (.done (.ok ())))

/-- A result that is matched on. -/
def attempt {α : Type} (x : AsyncIo α) : AsyncIo (Except Fault α) :=
  ExceptT.lift x.run

section
variable (T : Target)

/-- Rust `read_message`. -/
def readMessage (expected : HmsgType) : AsyncIo (List UInt8) := do
  let header ← readExact (headerLen T)
  let (gotTy, len) ← ofExcept (decodeHeader T header)
  if len > hmsgMaxSize then
    throw (oversize len)
  else
    let payload ← readExact len
    if gotTy = HmsgType.none.toI32 then
      throw (.error .requestRejected)
    else if ¬ expected.matches gotTy then
      throw (.error (.unexpectedMessageType expected.toI32.toUInt32 gotTy.toUInt32))
    else
      pure payload

/-- Rust `request`. -/
def request (ty : HmsgType) (payload : List UInt8) : AsyncIo (List UInt8) := do
  writeAll (encodeHeader T ty payload.length ++ payload)
  readMessage T ty

/-- Rust `recv_notification`. -/
def recvNotification : AsyncIo (List UInt8) :=
  readMessage T .notification

/-- Rust `AsyncClient::interfaces`. -/
def interfaces : AsyncIo (List Interface) := do
  let payload ← request T .getInterfaces []
  ofExcept (Wire.decodeInterfaces T payload)

/-- Rust `AsyncClient::interface`. -/
def interface (ifname : String) : AsyncIo InterfaceDetails := do
  let requestPayload := Wire.encodeInterfaceNameRequest T ifname
  let payload ← request T .getInterface requestPayload
  ofExcept (Wire.decodeHardware T payload)

/-- The loop of `AsyncClient::all_interfaces`. -/
def details : List Interface → AsyncIo (List InterfaceDetails)
  | [] => pure []
  | iface :: rest => do
    match ← attempt (interface T iface.name) with
    | .ok details =>
      let out ← AsyncClient.details rest
      pure (details :: out)
    | .error (.error .requestRejected) => AsyncClient.details rest
    | .error e => throw e

/-- Rust `AsyncClient::all_interfaces`. -/
def allInterfaces : AsyncIo (List InterfaceDetails) := do
  let ifaces ← interfaces T
  details T ifaces

/-- Rust `AsyncClient::set_port_description`. -/
def setPortDescription (ifname description : String) : AsyncIo Unit := do
  let requestPayload := Wire.encodeSetPortDescriptionRequest T ifname description
  let _ ← request T .setPort requestPayload

/-- Rust `AsyncClient::subscribe`. -/
def subscribe : AsyncIo Unit := do
  let _ ← request T .subscribe []

/-- Rust `AsyncSubscription::next_change`. -/
def nextChange : AsyncIo (Option NeighborChange) := do
  match ← attempt (recvNotification T) with
  | .ok payload =>
    let change ← ofExcept (Wire.decodeNeighborChange T payload)
    pure (some change)
  | .error (.error (.io .unexpectedEof)) => pure none
  | .error e => throw e

/-- The method a call names. -/
def call : Call → AsyncIo Reply
  | .interfaces => do
    let ifaces ← interfaces T
    pure (.interfaces ifaces)
  | .interface ifname => do
    let details ← interface T ifname
    pure (.interface details)
  | .setPortDescription ifname description => do
    setPortDescription T ifname description
    pure .done

end

/-! ## Driven to the end -/

variable {α β : Type}

/-- The end of a future on a socket. -/
def ended (o : Fut.Outcome (Except Fault α)) (output : List UInt8) :
    EStateM.Result Fault UnixStream α :=
  match o.value with
  | .ok a => .ok a ⟨o.rest, output ++ o.written⟩
  | .error e => .error e ⟨o.rest, output ++ o.written⟩

/-- Drive a future to its end on a socket. -/
def block (x : AsyncIo α) : Io α := fun s =>
  ended (Fut.run x.run s.input) s.output

/-- Two steps, the second after a value only. -/
lemma run_bind (x : AsyncIo α) (f : α → AsyncIo β) :
    ExceptT.run (x >>= f) = ExceptT.run x >>= fun r =>
      match r with
      | .ok a => ExceptT.run (f a)
      | .error e => .done (.error e) := by
  show Fut.bind x _ = Fut.bind x _
  congr 1
  funext r
  cases r with
  | ok a => rfl
  | error e => rfl

/-- A future that ends without writing. -/
lemma run_of_block {x : AsyncIo α} {input rest : List UInt8} {r : Except Fault α}
    (h : block x ⟨input, []⟩ = (ofExcept r : Io α) ⟨rest, []⟩) :
    Fut.run x.run input = ⟨r, rest, []⟩ := by
  change ended (Fut.run x.run input) [] = _ at h
  generalize Fut.run x.run input = o at h ⊢
  obtain ⟨value, rest', written⟩ := o
  cases value with
  | ok a =>
    cases r with
    | ok a' =>
      cases h
      rfl
    | error e => cases h
  | error e =>
    cases r with
    | ok a' => cases h
    | error e' =>
      cases h
      rfl

/-- Blocking on a value. -/
@[simp] lemma block_pure (a : α) : block (pure a) = pure a := by
  funext ⟨input, output⟩
  show EStateM.Result.ok a (UnixStream.mk input (output ++ [])) = _
  rw [List.append_nil]
  rfl

/-- Blocking on a failure. -/
@[simp] lemma block_throw (e : Fault) : block (throw e : AsyncIo α) = throw e := by
  funext ⟨input, output⟩
  show EStateM.Result.error e (UnixStream.mk input (output ++ [])) = _
  rw [List.append_nil]
  rfl

/-- Blocking on two steps, one after the other. -/
@[simp] lemma block_bind (x : AsyncIo α) (f : α → AsyncIo β) :
    block (x >>= f) = block x >>= fun a => block (f a) := by
  funext s
  rcases ho : Fut.run x.run s.input with ⟨value, rest, written⟩
  have hx : block x s = ended ⟨value, rest, written⟩ s.output := congrArg (ended · s.output) ho
  show ended (Fut.run (ExceptT.run (x >>= f)) s.input) s.output = _
  rw [run_bind, Fut.run_bind, ho]
  cases value with
  | ok a =>
    rw [bind_ok hx]
    show ended { Fut.run (f a).run rest with written := _ } _ =
      ended (Fut.run (f a).run rest) (s.output ++ written)
    unfold ended
    dsimp only
    rw [List.append_assoc]
  | error e =>
    rw [bind_error hx]
    show EStateM.Result.error e (UnixStream.mk rest (s.output ++ (written ++ []))) = _
    rw [List.append_nil]

/-- Blocking on a pure step. -/
@[simp] lemma block_ofExcept (x : Except Fault α) :
    block (ofExcept x : AsyncIo α) = ofExcept x := by
  cases x with
  | ok a => exact block_pure a
  | error e => exact block_throw e

/-- Blocking on an attempt. -/
@[simp] lemma block_attempt (x : AsyncIo α) :
    block (attempt x) = Rlldpctl.attempt (block x) := by
  funext s
  have hrun : ExceptT.run (attempt x) = x.run >>= fun r => Fut.done (.ok r) := rfl
  unfold Rlldpctl.attempt block
  rw [hrun, Fut.run_bind]
  generalize Fut.run x.run s.input = o
  obtain ⟨value, rest, written⟩ := o
  show EStateM.Result.ok value (UnixStream.mk rest (s.output ++ (written ++ []))) = _
  rw [List.append_nil]
  cases value with
  | ok a => rfl
  | error e => rfl

/-- Blocking on a read is the blocking read. -/
@[simp] lemma block_readExact (n : Nat) : block (readExact n) = Rlldpctl.readExact n := by
  funext ⟨input, output⟩
  have hrun : (ExceptT.run (readExact n)).run input =
      if n ≤ input.length then ⟨.ok (input.take n), input.drop n, []⟩
      else ⟨.error (.error (.io .unexpectedEof)), [], []⟩ := rfl
  unfold block Rlldpctl.readExact
  dsimp only
  rw [hrun]
  split
  · show EStateM.Result.ok _ (UnixStream.mk _ (output ++ [])) = _
    rw [List.append_nil]
  · show EStateM.Result.error _ (UnixStream.mk _ (output ++ [])) = _
    rw [List.append_nil]

/-- Blocking on a write is the blocking write. -/
@[simp] lemma block_writeAll (bs : List UInt8) : block (writeAll bs) = Rlldpctl.writeAll bs := by
  funext ⟨input, output⟩
  show EStateM.Result.ok () (UnixStream.mk input (output ++ (bs ++ []))) = _
  rw [List.append_nil]
  rfl

section
variable {T : Target}

/-- Blocking on a branch. -/
lemma block_ite {p : Prop} [Decidable p] (x y : AsyncIo α) :
    block (if p then x else y) = if p then block x else block y := by
  split
  · rfl
  · rfl

/-- The twin of `read_message` is its twin. -/
lemma block_readMessage (expected : HmsgType) :
    block (readMessage T expected) = Rlldpctl.readMessage T expected := by
  unfold readMessage Rlldpctl.readMessage
  simp only [block_bind, block_readExact, block_ofExcept, block_ite, block_throw, block_pure]

/-- Blocking on `request`. -/
lemma block_request (ty : HmsgType) (payload : List UInt8) :
    block (request T ty payload) = Rlldpctl.request T ty payload := by
  unfold request Rlldpctl.request
  rw [block_bind, block_writeAll, block_readMessage]

/-- Blocking on `interfaces`. -/
lemma block_interfaces : block (interfaces T) = Client.interfaces T := by
  unfold interfaces Client.interfaces
  simp only [block_bind, block_request, block_ofExcept]

/-- Blocking on `interface`. -/
lemma block_interface (ifname : String) :
    block (interface T ifname) = Client.interface T ifname := by
  unfold interface Client.interface
  simp only [block_bind, block_request, block_ofExcept]

/-- Blocking on the loop of `all_interfaces`. -/
lemma block_details (ifaces : List Interface) :
    block (details T ifaces) = Client.details T ifaces := by
  induction ifaces with
  | nil => exact block_pure []
  | cons iface rest ih =>
    rw [details, Client.details, block_bind, block_attempt, block_interface]
    congr 1
    funext r
    match r with
    | .ok details => simp only [block_bind, ih, block_pure]
    | .error .panic => exact block_throw _
    | .error (.error .requestRejected) => exact ih
    | .error (.error (.io _)) => exact block_throw _
    | .error (.error (.unexpectedMessageType _ _)) => exact block_throw _
    | .error (.error (.protocol _)) => exact block_throw _

/-- Blocking on `all_interfaces`. -/
lemma block_allInterfaces : block (allInterfaces T) = Client.allInterfaces T := by
  unfold allInterfaces Client.allInterfaces
  simp only [block_bind, block_interfaces, block_details]

/-- Blocking on `set_port_description`. -/
lemma block_setPortDescription (ifname description : String) :
    block (setPortDescription T ifname description) =
      Client.setPortDescription T ifname description := by
  unfold setPortDescription Client.setPortDescription
  simp only [block_bind, block_request, block_pure]

/-- Blocking on `subscribe`. -/
lemma block_subscribe : block (subscribe T) = Client.subscribe T := by
  unfold subscribe Client.subscribe
  simp only [block_bind, block_request, block_pure]

/-- What `next_change` returns where `Subscription::next` returns `item`. -/
def changeOf (item : Option (Except Fault NeighborChange)) :
    Except Fault (Option NeighborChange) :=
  match item with
  | none => .ok none
  | some (.ok change) => .ok (some change)
  | some (.error e) => .error e

/-- Blocking on `next_change`, which is `next` with its option turned round. -/
lemma block_nextChange :
    block (nextChange T) = Subscription.next T >>= fun item => ofExcept (changeOf item) := by
  unfold nextChange Subscription.next recvNotification Rlldpctl.recvNotification
  rw [block_bind, block_attempt, block_readMessage, bind_assoc]
  congr 1
  funext r
  match r with
  | .ok payload =>
    simp only [block_bind, block_ofExcept, block_pure, pure_bind]
    cases Wire.decodeNeighborChange T payload with
    | ok change => rfl
    | error e => rfl
  | .error .panic => exact block_throw _
  | .error (.error .requestRejected) => exact block_throw _
  | .error (.error (.io .unexpectedEof)) => exact block_pure _
  | .error (.error (.io .other)) => exact block_throw _
  | .error (.error (.unexpectedMessageType _ _)) => exact block_throw _
  | .error (.error (.protocol _)) => exact block_throw _

/-- Blocking on a call. -/
lemma block_call (c : Call) : block (call T c) = Client.call T c := by
  cases c with
  | interfaces =>
    show block (interfaces T >>= _) = Client.interfaces T >>= _
    simp only [block_bind, block_interfaces, block_pure]
  | interface ifname =>
    show block (interface T ifname >>= _) = Client.interface T ifname >>= _
    simp only [block_bind, block_interface, block_pure]
  | setPortDescription ifname description =>
    show block (setPortDescription T ifname description >>= _) =
      Client.setPortDescription T ifname description >>= _
    simp only [block_bind, block_setPortDescription, block_pure]

end

/-! ## The parts of a call -/

section
variable (T : Target)

/-- What a call writes. -/
def sentBy (c : Call) : List UInt8 :=
  encodeHeader T c.ty (c.payload T).length ++ c.payload T

/-- A call after its request has been written. -/
def reading (c : Call) : Fut (Except Fault Reply) :=
  ExceptT.run (readMessage T c.ty >>= fun payload => ofExcept (c.decode T payload))

end

variable {T : Target}

/-- A pure step with its result mapped. -/
lemma ofExcept_map (x : Except Fault α) (f : α → β) :
    (ofExcept x >>= fun a => pure (f a) : AsyncIo β) = ofExcept (x.map f) := by
  cases x with
  | ok a => rfl
  | error e => rfl

/-- Every call is its request and what is made of the reply. -/
lemma call_eq (c : Call) :
    call T c = request T c.ty (c.payload T) >>= fun payload => ofExcept (c.decode T payload) := by
  cases c with
  | interfaces =>
    show (request T _ _ >>= _) >>= _ = _
    rw [bind_assoc]
    exact congrArg _ (funext fun payload => ofExcept_map _ _)
  | interface ifname =>
    show (request T _ _ >>= _) >>= _ = _
    rw [bind_assoc]
    exact congrArg _ (funext fun payload => ofExcept_map _ _)
  | setPortDescription ifname description =>
    show (request T _ _ >>= _) >>= _ = _
    rw [bind_assoc]
    rfl

/-- A call writes its request and then reads. -/
lemma run_call (c : Call) : (call T c).run = .write (sentBy T c) (reading T c) := by
  rw [call_eq, request, bind_assoc]
  rfl

/-- Two steps that write nothing, one after the other. -/
lemma reads_bind {x : AsyncIo α} {f : α → AsyncIo β} (hx : Fut.Reads x.run)
    (hf : ∀ a, Fut.Reads (f a).run) : Fut.Reads (ExceptT.run (x >>= f)) := by
  rw [run_bind]
  refine hx.bind fun r => ?_
  cases r with
  | ok a => exact hf a
  | error e => exact .done _

/-- A pure step writes nothing. -/
lemma reads_ofExcept (x : Except Fault α) : Fut.Reads (ExceptT.run (ofExcept x : AsyncIo α)) := by
  cases x with
  | ok a => exact .done _
  | error e => exact .done _

/-- A read writes nothing. -/
lemma reads_readExact (n : Nat) : Fut.Reads (readExact n).run := by
  refine .read n fun bs => ?_
  cases bs with
  | none => exact .done _
  | some bs => exact .done _

/-- After its request a call only reads. -/
lemma reads_reading (c : Call) : Fut.Reads (reading T c) := by
  refine reads_bind ?_ fun payload => reads_ofExcept _
  refine reads_bind (reads_readExact _) fun header => reads_bind (reads_ofExcept _) fun p => ?_
  dsimp only
  split
  · exact .done _
  · refine reads_bind (reads_readExact _) fun payload => ?_
    split
    · exact .done _
    · split
      · exact .done _
      · exact .done _

end Rlldpctl.AsyncClient
