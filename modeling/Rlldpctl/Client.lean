import Rlldpctl.Wire.Decode
import Rlldpctl.Wire.Encode

/-!
# The blocking client

Model of `client.rs` and `subscription.rs` over the socket of `Transport`. `Call` is the calls that can be
made again and again on one connection: each sends one request and makes something of the reply.
-/

namespace Rlldpctl
open ByteReader

/-- A result that is matched on. -/
def attempt {α : Type} (x : Io α) : Io (Except Fault α) := fun s =>
  match x s with
  | .ok a s' => .ok (.ok a) s'
  | .error e s' => .ok (.error e) s'

section
variable (T : Target)

/-- Rust `Client::interfaces`. -/
def Client.interfaces : Io (List Interface) := do
  let payload ← request T .getInterfaces []
  ofExcept (Wire.decodeInterfaces T payload)

/-- Rust `Client::interface`. -/
def Client.interface (ifname : String) : Io InterfaceDetails := do
  let requestPayload := Wire.encodeInterfaceNameRequest T ifname
  let payload ← request T .getInterface requestPayload
  ofExcept (Wire.decodeHardware T payload)

/-- The loop of `Client::all_interfaces`. -/
def Client.details : List Interface → Io (List InterfaceDetails)
  | [] => pure []
  | iface :: rest => do
    match ← attempt (Client.interface T iface.name) with
    | .ok details =>
      let out ← Client.details rest
      pure (details :: out)
    | .error (.error .requestRejected) => Client.details rest
    | .error e => throw e

/-- Rust `Client::all_interfaces`. -/
def Client.allInterfaces : Io (List InterfaceDetails) := do
  let ifaces ← Client.interfaces T
  Client.details T ifaces

/-- Rust `Client::set_port_description`. -/
def Client.setPortDescription (ifname description : String) : Io Unit := do
  let requestPayload := Wire.encodeSetPortDescriptionRequest T ifname description
  let _ ← request T .setPort requestPayload

/-- Rust `Client::subscribe`. The socket goes to the subscription. -/
def Client.subscribe : Io Unit := do
  let _ ← request T .subscribe []

/-- Rust `Subscription::next`. -/
def Subscription.next : Io (Option (Except Fault NeighborChange)) := do
  match ← attempt (recvNotification T) with
  | .ok payload => pure (some (Wire.decodeNeighborChange T payload))
  | .error (.error (.io .unexpectedEof)) => pure none
  | .error e => pure (some (.error e))

end

/-! ## Calls -/

/-- A call on a client. -/
inductive Call where
  | interfaces
  | interface (ifname : String)
  | setPortDescription (ifname description : String)
  deriving DecidableEq, Repr

/-- What a call returns. -/
inductive Reply where
  | interfaces (ifaces : List Interface)
  | interface (details : InterfaceDetails)
  | done
  deriving DecidableEq

/-- The type of the request, which is the type its reply must have. -/
def Call.ty : Call → HmsgType
  | .interfaces => .getInterfaces
  | .interface _ => .getInterface
  | .setPortDescription _ _ => .setPort

/-- The payload of the request. -/
def Call.payload (T : Target) : Call → List UInt8
  | .interfaces => []
  | .interface ifname => Wire.encodeInterfaceNameRequest T ifname
  | .setPortDescription ifname description =>
    Wire.encodeSetPortDescriptionRequest T ifname description

/-- What is made of the payload of the reply. -/
def Call.decode (T : Target) : Call → List UInt8 → Except Fault Reply
  | .interfaces, payload => (Wire.decodeInterfaces T payload).map .interfaces
  | .interface _, payload => (Wire.decodeHardware T payload).map .interface
  | .setPortDescription _ _, _ => .ok .done

/-- The method a call names. -/
def Client.call (T : Target) : Call → Io Reply
  | .interfaces => do
    let ifaces ← Client.interfaces T
    pure (.interfaces ifaces)
  | .interface ifname => do
    let details ← Client.interface T ifname
    pure (.interface details)
  | .setPortDescription ifname description => do
    Client.setPortDescription T ifname description
    pure .done

variable {T : Target}

/-- A pure step with its result mapped. -/
lemma ofExcept_map {α β : Type} (x : Except Fault α) (f : α → β) :
    (ofExcept x >>= fun a => pure (f a) : Io β) = ofExcept (x.map f) := by
  cases x with
  | ok a => rfl
  | error e => rfl

/-- Every call is its request and what is made of the reply. -/
lemma Client.call_eq (c : Call) :
    Client.call T c = request T c.ty (c.payload T) >>= fun payload =>
      ofExcept (c.decode T payload) := by
  cases c with
  | interfaces =>
    show (request T _ _ >>= _) >>= _ = _
    rw [bind_assoc]
    exact congrArg _ (funext fun payload => ofExcept_map _ _)
  | interface ifname =>
    show (request T _ _ >>= _) >>= _ = _
    rw [bind_assoc]
    exact congrArg _ (funext fun payload => ofExcept_map _ _)
  | setPortDescription ifname description =>
    show (request T _ _ >>= _) >>= _ = _
    rw [bind_assoc]
    rfl

end Rlldpctl
