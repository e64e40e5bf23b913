import Rlldpctl.Wire.Marshal

/-!
# The structures a daemon sends

Trees of the C structures behind a message, their serialization and the values they stand for. A node
holds the fields that the crate surfaces and, as `body`, the bytes of its structure, which give every
field that is neither surfaced nor followed. Chassis are shared: a port names its chassis by a key and
`heap` says what each key is, so a chassis is serialized where its key comes up first.

Pointer fields are visited in the order of the `MARSHAL_BEGIN`/`MARSHAL_END` blocks that the decoders
document, the link of the list an element is in first.
-/

namespace Rlldpctl.Wire
open CLayout NativeBytes

variable {T : Target} {κ : Type}

/-! ## Interfaces -/

/-- A `lldpd_interface`. -/
structure InterfaceNode (T : Target) where
  body : Raw T .interface
  name : Option String
  «alias» : Option String

/-- What an interface points to. -/
def InterfaceNode.links (nm : Naming T) (x : InterfaceNode T) : List (Link T κ .interface) :=
  [.ptr .name (cstring nm x.name), .ptr .alias (cstring nm x.alias)]

/-- A null name is the empty string. -/
def InterfaceNode.value (x : InterfaceNode T) : Interface :=
  ⟨x.name.getD "", x.alias⟩

/-- A list of elements that carry the link to the next in the field `next`. -/
def listOf {ν : Type} (nm : Naming T) (k : RawType) (next : k.Field) (body : ν → Raw T k)
    (links : ν → List (Link T κ k)) (xs : List ν) : Marshal κ Ref :=
  list nm (fun x rest => struct (body x) (.ptr next rest :: links x)) xs

/-- The list head and the interfaces. -/
def interfacesRoot (nm : Naming T) (body : Raw T .interfaceList) (xs : List (InterfaceNode T)) :
    Marshal κ (Nat × List UInt8) :=
  struct body [.ptr .tqhFirst
    (listOf nm .interface .nextTqeNext InterfaceNode.body (InterfaceNode.links nm) xs)]

/-- The payload of a `GET_INTERFACES` reply. -/
def interfacesMessage (body : Raw T .interfaceList) (xs : List (InterfaceNode T)) : List UInt8 :=
  message (κ := Empty) (interfacesRoot (Naming.orig T) body xs)

/-! ## Chassis -/

/-- A `lldpd_mgmt`. The bytes of `m_addr` after the address are those of the body. -/
structure MgmtNode (T : Target) where
  body : Raw T .mgmt
  family : UInt32
  addr : List UInt8
  addr_le : addr.length ≤ 16
  iface : UInt32

/-- The array with the address at its front. -/
def MgmtNode.addrImage (x : MgmtNode T) : FieldImage (layout T .mgmt) .mAddr :=
  ⟨x.addr ++ (x.body.get .mAddr).drop x.addr.length, by
    have h : (x.body.get .mAddr).length = 16 := x.body.length_get .mAddr
    have hle := x.addr_le
    show _ = 16
    rw [List.length_append, List.length_drop, h]
    omega⟩

/-- The numbers of a management address. -/
def MgmtNode.links (x : MgmtNode T) : List (Link T κ .mgmt) :=
  [.int .mFamily x.family.toNat, .bytes .mAddr x.addrImage, .int .mAddrsize x.addr.length,
    .int .mIface x.iface.toNat]

/-- The address that is decoded. -/
def MgmtNode.value (x : MgmtNode T) : ManagementAddress :=
  ⟨x.family, x.addr, x.iface⟩

/-- A `lldpd_chassis`. -/
structure ChassisNode (T : Target) where
  body : Raw T .chassis
  idSubtype : UInt8
  id : Option (List UInt8)
  name : Option String
  description : Option String
  capAvailable : UInt16
  capEnabled : UInt16
  mgmt : List (MgmtNode T)
  med : MedInventory

/-- What a chassis holds and points to. -/
def ChassisNode.links (nm : Naming T) (x : ChassisNode T) : List (Link T κ .chassis) :=
  [.int .cIdSubtype x.idSubtype.toNat, .int .cCapAvailable x.capAvailable.toNat,
    .int .cCapEnabled x.capEnabled.toNat, .ptr .cId (bstring nm x.id),
    .ptr .cName (cstring nm x.name), .ptr .cDescr (cstring nm x.description),
    .ptr .cMgmtTqhFirst (listOf nm .mgmt .tqeNext MgmtNode.body MgmtNode.links x.mgmt),
    .ptr .cMedHw (cstring nm x.med.hardwareRevision),
    .ptr .cMedFw (cstring nm x.med.firmwareRevision),
    .ptr .cMedSw (cstring nm x.med.softwareRevision),
    .ptr .cMedSn (cstring nm x.med.serialNumber),
    .ptr .cMedManuf (cstring nm x.med.manufacturer),
    .ptr .cMedModel (cstring nm x.med.model),
    .ptr .cMedAsset (cstring nm x.med.assetId)]

/-- The chassis that is decoded. -/
def ChassisNode.value (x : ChassisNode T) : Chassis where
  idSubtype := .from x.idSubtype
  id := x.id.getD []
  name := x.name
  description := x.description
  capabilitiesAvailable := ⟨x.capAvailable⟩
  capabilitiesEnabled := ⟨x.capEnabled⟩
  managementAddresses := x.mgmt.map MgmtNode.value
  med := x.med

/-- The subtype of a chassis is one with the number that was sent. -/
lemma ChassisNode.number_idSubtype (x : ChassisNode T) : x.value.idSubtype.number = x.idSubtype :=
  ChassisIdSubtype.number_from _

/-! ## Ports -/

/-- A `lldpd_med_loc`. -/
structure MedLocNode (T : Target) where
  body : Raw T .medLoc
  data : Option (List UInt8)

/-- What a location points to. -/
def MedLocNode.links (nm : Naming T) (x : MedLocNode T) : List (Link T κ .medLoc) :=
  [.ptr .data (bstring nm x.data)]

/-- A `lldpd_vlan`. -/
structure VlanNode (T : Target) where
  body : Raw T .vlan
  name : Option String

/-- What a VLAN points to. -/
def VlanNode.links (nm : Naming T) (x : VlanNode T) : List (Link T κ .vlan) :=
  [.ptr .vName (cstring nm x.name)]

/-- A `lldpd_pi`. -/
structure PiNode (T : Target) where
  body : Raw T .pi
  data : Option (List UInt8)

/-- What a protocol identity points to. -/
def PiNode.links (nm : Naming T) (x : PiNode T) : List (Link T κ .pi) :=
  [.ptr .pPi (bstring nm x.data)]

/-- A `lldpd_port`. `χ` is how it names its chassis: a neighbor has one, a local port may have none. -/
structure PortNode (T : Target) (χ : Type) where
  body : Raw T .port
  chassis : χ
  idSubtype : UInt8
  id : Option (List UInt8)
  description : Option String
  vlanAdvertisePattern : Option String
  ttl : UInt16
  medLocation : Fin 3 → MedLocNode T
  vlans : List (VlanNode T)
  ppvids : List (Raw T .ppvid)
  pids : List (PiNode T)

section
variable [DecidableEq κ] (nm : Naming T) (heap : κ → ChassisNode T)

/-- The chassis with key `key`. -/
def chassisRef (key : κ) : Marshal κ Ref :=
  shared nm key (struct (heap key).body ((heap key).links nm))

/-- The chassis of a port that may have none. -/
def chassisRef? : Option κ → Marshal κ Ref
  | none => null
  | some key => chassisRef nm heap key

/-- A location, embedded in its port. -/
def MedLocNode.link (i : Fin 3) (x : MedLocNode T) : Link T κ .port :=
  @Link.embedded T κ .port (.pMedLocation i) .medLoc (pMedLocation_ty T i) x.body (x.links nm)

/-- The pointer fields of a port after its chassis. -/
def PortNode.restLinks {χ : Type} (p : PortNode T χ) : List (Link T κ .port) :=
  [.ptr .pId (bstring nm p.id), .ptr .pDescr (cstring nm p.description),
    .ptr .pVlanAdvertisePattern (cstring nm p.vlanAdvertisePattern),
    (p.medLocation 0).link nm 0, (p.medLocation 1).link nm 1, (p.medLocation 2).link nm 2,
    .ptr .pVlansTqhFirst (listOf nm .vlan .tqeNext VlanNode.body (VlanNode.links nm) p.vlans),
    .ptr .pPpvidsTqhFirst (listOf nm .ppvid .tqeNext (fun body => body) (fun _ => []) p.ppvids),
    .ptr .pPidsTqhFirst (listOf nm .pi .tqeNext PiNode.body (PiNode.links nm) p.pids)]

/-- The fields of a port after its link in a list of ports. -/
def PortNode.ownLinks {χ : Type} (p : PortNode T χ) (chassis : Marshal κ Ref) :
    List (Link T κ .port) :=
  .int .pIdSubtype p.idSubtype.toNat :: .int .pTtl p.ttl.toNat :: .ptr .pChassis chassis ::
    p.restLinks nm

/-- A port whose list goes on with `next` and whose chassis is `chassis`. -/
def PortNode.links {χ : Type} (p : PortNode T χ) (next chassis : Marshal κ Ref) :
    List (Link T κ .port) :=
  .ptr .tqeNext next :: p.ownLinks nm chassis

/-- The ports of a list of neighbors. -/
def neighborList : List (PortNode T κ) → Marshal κ Ref :=
  list nm fun p rest => struct p.body (p.links nm rest (chassisRef nm heap p.chassis))

/-! ## One interface -/

/-- A `lldpd_hardware` in one of its layouts. -/
structure HardwareNode (T : Target) (κ : Type) (k : RawType) where
  body : Raw T k
  ifname : Bytes 16
  lladdr : Bytes 6
  ifalias : Option String
  lport : PortNode T (Option κ)
  rports : List (PortNode T κ)

/-- What an interface holds and points to. -/
def HardwareNode.links {k : RawType} [HardwareFields k] (x : HardwareNode T κ k) :
    List (Link T κ k) :=
  [.embedded HardwareFields.hLport (HardwareFields.hLport_ty T) x.lport.body
      (x.lport.links nm null (chassisRef? nm heap x.lport.chassis)),
    .ptr HardwareFields.hRportsTqhFirst (neighborList nm heap x.rports),
    .ptr HardwareFields.hIfalias (cstring nm x.ifalias),
    .bytes HardwareFields.hIfname ⟨x.ifname.1, by rw [x.ifname.2, HardwareFields.hIfname_ty]; rfl⟩,
    .bytes HardwareFields.hLladdr ⟨x.lladdr.1, by rw [x.lladdr.2, HardwareFields.hLladdr_ty]; rfl⟩]

/-- The payload of a `GET_INTERFACE` reply. -/
def hardwareMessage {k : RawType} [HardwareFields k] (x : HardwareNode T κ k) : List UInt8 :=
  message (struct x.body (x.links nm heap))

/-- The keys in the order in which they come up. -/
def visit (seen : List κ) (key : κ) : List κ :=
  if key ∈ seen then seen else seen ++ [key]

/-- The chassis of one interface, in the order in which they are serialized: the local one, then
those of the neighbors from the last to the first. -/
def HardwareNode.order {k : RawType} (x : HardwareNode T κ k) : List κ :=
  (x.lport.chassis.toList ++ (x.rports.map PortNode.chassis).reverse).foldl visit []

/-- The chassis `key`, allocated when it comes up first. -/
def arcOf (order : List κ) (key : κ) : Arc Chassis :=
  ⟨order.idxOf key, (heap key).value⟩

/-- The neighbor that is decoded. -/
def PortNode.value (order : List κ) (p : PortNode T κ) : Neighbor where
  chassis := arcOf heap order p.chassis
  portIdSubtype := .from p.idSubtype
  portId := p.id.getD []
  portDescription := p.description
  ttl := p.ttl

/-- The subtype of a neighbor's port is one with the number that was sent. -/
lemma PortNode.number_portIdSubtype (order : List κ) (p : PortNode T κ) :
    (p.value heap order).portIdSubtype.number = p.idSubtype :=
  PortIdSubtype.number_from _

/-- The text of a NUL-padded array. -/
def cText (bytes : List UInt8) : String :=
  Utf8.fromUtf8Lossy (bytes.takeWhile (· ≠ 0))

/-- What one interface stands for. -/
def HardwareNode.value {k : RawType} (x : HardwareNode T κ k) : InterfaceDetails where
  name := cText x.ifname.1
  «alias» := x.ifalias
  macAddress := x.lladdr
  localChassis := x.lport.chassis.map (arcOf heap x.order)
  neighbors := x.rports.map (PortNode.value heap x.order)

end

/-! ## Notifications -/

/-- What the link of a notified port holds: null, as the daemon clears it, other ports, or a value
with nothing behind it. -/
inductive PortNext (T : Target) (κ : Type) where
  | null
  | ports (p : PortNode T κ) (rest : List (PortNode T κ))
  | dangling (value : Nat) (ne_zero : value % 256 ^ T.ptrSize ≠ 0)

/-- A `lldpd_neighbor_change`, with the notified port and its link. -/
structure NeighborChangeNode (T : Target) (κ : Type) where
  body : Raw T .neighborChange
  ifname : Option String
  ifalias : Option String
  state : Int32
  neighbor : Option (PortNode T (Option κ) × PortNext T κ)

section
variable [DecidableEq κ] (nm : Naming T) (heap : κ → ChassisNode T)

/-- The pointer to the next port. -/
def PortNext.ref : PortNext T κ → Marshal κ Ref
  | .null => Wire.null
  | .ports p rest => neighborList nm heap (p :: rest)
  | .dangling value _ => pure ⟨value, []⟩

/-- The chunk of the notified port. -/
def notifiedPort (p : PortNode T (Option κ)) (next : PortNext T κ) :
    Marshal κ (Nat × List UInt8) :=
  struct p.body (p.links nm (next.ref nm heap) (chassisRef? nm heap p.chassis))

/-- The pointer to the port of a change. -/
def neighborRef : Option (PortNode T (Option κ) × PortNext T κ) → Marshal κ Ref
  | none => null
  | some (p, next) => present nm (notifiedPort nm heap p next)

/-- What a change holds and points to. -/
def NeighborChangeNode.links (x : NeighborChangeNode T κ) : List (Link T κ .neighborChange) :=
  [.int .state x.state.toUInt32.toNat, .ptr .ifname (cstring nm x.ifname),
    .ptr .ifalias (cstring nm x.ifalias), .ptr .neighbor (neighborRef nm heap x.neighbor)]

/-- The payload of a `NOTIFICATION`. -/
def neighborChangeMessage (x : NeighborChangeNode T κ) : List UInt8 :=
  message (struct x.body (x.links nm heap))

/-- The notified neighbor: a port that is not chained and has a chassis. -/
def notifiedValue : PortNode T (Option κ) × PortNext T κ → Option Neighbor
  | (p, .null) => p.chassis.map fun key =>
    { chassis := ⟨0, (heap key).value⟩
      portIdSubtype := .from p.idSubtype
      portId := p.id.getD []
      portDescription := p.description
      ttl := p.ttl }
  | _ => none

/-- What is behind the pointer to the notified port, if it is as it must be. -/
def neighborValue : Option (PortNode T (Option κ) × PortNext T κ) → Option (Option Neighbor)
  | none => some none
  | some port => (notifiedValue heap port).map some

/-- What a notification stands for, if its port is as it must be. -/
def NeighborChangeNode.value (x : NeighborChangeNode T κ) : Option NeighborChange :=
  (neighborValue heap x.neighbor).map fun neighbor =>
    ⟨x.ifname.getD "", x.ifalias, .from x.state, neighbor⟩

omit [DecidableEq κ] in
/-- The kind of a change is one with the number that was sent. -/
lemma NeighborChangeNode.number_kind {x : NeighborChangeNode T κ} {change : NeighborChange}
    (h : x.value heap = some change) : change.kind.number = x.state := by
  obtain ⟨neighbor, -, rfl⟩ := Option.map_eq_some_iff.mp h
  exact NeighborChangeKind.number_from _

end

end Rlldpctl.Wire
