import Rlldpctl.Lib.Utf8
import Rlldpctl.Target

/-!
# What the crate returns

Model of `model.rs`: the values a caller sees. Text is `String`, byte strings are `List UInt8`. An
`Arc` is a value at an address: two are the same allocation (`Arc::ptr_eq`) when the addresses agree,
while `==` in Rust compares the values only.
-/

namespace Rlldpctl

/-- A byte array of fixed size. -/
abbrev Bytes (n : Nat) := {bs : List UInt8 // bs.length = n}

/-- `copy_from_slice` into an array of `n` bytes, which panics on a slice of another length. -/
def copyFromSlice (n : Nat) (bs : List UInt8) : Except Fault (Bytes n) :=
  if h : bs.length = n then .ok ⟨bs, h⟩ else .error .panic

/-- Rust `Arc`. -/
structure Arc (α : Type) where
  addr : Nat
  val : α
  deriving DecidableEq, Repr

/-- Rust `Interface`. -/
structure Interface where
  name : String
  «alias» : Option String
  deriving DecidableEq, Repr

/-- Rust `ChassisIdSubtype`. -/
inductive ChassisIdSubtype where
  | chassisComponent | ifAlias | portComponent | macAddress | networkAddress | ifName | local
  | other (v : UInt8)
  deriving DecidableEq, Repr

/-- `From<u8> for ChassisIdSubtype`. -/
def ChassisIdSubtype.from (v : UInt8) : ChassisIdSubtype :=
  match v with
  | 1 => .chassisComponent
  | 2 => .ifAlias
  | 3 => .portComponent
  | 4 => .macAddress
  | 5 => .networkAddress
  | 6 => .ifName
  | 7 => .local
  | v => .other v

/-- The number of a subtype in IEEE 802.1AB. -/
def ChassisIdSubtype.number : ChassisIdSubtype → UInt8
  | .chassisComponent => 1
  | .ifAlias => 2
  | .portComponent => 3
  | .macAddress => 4
  | .networkAddress => 5
  | .ifName => 6
  | .local => 7
  | .other v => v

/-- A byte stands for a subtype with its number. -/
lemma ChassisIdSubtype.number_from (v : UInt8) : (ChassisIdSubtype.from v).number = v := by
  unfold ChassisIdSubtype.from
  split <;> rfl

/-- A byte stands for no named subtype when it is none of their numbers. -/
lemma ChassisIdSubtype.from_eq_other {v w : UInt8} :
    ChassisIdSubtype.from v = .other w ↔ v = w ∧ (v = 0 ∨ 7 < v) := by
  unfold ChassisIdSubtype.from
  split <;> grind

/-- Rust `PortIdSubtype`. -/
inductive PortIdSubtype where
  | unknown | ifAlias | portComponent | macAddress | networkAddress | ifName | agentCircuitId | local
  | other (v : UInt8)
  deriving DecidableEq, Repr

/-- `From<u8> for PortIdSubtype`. -/
def PortIdSubtype.from (v : UInt8) : PortIdSubtype :=
  match v with
  | 0 => .unknown
  | 1 => .ifAlias
  | 2 => .portComponent
  | 3 => .macAddress
  | 4 => .networkAddress
  | 5 => .ifName
  | 6 => .agentCircuitId
  | 7 => .local
  | v => .other v

/-- The number of a subtype in IEEE 802.1AB, which has none for `unknown`. -/
def PortIdSubtype.number : PortIdSubtype → UInt8
  | .unknown => 0
  | .ifAlias => 1
  | .portComponent => 2
  | .macAddress => 3
  | .networkAddress => 4
  | .ifName => 5
  | .agentCircuitId => 6
  | .local => 7
  | .other v => v

/-- A byte stands for a subtype with its number. -/
lemma PortIdSubtype.number_from (v : UInt8) : (PortIdSubtype.from v).number = v := by
  unfold PortIdSubtype.from
  split <;> rfl

/-- A byte stands for no named subtype when it is none of their numbers. -/
lemma PortIdSubtype.from_eq_other {v w : UInt8} :
    PortIdSubtype.from v = .other w ↔ v = w ∧ 7 < v := by
  unfold PortIdSubtype.from
  split <;> grind

/-- Rust `Capabilities`. -/
structure Capabilities where
  bits : UInt16
  deriving DecidableEq, Repr

/-- Rust `Capabilities::contains`. -/
def Capabilities.contains (self : Capabilities) (bit : UInt16) : Bool :=
  self.bits &&& bit == bit

/-- All the bits have to be set. -/
lemma Capabilities.contains_iff (self : Capabilities) (bit : UInt16) :
    self.contains bit ↔ ∀ i, bit.toBitVec.getLsbD i → self.bits.toBitVec.getLsbD i := by
  rw [contains, beq_iff_eq, ← UInt16.toBitVec_inj, UInt16.toBitVec_and]
  refine ⟨fun h i hi => ?_, fun h => BitVec.eq_of_getLsbD_eq fun i _ => ?_⟩
  · rw [← h, BitVec.getLsbD_and, Bool.and_eq_true] at hi
    exact hi.1
  · rw [BitVec.getLsbD_and]
    cases hi : bit.toBitVec.getLsbD i with
    | false => exact Bool.and_false _
    | true => rw [h i hi, Bool.true_and]

/-- Rust `MedInventory`. -/
structure MedInventory where
  hardwareRevision : Option String
  firmwareRevision : Option String
  softwareRevision : Option String
  serialNumber : Option String
  manufacturer : Option String
  model : Option String
  assetId : Option String
  deriving DecidableEq, Repr

/-- Rust `ManagementAddress`. -/
structure ManagementAddress where
  family : UInt32
  octets : List UInt8
  interfaceIndex : UInt32
  deriving DecidableEq, Repr

/-- Rust `IpAddr`. -/
inductive IpAddr where
  | v4 (a b c d : UInt8)
  | v6 (octets : Bytes 16)
  deriving DecidableEq

/-- Rust `ManagementAddress::ip`. -/
def ManagementAddress.ip (self : ManagementAddress) : Except Fault (Option IpAddr) := do
  if self.family = 1 ∧ 4 ≤ self.octets.length then
    let a ← element self.octets 0
    let b ← element self.octets 1
    let c ← element self.octets 2
    let d ← element self.octets 3
    pure (some (.v4 a b c d))
  else if self.family = 2 ∧ 16 ≤ self.octets.length then
    let octets ← index self.octets 0 16
    let octets ← copyFromSlice 16 octets
    pure (some (.v6 octets))
  else
    pure none

/-- Rust `ManagementAddress::raw_octets`. -/
def ManagementAddress.rawOctets (self : ManagementAddress) : List UInt8 :=
  self.octets

/-- Rust `Chassis`. -/
structure Chassis where
  idSubtype : ChassisIdSubtype
  id : List UInt8
  name : Option String
  description : Option String
  capabilitiesAvailable : Capabilities
  capabilitiesEnabled : Capabilities
  managementAddresses : List ManagementAddress
  med : MedInventory
  deriving DecidableEq, Repr

/-- Rust `Chassis::id_str`. -/
def Chassis.idStr (self : Chassis) : Option String :=
  Utf8.fromUtf8 self.id

/-- The identifier has a text exactly when it is the UTF-8 of this text. -/
lemma Chassis.idStr_eq_some {self : Chassis} {s : String} :
    self.idStr = some s ↔ Utf8.utf8Bytes s = self.id :=
  Utf8.fromUtf8_eq_some

/-- Rust `Neighbor`. -/
structure Neighbor where
  chassis : Arc Chassis
  portIdSubtype : PortIdSubtype
  portId : List UInt8
  portDescription : Option String
  ttl : UInt16
  deriving DecidableEq, Repr

/-- Rust `Neighbor::port_id_str`. -/
def Neighbor.portIdStr (self : Neighbor) : Option String :=
  Utf8.fromUtf8 self.portId

/-- The port identifier has a text exactly when it is the UTF-8 of this text. -/
lemma Neighbor.portIdStr_eq_some {self : Neighbor} {s : String} :
    self.portIdStr = some s ↔ Utf8.utf8Bytes s = self.portId :=
  Utf8.fromUtf8_eq_some

/-- Rust `InterfaceDetails`. -/
structure InterfaceDetails where
  name : String
  «alias» : Option String
  macAddress : Bytes 6
  localChassis : Option (Arc Chassis)
  neighbors : List Neighbor
  deriving DecidableEq

/-- Rust `NeighborChangeKind`. -/
inductive NeighborChangeKind where
  | added | updated | deleted
  | other (v : Int32)
  deriving DecidableEq, Repr

/-- `From<i32> for NeighborChangeKind`. -/
def NeighborChangeKind.from (v : Int32) : NeighborChangeKind :=
  if v = 1 then .added
  else if v = 0 then .updated
  else if v = -1 then .deleted
  else .other v

/-- The number of a kind in the protocol. -/
def NeighborChangeKind.number : NeighborChangeKind → Int32
  | .added => 1
  | .updated => 0
  | .deleted => -1
  | .other v => v

/-- A value stands for a kind with its number. -/
lemma NeighborChangeKind.number_from (v : Int32) : (NeighborChangeKind.from v).number = v := by
  unfold NeighborChangeKind.from
  split_ifs with hadded hupdated hdeleted
  · exact hadded.symm
  · exact hupdated.symm
  · exact hdeleted.symm
  · rfl

/-- A value stands for no named kind when it is none of their numbers. -/
lemma NeighborChangeKind.from_eq_other {v w : Int32} :
    NeighborChangeKind.from v = .other w ↔ v = w ∧ v ≠ 1 ∧ v ≠ 0 ∧ v ≠ -1 := by
  unfold NeighborChangeKind.from
  split_ifs <;> grind

/-- Rust `NeighborChange`. -/
structure NeighborChange where
  interface : String
  interfaceAlias : Option String
  kind : NeighborChangeKind
  neighbor : Option Neighbor
  deriving DecidableEq, Repr

end Rlldpctl
