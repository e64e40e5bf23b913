import Rlldpctl.Model
import Rlldpctl.Target

/-!
# The C structures on the wire

Model of `wire/raw.rs`. Each `#[repr(C)]` structure is a `Layout`: its fields in declaration order with
their types, from which `CLayout` computes sizes, offsets and padding for the target. `RawType` names
the structures and `Raw T k` is a value of one of them, which is its bytes: `read_pod` copies them as
they are. An array field of structures (`p_med_location`) is listed as its elements, which is how an
array is laid out. Structures that are only ever skipped over are given by their type alone.
-/

namespace Rlldpctl.Wire
open NativeBytes CLayout

/-- The structures of `raw.rs`. -/
inductive RawType where
  | mgmt
  | vlan
  | ppvid
  | pi
  | medLoc
  | chassis
  | port
  | interface
  | interfaceList
  | hardware
  | hardwareWithFlagsPrevious
  | neighborChange
  | portSet
  deriving DecidableEq, Repr

/-- The fields of `RawMgmt`. -/
inductive MgmtField where
  | tqeNext | tqePrev | mFamily | mAddr | mAddrsize | mIface
  deriving DecidableEq

/-- The fields of `RawVlan`. -/
inductive VlanField where
  | tqeNext | tqePrev | vName | vVid
  deriving DecidableEq

/-- The fields of `RawPpvid`. -/
inductive PpvidField where
  | tqeNext | tqePrev | pCapStatus | pPpvid
  deriving DecidableEq

/-- The fields of `RawPi`. -/
inductive PiField where
  | tqeNext | tqePrev | pPi | pPiLen
  deriving DecidableEq

/-- The fields of `RawMedLoc`. -/
inductive MedLocField where
  | index | format | data | dataLen
  deriving DecidableEq

/-- The fields of `RawChassis`. -/
inductive ChassisField where
  | tqeNext | tqePrev | cRefcount | cIndex | cProtocol | cIdSubtype | cId | cIdLen | cName | cDescr
  | cCapAvailable | cCapEnabled | cMgmtTqhFirst | cMgmtTqhLast | cMedCapAvailable | cMedType
  | cMedHw | cMedFw | cMedSw | cMedSn | cMedManuf | cMedModel | cMedAsset
  deriving DecidableEq

/-- The locations of a port are numbered below 3. -/
instance locations : NeZero 3 := ⟨by decide⟩

/-- The fields of `RawPort`. -/
inductive PortField where
  | tqeNext | tqePrev | pChassis | pLastchange | pLastupdate | pLastremove | pLastframe
  | pProtocol | pBitfieldFlags | pHardwareFlags | pIdSubtype | pId | pIdLen | pDescr | pDescrForce
  | pMfs | pTtl | pVlanTxTag | pVlanTxEnabled | pVlanAdvertisePattern | pAggregid | pMacphy
  | pPower | pMedCapEnabled | pMedPolicy | pMedLocation (i : Fin 3) | pMedPower | pCdpPower | pPvid
  | pVlansTqhFirst | pVlansTqhLast | pPpvidsTqhFirst | pPpvidsTqhLast
  | pPidsTqhFirst | pPidsTqhLast
  deriving DecidableEq

/-- The fields of `RawInterface`. -/
inductive InterfaceField where
  | nextTqeNext | nextTqePrev | name | alias
  deriving DecidableEq

/-- The fields of `RawInterfaceList`. -/
inductive InterfaceListField where
  | tqhFirst | tqhLast
  deriving DecidableEq

/-- The fields of `RawHardware`. -/
inductive HardwareField where
  | hEntriesTqeNext | hEntriesTqePrev | hCfg | hRecv | hSendfd | hMangle | hOps | hData | hTimer
  | hMtu | hFlags | hIfindex | hIfindexChanged | hIfname | hIfalias | hLladdr
  | hTxCnt | hRxCnt | hRxDiscardedCnt | hRxUnrecognizedCnt
  | hAgeoutCnt | hInsertCnt | hDeleteCnt | hDropCnt
  | hLportPrevious | hLportPreviousLen
  | hLchassisPreviousIdSubtype | hLchassisPreviousId | hLchassisPreviousIdLen
  | hLportPreviousIdSubtype | hLportPreviousId | hLportPreviousIdLen
  | hIfdescrPrevious | hLport | hRportsTqhFirst | hRportsTqhLast | hTxFast
  deriving DecidableEq

/-- `RawHardwareWithFlagsPrevious` has every field of `RawHardware`, and `h_flags_previous`. -/
inductive HardwareWithFlagsPreviousField where
  | hFlagsPrevious
  | legacy (f : HardwareField)
  deriving DecidableEq

/-- The fields of `RawNeighborChange`. -/
inductive NeighborChangeField where
  | ifname | ifalias | state | neighbor
  deriving DecidableEq

/-- The fields of `RawPortSet`. -/
inductive PortSetField where
  | ifname | localId | localDescr | vlanAdvertisePattern | rxtx | vlanTxTag | vlanTxEnabled
  | medPolicy | medLocation | medPower | dot3Power
  deriving DecidableEq

/-- The fields of a structure. -/
abbrev RawType.Field : RawType → Type
  | .mgmt => MgmtField
  | .vlan => VlanField
  | .ppvid => PpvidField
  | .pi => PiField
  | .medLoc => MedLocField
  | .chassis => ChassisField
  | .port => PortField
  | .interface => InterfaceField
  | .interfaceList => InterfaceListField
  | .hardware => HardwareField
  | .hardwareWithFlagsPrevious => HardwareWithFlagsPreviousField
  | .neighborChange => NeighborChangeField
  | .portSet => PortSetField

/-- Fields are compared within their structure. -/
instance : (k : RawType) → DecidableEq k.Field
  | .mgmt => inferInstanceAs (DecidableEq MgmtField)
  | .vlan => inferInstanceAs (DecidableEq VlanField)
  | .ppvid => inferInstanceAs (DecidableEq PpvidField)
  | .pi => inferInstanceAs (DecidableEq PiField)
  | .medLoc => inferInstanceAs (DecidableEq MedLocField)
  | .chassis => inferInstanceAs (DecidableEq ChassisField)
  | .port => inferInstanceAs (DecidableEq PortField)
  | .interface => inferInstanceAs (DecidableEq InterfaceField)
  | .interfaceList => inferInstanceAs (DecidableEq InterfaceListField)
  | .hardware => inferInstanceAs (DecidableEq HardwareField)
  | .hardwareWithFlagsPrevious => inferInstanceAs (DecidableEq HardwareWithFlagsPreviousField)
  | .neighborChange => inferInstanceAs (DecidableEq NeighborChangeField)
  | .portSet => inferInstanceAs (DecidableEq PortSetField)

/-! ## Types -/

/-- A byte. -/
def u8 : CType := ⟨1, 1⟩
/-- An aligned number of two bytes. -/
def u16 : CType := ⟨2, 2⟩
/-- An aligned number of four bytes. -/
def u32 : CType := ⟨4, 4⟩
/-- An aligned signed number of four bytes. -/
def i32 : CType := ⟨4, 4⟩
/-- A number of eight bytes, whose alignment is the target's. -/
def u64 (T : Target) : CType := ⟨8, T.u64Align⟩
/-- A word. -/
def usize (T : Target) : CType := ⟨T.ptrSize, T.ptrSize⟩
/-- A signed word. -/
def isize (T : Target) : CType := ⟨T.ptrSize, T.ptrSize⟩

/-- Rust `RawMedPolicy`. -/
def rawMedPolicy : CType := structOf [u8, u8, u8, u8, u16, u8, u8]

/-- Rust `RawMedPower`. -/
def rawMedPower : CType := structOf [u8, u8, u8, u16]

/-- Rust `RawDot3MacPhy`. -/
def rawDot3MacPhy : CType := structOf [u8, u8, u16, u16]

/-- Rust `RawDot3Power`. -/
def rawDot3Power : CType :=
  structOf [u8, u8, u8, u8, u8, u8, u8, u8, u8, u16, u16, u8, u16, u16, u16, u16, u16, u8, u8, u8,
    u8, u8, u8, u8, u16]

/-- Rust `RawCdpPower`. -/
def rawCdpPower : CType := structOf [u16, u16]

/-! ## Structures -/

section
variable (T : Target)

/-- Rust `RawMgmt`. -/
def rawMgmt : Layout MgmtField where
  fields := [.tqeNext, .tqePrev, .mFamily, .mAddr, .mAddrsize, .mIface]
  ty
    | .tqeNext | .tqePrev | .mAddrsize => usize T
    | .mFamily => i32
    | .mAddr => .array 16 u8
    | .mIface => u32
  complete f := by cases f <;> simp

/-- Rust `RawVlan`. -/
def rawVlan : Layout VlanField where
  fields := [.tqeNext, .tqePrev, .vName, .vVid]
  ty
    | .tqeNext | .tqePrev | .vName => usize T
    | .vVid => u16
  complete f := by cases f <;> simp

/-- Rust `RawPpvid`. -/
def rawPpvid : Layout PpvidField where
  fields := [.tqeNext, .tqePrev, .pCapStatus, .pPpvid]
  ty
    | .tqeNext | .tqePrev => usize T
    | .pCapStatus => u8
    | .pPpvid => u16
  complete f := by cases f <;> simp

/-- Rust `RawPi`. -/
def rawPi : Layout PiField where
  fields := [.tqeNext, .tqePrev, .pPi, .pPiLen]
  ty
    | .tqeNext | .tqePrev | .pPi => usize T
    | .pPiLen => i32
  complete f := by cases f <;> simp

/-- Rust `RawMedLoc`. -/
def rawMedLoc : Layout MedLocField where
  fields := [.index, .format, .data, .dataLen]
  ty
    | .index | .format => u8
    | .data => usize T
    | .dataLen => i32
  complete f := by cases f <;> simp

/-- Rust `RawChassis`. -/
def rawChassis : Layout ChassisField where
  fields :=
    [.tqeNext, .tqePrev, .cRefcount, .cIndex, .cProtocol, .cIdSubtype, .cId, .cIdLen, .cName,
      .cDescr, .cCapAvailable, .cCapEnabled, .cMgmtTqhFirst, .cMgmtTqhLast, .cMedCapAvailable,
      .cMedType, .cMedHw, .cMedFw, .cMedSw, .cMedSn, .cMedManuf, .cMedModel, .cMedAsset]
  ty
    | .cRefcount | .cIndex | .cCapAvailable | .cCapEnabled | .cMedCapAvailable => u16
    | .cProtocol | .cIdSubtype | .cMedType => u8
    | .cIdLen => i32
    | _ => usize T
  complete f := by cases f <;> simp

/-- Rust `RawPort`. -/
def rawPort : Layout PortField where
  fields :=
    [.tqeNext, .tqePrev, .pChassis, .pLastchange, .pLastupdate, .pLastremove, .pLastframe,
      .pProtocol, .pBitfieldFlags, .pHardwareFlags, .pIdSubtype, .pId, .pIdLen, .pDescr,
      .pDescrForce, .pMfs, .pTtl, .pVlanTxTag, .pVlanTxEnabled, .pVlanAdvertisePattern, .pAggregid,
      .pMacphy, .pPower, .pMedCapEnabled, .pMedPolicy, .pMedLocation 0, .pMedLocation 1,
      .pMedLocation 2, .pMedPower, .pCdpPower, .pPvid, .pVlansTqhFirst, .pVlansTqhLast,
      .pPpvidsTqhFirst, .pPpvidsTqhLast, .pPidsTqhFirst, .pPidsTqhLast]
  ty
    | .pLastchange | .pLastupdate | .pLastremove => isize T
    | .pProtocol | .pBitfieldFlags | .pIdSubtype => u8
    | .pHardwareFlags | .pIdLen | .pDescrForce | .pVlanTxTag | .pVlanTxEnabled => i32
    | .pMfs | .pTtl | .pMedCapEnabled | .pPvid => u16
    | .pAggregid => u32
    | .pMacphy => rawDot3MacPhy
    | .pPower => rawDot3Power
    | .pMedPolicy => .array 8 rawMedPolicy
    | .pMedLocation _ => (rawMedLoc T).ctype
    | .pMedPower => rawMedPower
    | .pCdpPower => rawCdpPower
    | _ => usize T
  complete f := by
    cases f with
    | pMedLocation i => match i with | 0 | 1 | 2 => simp
    | _ => simp

/-- Rust `RawInterface`. -/
def rawInterface : Layout InterfaceField where
  fields := [.nextTqeNext, .nextTqePrev, .name, .alias]
  ty _ := usize T
  complete f := by cases f <;> simp

/-- Rust `RawInterfaceList`. -/
def rawInterfaceList : Layout InterfaceListField where
  fields := [.tqhFirst, .tqhLast]
  ty _ := usize T
  complete f := by cases f <;> simp

/-- The fields of `RawHardware` before the place of `h_flags_previous`. -/
def hardwareHead : List HardwareField :=
  [.hEntriesTqeNext, .hEntriesTqePrev, .hCfg, .hRecv, .hSendfd, .hMangle, .hOps, .hData, .hTimer,
    .hMtu, .hFlags]

/-- The fields of `RawHardware` after the place of `h_flags_previous`. -/
def hardwareTail : List HardwareField :=
  [.hIfindex, .hIfindexChanged, .hIfname, .hIfalias, .hLladdr, .hTxCnt, .hRxCnt, .hRxDiscardedCnt,
    .hRxUnrecognizedCnt, .hAgeoutCnt, .hInsertCnt, .hDeleteCnt, .hDropCnt, .hLportPrevious,
    .hLportPreviousLen, .hLchassisPreviousIdSubtype, .hLchassisPreviousId, .hLchassisPreviousIdLen,
    .hLportPreviousIdSubtype, .hLportPreviousId, .hLportPreviousIdLen, .hIfdescrPrevious, .hLport,
    .hRportsTqhFirst, .hRportsTqhLast, .hTxFast]

/-- The types of the fields of `RawHardware`. -/
def hardwareTy : HardwareField → CType
  | .hSendfd | .hMangle | .hMtu | .hFlags | .hIfindex | .hIfindexChanged
  | .hLchassisPreviousIdLen | .hLportPreviousIdLen | .hTxFast => i32
  | .hIfname => .array 16 u8
  | .hLladdr => .array 6 u8
  | .hTxCnt | .hRxCnt | .hRxDiscardedCnt | .hRxUnrecognizedCnt
  | .hAgeoutCnt | .hInsertCnt | .hDeleteCnt | .hDropCnt => u64 T
  | .hLportPreviousLen => isize T
  | .hLchassisPreviousIdSubtype | .hLportPreviousIdSubtype => u8
  | .hLport => (rawPort T).ctype
  | _ => usize T

/-- Rust `RawHardware`. -/
def rawHardware : Layout HardwareField where
  fields := hardwareHead ++ hardwareTail
  ty := hardwareTy T
  complete f := by cases f <;> simp [hardwareHead, hardwareTail]

/-- Rust `RawHardwareWithFlagsPrevious`. -/
def rawHardwareWithFlagsPrevious : Layout HardwareWithFlagsPreviousField where
  fields := hardwareHead.map .legacy ++ .hFlagsPrevious :: hardwareTail.map .legacy
  ty
    | .hFlagsPrevious => i32
    | .legacy f => hardwareTy T f
  complete f := by
    cases f with
    | hFlagsPrevious => simp
    | legacy f => cases f <;> simp [hardwareHead, hardwareTail]

/-- Rust `RawNeighborChange`. -/
def rawNeighborChange : Layout NeighborChangeField where
  fields := [.ifname, .ifalias, .state, .neighbor]
  ty
    | .state => i32
    | _ => usize T
  complete f := by cases f <;> simp

/-- Rust `RawPortSet`. -/
def rawPortSet : Layout PortSetField where
  fields :=
    [.ifname, .localId, .localDescr, .vlanAdvertisePattern, .rxtx, .vlanTxTag, .vlanTxEnabled,
      .medPolicy, .medLocation, .medPower, .dot3Power]
  ty
    | .rxtx | .vlanTxTag | .vlanTxEnabled => i32
    | _ => usize T
  complete f := by cases f <;> simp

/-- The layout of each structure. -/
abbrev layout : (k : RawType) → Layout k.Field
  | .mgmt => rawMgmt T
  | .vlan => rawVlan T
  | .ppvid => rawPpvid T
  | .pi => rawPi T
  | .medLoc => rawMedLoc T
  | .chassis => rawChassis T
  | .port => rawPort T
  | .interface => rawInterface T
  | .interfaceList => rawInterfaceList T
  | .hardware => rawHardware T
  | .hardwareWithFlagsPrevious => rawHardwareWithFlagsPrevious T
  | .neighborChange => rawNeighborChange T
  | .portSet => rawPortSet T

/-- A location is embedded in the port with its own layout. -/
lemma pMedLocation_ty (i : Fin 3) :
    (layout T .port).ty (.pMedLocation i) = (layout T .medLoc).ctype :=
  rfl

end

/-- A value of a structure. -/
abbrev Raw (T : Target) (k : RawType) := Pod (layout T k)

/-- `size_of` a structure. -/
abbrev sizeOf (T : Target) (k : RawType) : Nat := (layout T k).size

example : sizeOf .lp64le .hardware = 632 ∧ sizeOf .lp64le .hardwareWithFlagsPrevious = 640 ∧
    sizeOf .lp64le .portSet = 80 := by decide +kernel

/-- No structure is empty and none is large. -/
lemma sizeOf_bound (T : Target) (k : RawType) : 0 < sizeOf T k ∧ sizeOf T k ≤ 640 := by
  obtain ⟨e, rfl | rfl | rfl⟩ := T.cases
  · cases e <;> cases k <;> decide +kernel
  · cases e <;> cases k <;> decide +kernel
  · cases e <;> cases k <;> decide +kernel

namespace Raw
variable {T : Target} {k : RawType}

/-- `std::mem::zeroed()`. -/
def zeroed (T : Target) (k : RawType) : Raw T k :=
  ⟨List.replicate (sizeOf T k) 0, List.length_replicate⟩

/-- A pointer or another `usize` field. -/
def usize (raw : Raw T k) (f : k.Field) : Nat := T.endian.nat (raw.get f)

/-- A `u8` field. -/
def u8 (raw : Raw T k) (f : k.Field) : UInt8 := .ofNat (T.endian.nat (raw.get f))

/-- A `u16` field. -/
def u16 (raw : Raw T k) (f : k.Field) : UInt16 := .ofNat (T.endian.nat (raw.get f))

/-- A `u32` field. -/
def u32 (raw : Raw T k) (f : k.Field) : UInt32 := .ofNat (T.endian.nat (raw.get f))

/-- An `i32` field. -/
def i32 (raw : Raw T k) (f : k.Field) : Int32 := (raw.u32 f).toInt32

/-- An embedded structure. -/
def sub (raw : Raw T k) (f : k.Field) (k' : RawType)
    (h : (layout T k).ty f = (layout T k').ctype) : Raw T k' :=
  ⟨raw.get f, by rw [Pod.length_get, h]; rfl⟩

end Raw

/-- Rust trait `HardwareFields`: where each of the two structures keeps what `decode_hardware` reads. -/
class HardwareFields (k : RawType) where
  hLport : k.Field
  hRportsTqhFirst : k.Field
  hIfalias : k.Field
  hIfname : k.Field
  hLladdr : k.Field
  hLport_ty : ∀ T, (layout T k).ty hLport = (layout T .port).ctype
  hRportsTqhFirst_ty : ∀ T, (layout T k).ty hRportsTqhFirst = Wire.usize T
  hIfalias_ty : ∀ T, (layout T k).ty hIfalias = Wire.usize T
  hIfname_ty : ∀ T, (layout T k).ty hIfname = .array 16 Wire.u8
  hLladdr_ty : ∀ T, (layout T k).ty hLladdr = .array 6 Wire.u8
  nodup : [hLport, hRportsTqhFirst, hIfalias, hIfname, hLladdr].Nodup

/-- The fields of `RawHardware` as they are. -/
instance : HardwareFields .hardware where
  hLport := .hLport
  hRportsTqhFirst := .hRportsTqhFirst
  hIfalias := .hIfalias
  hIfname := .hIfname
  hLladdr := .hLladdr
  hLport_ty _ := rfl
  hRportsTqhFirst_ty _ := rfl
  hIfalias_ty _ := rfl
  hIfname_ty _ := rfl
  hLladdr_ty _ := rfl
  nodup := by decide

/-- The fields of `RawHardwareWithFlagsPrevious` that `RawHardware` has too. -/
instance : HardwareFields .hardwareWithFlagsPrevious where
  hLport := .legacy .hLport
  hRportsTqhFirst := .legacy .hRportsTqhFirst
  hIfalias := .legacy .hIfalias
  hIfname := .legacy .hIfname
  hLladdr := .legacy .hLladdr
  hLport_ty _ := rfl
  hRportsTqhFirst_ty _ := rfl
  hIfalias_ty _ := rfl
  hIfname_ty _ := rfl
  hLladdr_ty _ := rfl
  nodup := by decide

namespace Raw
variable {T : Target} {k : RawType} [HardwareFields k] (raw : Raw T k)

/-- Rust `HardwareFields::h_lport`. -/
def hLport : Raw T .port := raw.sub HardwareFields.hLport .port (HardwareFields.hLport_ty T)

/-- Rust `HardwareFields::h_rports_tqh_first`. -/
def hRportsTqhFirst : Nat := raw.usize HardwareFields.hRportsTqhFirst

/-- Rust `HardwareFields::h_ifalias`. -/
def hIfalias : Nat := raw.usize HardwareFields.hIfalias

/-- Rust `HardwareFields::h_ifname`. -/
def hIfname : Bytes 16 :=
  ⟨raw.get HardwareFields.hIfname, by rw [Pod.length_get, HardwareFields.hIfname_ty]; rfl⟩

/-- Rust `HardwareFields::h_lladdr`. -/
def hLladdr : Bytes 6 :=
  ⟨raw.get HardwareFields.hLladdr, by rw [Pod.length_get, HardwareFields.hLladdr_ty]; rfl⟩

end Raw

end Rlldpctl.Wire
