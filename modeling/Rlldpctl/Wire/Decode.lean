import Rlldpctl.Model
import Rlldpctl.Wire.CursorSpec

/-!
# The decoders

Model of `wire/decode.rs`. Each decoder reads the chunks of one structure in the order of its pointer
fields. A list is a `chain`: the structure of its first element, then the whole rest of the list, then
the element's other chunks. `decode_neighbor_chain` threads the chassis cache through in the order the
elements are finished, last element first.
-/

namespace Rlldpctl.Wire
open ByteReader CLayout NativeBytes Utf8

variable (T : Target)

/-- The elements of a list that is read inside-out. -/
def elements {k : RawType} {α : Type} (next : k.Field) (finish : Raw T k → Decode α) :
    Decode (List α) := do
  let (out, _) ← chain (readChunkPod T k) (fun raw => raw.usize next != 0)
    (fun raw _ => do let a ← finish raw; pure (a, ())) (advances_readChunkPod k) ()
  pure out

/-! ## Interfaces -/

/-- An interface after the rest of its list. -/
def finishInterface (raw : Raw T .interface) : Decode Interface := do
  let name ← readOptCstring T (raw.usize .name)
  let ifalias ← readOptCstring T (raw.usize .alias)
  pure ⟨name.getD "", ifalias⟩

/-- Rust `decode_interface_chain`. -/
def decodeInterfaceChain : Decode (List Interface) :=
  elements T (k := .interface) .nextTqeNext (finishInterface T)

/-- The body of `decode_interfaces`. -/
def interfaces : Decode (List Interface) := do
  let list ← readChunkPod T .interfaceList
  if list.usize .tqhFirst = 0 then
    pure []
  else
    decodeInterfaceChain T

/-- A decoder on a whole payload. -/
def decode {α : Type} (d : Decode α) (payload : List UInt8) : Except Fault α :=
  match d (Cursor.new payload) with
  | .ok a _ => .ok a
  | .error e _ => .error e

/-- Rust `decode_interfaces`. -/
def decodeInterfaces (payload : List UInt8) : Except Fault (List Interface) :=
  decode (interfaces T) payload

/-! ## Chassis -/

/-- A management address after the rest of its list. -/
def finishMgmt (raw : Raw T .mgmt) : Decode ManagementAddress := do
  let mAddr := raw.get .mAddr
  let len := min (raw.usize .mAddrsize) mAddr.length
  let octets ← ofExcept (index mAddr 0 len)
  pure ⟨raw.u32 .mFamily, octets, raw.u32 .mIface⟩

/-- The slice of `m_addr` is inside its 16 bytes whatever `m_addrsize` says. -/
lemma finishMgmt_eq (raw : Raw T .mgmt) :
    finishMgmt T raw = pure ⟨raw.u32 .mFamily,
      (raw.get .mAddr).take (min (raw.usize .mAddrsize) (raw.get .mAddr).length),
      raw.u32 .mIface⟩ := by
  unfold finishMgmt
  dsimp only
  rw [index_eq (Nat.zero_le _) (Nat.min_le_right _ _)]
  rfl

/-- Rust `decode_mgmt_chain`. -/
def decodeMgmtChain : Decode (List ManagementAddress) :=
  elements T (k := .mgmt) .tqeNext (finishMgmt T)

/-- Rust `decode_chassis`. -/
def decodeChassis : Decode Chassis := do
  let raw ← readChunkPod T .chassis
  let id ← readOptBytes T (raw.usize .cId)
  let name ← readOptCstring T (raw.usize .cName)
  let description ← readOptCstring T (raw.usize .cDescr)
  let managementAddresses ←
    (if raw.usize .cMgmtTqhFirst ≠ 0 then decodeMgmtChain T else pure [])
  let hardwareRevision ← readOptCstring T (raw.usize .cMedHw)
  let firmwareRevision ← readOptCstring T (raw.usize .cMedFw)
  let softwareRevision ← readOptCstring T (raw.usize .cMedSw)
  let serialNumber ← readOptCstring T (raw.usize .cMedSn)
  let manufacturer ← readOptCstring T (raw.usize .cMedManuf)
  let model ← readOptCstring T (raw.usize .cMedModel)
  let assetId ← readOptCstring T (raw.usize .cMedAsset)
  pure
    { idSubtype := .from (raw.u8 .cIdSubtype)
      id := id.getD []
      name
      description
      capabilitiesAvailable := ⟨raw.u16 .cCapAvailable⟩
      capabilitiesEnabled := ⟨raw.u16 .cCapEnabled⟩
      managementAddresses
      med := { hardwareRevision, firmwareRevision, softwareRevision, serialNumber, manufacturer,
               model, assetId } }

/-- Rust `ChassisCache`, the latest insertion first. -/
abbrev ChassisCache := List (Nat × Arc Chassis)

/-- `HashMap::get`. -/
def ChassisCache.get (cache : ChassisCache) (ptr : Nat) : Option (Arc Chassis) :=
  cache.lookup ptr

/-- A pointer that is not found is not in the cache. -/
lemma get_eq_none {cache : ChassisCache} {v : Nat} : cache.get v = none ↔ v ∉ cache.map Prod.fst := by
  rw [ChassisCache.get, List.lookup_eq_none_iff, List.mem_map]
  refine ⟨fun h hmem => ?_, fun h q hq => ?_⟩
  · obtain ⟨q, hq, rfl⟩ := hmem
    exact bne_iff_ne.mp (h q hq) rfl
  · exact bne_iff_ne.mpr fun heq => h ⟨q, hq, heq.symm⟩

/-- `HashMap::insert`. -/
def ChassisCache.insert (cache : ChassisCache) (ptr : Nat) (chassis : Arc Chassis) : ChassisCache :=
  (ptr, chassis) :: cache

/-- `Arc::new`: every chassis that is allocated goes into the cache, so their number is fresh. -/
def ChassisCache.alloc (cache : ChassisCache) (chassis : Chassis) : Arc Chassis :=
  ⟨cache.length, chassis⟩

/-! ## Ports -/

/-- Element `i` of `p_med_location`. -/
def pMedLocation {T : Target} (raw : Raw T .port) (i : Fin 3) : Raw T .medLoc :=
  raw.sub (.pMedLocation i) .medLoc (pMedLocation_ty T i)

/-- Rust `decode_med_location_marker`. -/
def decodeMedLocationMarker (loc : Raw T .medLoc) : Decode Unit := do
  consumeSubstructMarker T
  let _ ← readOptBytes T (loc.usize .data)

/-- Rust `discard_vlan_chain`. -/
def discardVlanChain : Decode Unit := do
  let _ ← elements T (k := .vlan) .tqeNext fun raw => readOptCstring T (raw.usize .vName)

/-- Rust `discard_ppvid_chain`. -/
def discardPpvidChain : Decode Unit := do
  let _ ← elements T (k := .ppvid) .tqeNext fun _ => pure ()

/-- Rust `discard_pi_chain`. -/
def discardPiChain : Decode Unit := do
  let _ ← elements T (k := .pi) .tqeNext fun raw => readOptBytes T (raw.usize .pPi)

/-- Rust `PortFields`. -/
structure PortFields where
  chassis : Option (Arc Chassis)
  id : Option (List UInt8)
  description : Option String

/-- The chassis of a port, decoded when it is seen for the first time. -/
def portChassis (pChassis : Nat) (chassisCache : ChassisCache) :
    Decode (Option (Arc Chassis) × ChassisCache) :=
  if pChassis = 0 then
    pure (none, chassisCache)
  else
    match chassisCache.get pChassis with
    | some cached => pure (some cached, chassisCache)
    | none => do
      let chassis ← decodeChassis T
      let decoded := chassisCache.alloc chassis
      pure (some decoded, chassisCache.insert pChassis decoded)

/-- The fields of a port after its chassis: the id and the description are surfaced. -/
def portRest (raw : Raw T .port) : Decode (Option (List UInt8) × Option String) := do
  let id ← readOptBytes T (raw.usize .pId)
  let description ← readOptCstring T (raw.usize .pDescr)
  let _ ← readOptCstring T (raw.usize .pVlanAdvertisePattern)
  decodeMedLocationMarker T (pMedLocation raw 0)
  decodeMedLocationMarker T (pMedLocation raw 1)
  decodeMedLocationMarker T (pMedLocation raw 2)
  (if raw.usize .pVlansTqhFirst ≠ 0 then discardVlanChain T else pure ())
  (if raw.usize .pPpvidsTqhFirst ≠ 0 then discardPpvidChain T else pure ())
  (if raw.usize .pPidsTqhFirst ≠ 0 then discardPiChain T else pure ())
  pure (id, description)

/-- Rust `decode_port_fields`. -/
def decodePortFields (raw : Raw T .port) (chassisCache : ChassisCache) :
    Decode (PortFields × ChassisCache) := do
  let (chassis, chassisCache) ← portChassis T (raw.usize .pChassis) chassisCache
  let (id, description) ← portRest T raw
  pure (⟨chassis, id, description⟩, chassisCache)

/-- Rust `build_neighbor`. -/
def buildNeighbor (raw : Raw T .port) (chassisCache : ChassisCache) :
    Decode (Neighbor × ChassisCache) := do
  let (fields, chassisCache) ← decodePortFields T raw chassisCache
  match fields.chassis with
  | none => throw (protocol "neighbor port has no associated chassis")
  | some chassis =>
    pure
      ({ chassis
         portIdSubtype := .from (raw.u8 .pIdSubtype)
         portId := fields.id.getD []
         portDescription := fields.description
         ttl := raw.u16 .pTtl }, chassisCache)

/-- Rust `decode_neighbor_chain`. -/
def decodeNeighborChain (chassisCache : ChassisCache) : Decode (List Neighbor × ChassisCache) :=
  chain (readChunkPod T .port) (fun raw => raw.usize .tqeNext != 0) (buildNeighbor T)
    (advances_readChunkPod .port) chassisCache

/-! ## One interface -/

/-- The bytes before the first NUL. -/
def untilNul (bytes : List UInt8) : Except Fault (List UInt8) :=
  index bytes 0 (bytes.findIdx (· == 0))

/-- The name is what is before the first NUL, or all of it. -/
lemma untilNul_eq (bytes : List UInt8) : untilNul bytes = .ok (bytes.takeWhile (· ≠ 0)) := by
  have hle : bytes.findIdx (· == 0) ≤ bytes.length := List.findIdx_le_length
  have hslice : ∀ bytes : List UInt8,
      slice bytes 0 (bytes.findIdx (· == 0)) = bytes.takeWhile (· ≠ 0) := by
    intro bytes
    induction bytes with
    | nil => rfl
    | cons b bs ih =>
      by_cases hb : b = 0
      · subst hb
        rfl
      · have hb' : (b == 0) = false := beq_eq_false_iff_ne.mpr hb
        have hd : decide (b ≠ 0) = true := decide_eq_true hb
        rw [List.findIdx_cons, hb', List.takeWhile_cons]
        simp only [hd, if_true]
        exact congrArg (b :: ·) ih
  rw [untilNul, index_eq (Nat.zero_le _) hle, Nat.sub_zero, hslice]

/-- What `decode_hardware_as` reads after the root structure. -/
def hardwareFields {k : RawType} [HardwareFields k] (raw : Raw T k) : Decode InterfaceDetails := do
  consumeSubstructMarker T
  if raw.hLport.usize .tqeNext ≠ 0 then
    throw (protocol "local port unexpectedly chained to another port")
  else
    let (localFields, chassisCache) ← decodePortFields T raw.hLport []
    let (neighbors, _) ←
      (if raw.hRportsTqhFirst ≠ 0 then decodeNeighborChain T chassisCache
       else pure ([], chassisCache))
    let ifalias ← readOptCstring T raw.hIfalias
    let name ← ofExcept (untilNul raw.hIfname.1)
    pure
      { name := fromUtf8Lossy name
        «alias» := ifalias
        macAddress := raw.hLladdr
        localChassis := localFields.chassis
        neighbors }

/-- The check that tells a wrong layout: every byte must have been read. -/
def requireExhausted (details : InterfaceDetails) : Decode InterfaceDetails := do
  let cursor : Cursor ← get
  if ¬ cursor.isExhausted then
    throw (protocol "message layout mismatch: bytes remain unconsumed after decoding")
  else
    pure details

/-- The check fails when bytes are left over, and moves nothing. -/
lemma requireExhausted_eq (details : InterfaceDetails) (self : Cursor) :
    requireExhausted details self =
      if self.pos = self.buf.length then .ok details self
      else .error (protocol
        "message layout mismatch: bytes remain unconsumed after decoding") self := by
  show (if ¬ self.isExhausted then _ else _ : Decode InterfaceDetails) self = _
  rw [Cursor.isExhausted]
  by_cases h : self.pos = self.buf.length
  · rw [if_pos h, beq_iff_eq.mpr h]
    rfl
  · rw [if_neg h, beq_eq_false_iff_ne.mpr h]
    rfl

/-- The body of `decode_hardware_as`. -/
def hardware (k : RawType) [HardwareFields k] : Decode InterfaceDetails := do
  let raw ← readChunkPod T k
  let details ← hardwareFields T raw
  requireExhausted details

/-- Rust `decode_hardware_as`. -/
def decodeHardwareAs (k : RawType) [HardwareFields k] (payload : List UInt8) :
    Except Fault InterfaceDetails :=
  decode (hardware T k) payload

/-- Rust `decode_hardware`. -/
def decodeHardware (payload : List UInt8) : Except Fault InterfaceDetails :=
  match decodeHardwareAs T .hardware payload with
  | .ok details => .ok details
  | .error .panic => .error .panic
  | .error (.error legacyErr) =>
    match decodeHardwareAs T .hardwareWithFlagsPrevious payload with
    | .ok details => .ok details
    | .error .panic => .error .panic
    | .error (.error _) => .error (.error legacyErr)

variable {T} in
/-- What the first attempt accepts is the result. -/
lemma decodeHardware_of_legacy {payload : List UInt8} {details : InterfaceDetails}
    (h : decodeHardwareAs T .hardware payload = .ok details) :
    decodeHardware T payload = .ok details := by
  rw [decodeHardware, h]

/-! ## Notifications -/

/-- The notified neighbor after its own structure. -/
def finishNotified (portRaw : Raw T .port) : Decode Neighbor := do
  if portRaw.usize .tqeNext ≠ 0 then
    throw (protocol "notified neighbor unexpectedly chained to another port")
  else
    let (neighbor, _) ← buildNeighbor T portRaw []
    pure neighbor

/-- The neighbor behind a pointer. -/
def notifiedNeighbor (ptrField : Nat) : Decode (Option Neighbor) := do
  if ptrField = 0 then
    pure none
  else
    let portRaw ← readChunkPod T .port
    let neighbor ← finishNotified T portRaw
    pure (some neighbor)

/-- What `decode_neighbor_change` reads after the root structure. -/
def neighborChangeFields (raw : Raw T .neighborChange) : Decode NeighborChange := do
  let interface ← readOptCstring T (raw.usize .ifname)
  let interfaceAlias ← readOptCstring T (raw.usize .ifalias)
  let neighbor ← notifiedNeighbor T (raw.usize .neighbor)
  pure
    { interface := interface.getD ""
      interfaceAlias
      kind := .from (raw.i32 .state)
      neighbor }

/-- The body of `decode_neighbor_change`. -/
def neighborChange : Decode NeighborChange := do
  let raw ← readChunkPod T .neighborChange
  neighborChangeFields T raw

/-- Rust `decode_neighbor_change`. -/
def decodeNeighborChange (payload : List UInt8) : Except Fault NeighborChange :=
  decode (neighborChange T) payload

end Rlldpctl.Wire
