import Rlldpctl.Wire.Reads
import Rlldpctl.Wire.Tree

/-!
# Reading the trees

The rules of `Reads` applied to each structure whose serialization does not depend on what was
serialized before it: interfaces, management addresses, chassis and the fields of a port other than its
chassis.
-/

namespace Rlldpctl.Wire
open ByteReader CLayout Nesting NativeBytes Utf8

variable {T : Target} {κ β : Type}

/-! ## Interfaces -/

/-- The two texts of an interface are read behind it. -/
lemma follows_interface (hT : ReadsWords T) (nm : Naming T) (x : InterfaceNode T)
    (raw : Raw T .interface) :
    Follows (κ := κ) (x.links nm) raw (finishInterface T raw) x.value := by
  refine .ptr rfl (reads_cstring hT nm x.name) ?_
  refine .ptr rfl (reads_cstring hT nm x.alias) ?_
  exact .nil x.value

/-- The list of interfaces is read behind its root. -/
lemma behind_interfaces (hT : ReadsWords T) (nm : Naming T) (body : Raw T .interfaceList)
    (xs : List (InterfaceNode T)) :
    Behind (κ := κ) (interfacesRoot nm body xs) T (interfaces T) (xs.map InterfaceNode.value) := by
  have hlist := reads_list (κ := κ) hT nm (k := .interface) .nextTqeNext rfl
    InterfaceNode.body (InterfaceNode.links nm)
    (fun _ => (by decide : [InterfaceField.nextTqeNext, .name, .alias].Nodup))
    (follows_interface hT nm) xs
  have hfirst := hlist.congr (fun v => if v = 0 then pure [] else decodeInterfaceChain T)
    fun v => (ite_not _ _ _).symm
  refine behind_struct hT _ _ ?_ fun raw => ?_
  · exact List.nodup_singleton InterfaceListField.tqhFirst
  · exact Follows.last (k := .interfaceList) (f := .tqhFirst) rfl hfirst

/-! ## Chassis -/

/-- A management address asks for nothing behind it. -/
lemma follows_mgmt (x : MgmtNode T) (raw : Raw T .mgmt) :
    Follows (κ := κ) x.links raw (finishMgmt T raw) x.value := by
  refine .int fun hfamily => .bytes fun haddr => .int fun hsize => .int fun hiface => ?_
  have hlen : raw.usize .mAddrsize = x.addr.length := by
    have hle := x.addr_le
    have hmax := T.isizeMax_ge
    exact hsize.trans (T.mod_word_of_le (by omega))
  have htake : (raw.get .mAddr).take (min (raw.usize .mAddrsize) (raw.get .mAddr).length) =
      x.addr := by
    rw [hlen, haddr, MgmtNode.addrImage, List.length_append, Nat.min_eq_left (Nat.le_add_right _ _),
      List.take_left]
  rw [finishMgmt_eq, htake, u32_eq hfamily, u32_eq hiface]
  exact .nil x.value

/-- A chassis is read with its texts and its management addresses. -/
lemma behind_chassis (hT : ReadsWords T) (nm : Naming T) (x : ChassisNode T) :
    Behind (κ := κ) (struct x.body (x.links nm)) T (decodeChassis T) x.value := by
  have hmgmt := reads_list (κ := κ) hT nm (k := .mgmt) .tqeNext rfl
    MgmtNode.body MgmtNode.links
    (fun _ => (by decide : [MgmtField.tqeNext, .mFamily, .mAddr, .mAddrsize, .mIface].Nodup))
    follows_mgmt x.mgmt
  refine behind_struct hT _ _ ?_ fun raw => ?_
  · exact (by decide : [ChassisField.cIdSubtype, .cCapAvailable, .cCapEnabled, .cId, .cName, .cDescr,
      .cMgmtTqhFirst, .cMedHw, .cMedFw, .cMedSw, .cMedSn, .cMedManuf, .cMedModel, .cMedAsset].Nodup)
  refine .int fun hsub => .int fun havail => .int fun hen => ?_
  refine .ptr rfl (reads_bstring hT nm x.id) ?_
  refine .ptr rfl (reads_cstring hT nm x.name) ?_
  refine .ptr rfl (reads_cstring hT nm x.description) ?_
  refine .ptr rfl hmgmt ?_
  refine .ptr rfl (reads_cstring hT nm x.med.hardwareRevision) ?_
  refine .ptr rfl (reads_cstring hT nm x.med.firmwareRevision) ?_
  refine .ptr rfl (reads_cstring hT nm x.med.softwareRevision) ?_
  refine .ptr rfl (reads_cstring hT nm x.med.serialNumber) ?_
  refine .ptr rfl (reads_cstring hT nm x.med.manufacturer) ?_
  refine .ptr rfl (reads_cstring hT nm x.med.model) ?_
  refine .ptr rfl (reads_cstring hT nm x.med.assetId) ?_
  rw [u8_eq hsub, u16_eq havail, u16_eq hen]
  exact .nil x.value

/-! ## Ports -/

/-- A list that the port does not keep is read all the same. -/
lemma Follows.discard {k k' : RawType} {f : k.Field} {next : k'.Field} {α : Type}
    {ref : Marshal κ Ref} {ls : List (Link T κ k)} {raw : Raw T k} {finish : Raw T k' → Decode α}
    {xs : List α} {e : Unit → Decode β} {b : β} (hf : (layout T k).ty f = usize T)
    (hlist : Reads ref T (readList T next finish) xs) (hls : Follows ls raw (e ()) b) :
    Follows (.ptr f ref :: ls) raw
      ((if raw.usize f ≠ 0 then (elements T next finish >>= fun _ => pure ()) else pure ()) >>= e)
      b := by
  refine .ptr (d := fun v => if v ≠ 0 then _ else _) hf ?_ hls
  refine (hlist.map fun _ => ()).congr _ fun v => ?_
  by_cases hv : v = 0
  · subst hv
    rfl
  · rw [if_pos hv, readList, if_pos hv]

/-- What a port sends after its chassis is read, and only its identifier and its description are kept. -/
lemma follows_portRest (hT : ReadsWords T) (nm : Naming T) {χ : Type} (p : PortNode T χ)
    (raw : Raw T .port) :
    Follows (κ := κ) (p.restLinks nm) raw (portRest T raw) (p.id, p.description) := by
  have hnodup : ∀ x : MedLocNode T, ((x.links (κ := κ) nm).map Link.field).Nodup :=
    fun _ => List.nodup_singleton _
  have hdata : ∀ (x : MedLocNode T) (loc : Raw T .medLoc),
      Follows (κ := κ) (x.links nm) loc
        (readOptBytes T (loc.usize .data) >>= fun _ => pure ()) () :=
    fun x loc => (Follows.last rfl (reads_bstring hT nm x.data)).map fun _ => ()
  have hvlans := reads_list (κ := κ) hT nm (k := .vlan) .tqeNext rfl
    VlanNode.body (VlanNode.links nm)
    (fun _ => (by decide : [VlanField.tqeNext, .vName].Nodup))
    (fun v raw => Follows.last (k := .vlan) rfl (reads_cstring hT nm v.name)) p.vlans
  have hppvids := reads_list (κ := κ) hT nm (k := .ppvid) .tqeNext rfl
    (fun body => body) (fun _ => []) (fun _ => List.nodup_singleton _)
    (fun _ raw => Follows.nil ()) p.ppvids
  have hpids := reads_list (κ := κ) hT nm (k := .pi) .tqeNext rfl
    PiNode.body (PiNode.links nm)
    (fun _ => (by decide : [PiField.tqeNext, .pPi].Nodup))
    (fun v raw => Follows.last (k := .pi) rfl (reads_bstring hT nm v.data)) p.pids
  refine .ptr rfl (reads_bstring hT nm p.id) ?_
  refine .ptr rfl (reads_cstring hT nm p.description) ?_
  refine .ptr rfl (reads_cstring hT nm p.vlanAdvertisePattern) ?_
  refine .embedded (hnodup (p.medLocation 0)) (hdata (p.medLocation 0)) ?_
  refine .embedded (hnodup (p.medLocation 1)) (hdata (p.medLocation 1)) ?_
  refine .embedded (hnodup (p.medLocation 2)) (hdata (p.medLocation 2)) ?_
  refine .discard rfl hvlans ?_
  refine .discard rfl hppvids ?_
  refine .discard rfl hpids ?_
  exact .nil (p.id, p.description)

/-- No field of a port is followed twice. -/
lemma nodup_portLinks {χ : Type} (nm : Naming T) (p : PortNode T χ) (next chassis : Marshal κ Ref) :
    ((p.links nm next chassis).map Link.field).Nodup :=
  (by decide : [PortField.tqeNext, .pIdSubtype, .pTtl, .pChassis, .pId, .pDescr,
    .pVlanAdvertisePattern, .pMedLocation 0, .pMedLocation 1, .pMedLocation 2, .pVlansTqhFirst,
    .pPpvidsTqhFirst, .pPidsTqhFirst].Nodup)

end Rlldpctl.Wire
