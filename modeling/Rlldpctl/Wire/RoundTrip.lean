import Rlldpctl.Wire.Sharing

/-!
# Decoding what a daemon sends

Each decoder on the messages of its kind: it returns the value the tree stands for and stops at the
last byte. The targets on which this holds are those that read words back (`ReadsWords`).
-/

namespace Rlldpctl.Wire
open ByteReader CLayout Nesting NativeBytes Utf8

variable {T : Target} {κ : Type}

/-- Where words are not read back the list is refused. -/
lemma decodeInterfaces_rejects (hT : ¬ ReadsWords T) (body : Raw T .interfaceList)
    (xs : List (InterfaceNode T)) (hlen : (interfacesMessage body xs).length ≤ T.isizeMax) :
    ∃ msg, decodeInterfaces T (interfacesMessage body xs) = .error (protocol msg) :=
  decode_message_rejects hT body _ hlen fun list =>
    if list.usize .tqhFirst = 0 then pure [] else decodeInterfaceChain T

/-- Decoding undoes encoding for `GET_INTERFACES`, exactly on the targets that read words back. -/
theorem decodeInterfaces_interfacesMessage (body : Raw T .interfaceList)
    (xs : List (InterfaceNode T)) (hlen : (interfacesMessage body xs).length ≤ T.isizeMax) :
    decodeInterfaces T (interfacesMessage body xs) = .ok (xs.map InterfaceNode.value) ↔
      ReadsWords T := by
  by_cases hT : ReadsWords T
  · obtain ⟨-, -, -, -, hread⟩ := behind_interfaces hT (Naming.orig T) body xs ⟨0, []⟩
    obtain ⟨self, hok, -⟩ := decode_message hread hlen
    refine iff_of_true ?_ hT
    show decode (interfaces T) (run (interfacesRoot (Naming.orig T) body xs) ⟨0, []⟩).1.2 = _
    rw [decode, hok]
  · obtain ⟨msg, herr⟩ := decodeInterfaces_rejects hT body xs hlen
    refine iff_of_false (fun h => ?_) hT
    have hcontra := herr.symm.trans h
    cases hcontra

/-- Two interfaces, one without a name and one with an empty alias. -/
def twoInterfaces (T : Target) : List (InterfaceNode T) :=
  [⟨.zeroed T _, none, some ""⟩, ⟨.zeroed T _, some "eth0", none⟩]

/-- The message is short. -/
lemma length_twoInterfaces : (interfacesMessage (.zeroed _ _) (twoInterfaces .lp64le)).length ≤
    Target.lp64le.usizeMax := by
  decide +kernel

/-- The two interfaces on a target that reads words back. -/
theorem decodeInterfaces_twoInterfaces :
    decodeInterfaces .lp64le (interfacesMessage (.zeroed _ _) (twoInterfaces .lp64le)) =
      .ok [⟨"", some ""⟩, ⟨"eth0", none⟩] ↔ ReadsWords .lp64le :=
  decodeInterfaces_interfacesMessage (.zeroed _ _) (twoInterfaces .lp64le) (by decide +kernel)

/-- The two interfaces are not read back on the 32-bit big-endian target. -/
theorem decodeInterfaces_ilp32be :
    decodeInterfaces .ilp32be (interfacesMessage (.zeroed _ _) (twoInterfaces .ilp32be)) ≠
      .ok [⟨"", some ""⟩, ⟨"eth0", none⟩] := by
  obtain ⟨msg, herr⟩ := decodeInterfaces_rejects (T := .ilp32be) (by decide) (.zeroed _ _)
    (twoInterfaces .ilp32be) (by decide +kernel)
  rw [herr]
  nofun

/-! ## One interface -/

section
variable [DecidableEq κ] (nm : Naming T) (heap : κ → ChassisNode T) {k : RawType} [HardwareFields k]

/-- A port that is in no list. -/
lemma threads_alone (hT : ReadsWords T) (order : List κ) (p : PortNode T (Option κ))
    (st : Marshaller κ) :
    let r := run (fields p.body (p.links nm null (chassisRef? nm heap p.chassis))) st
    r.1.1.usize .tqeNext = 0 ∧ r.1.1.u8 .pIdSubtype = p.idSubtype ∧ r.1.1.u16 .pTtl = p.ttl ∧
    r.2.seen = p.chassis.toList.foldl visit st.seen ∧
    ∀ cache, Cached nm heap order st cache → r.2.seen <+: order →
      ∃ cache', Cached nm heap order r.2 cache' ∧
        Reading T st.count (decodePortFields T r.1.1 cache) r.1.2
          (⟨p.chassis.map (arcOf heap order), p.id, p.description⟩, cache') r.2.count := by
  have hw := written_fill (nodup_portLinks nm p null (chassisRef? nm heap p.chassis)) p.body st
  obtain ⟨hsub, httl, hseen, hread⟩ :=
    threads_port order hT p (threads_chassisRef? hT p.chassis) _ st hw.tail
  exact ⟨(hw.usize rfl).trans (Nat.zero_mod _), hsub, httl, hseen, hread⟩

/-- The neighbors behind the list head of the root structure. -/
lemma reading_neighbors {n n' v : Nat} {cache cache' : ChassisCache} {bs : List (List UInt8)}
    {neighbors : List Neighbor}
    (h : Reading T n (restOf (v != 0) (decodeNeighborChain T cache) cache) bs (neighbors, cache') n') :
    Reading T n (if v ≠ 0 then decodeNeighborChain T cache else pure ([], cache)) bs
      (neighbors, cache') n' := by
  by_cases hv : v = 0
  · subst hv
    exact h
  · rw [if_pos hv]
    rw [bne_iff_ne.mpr hv] at h
    exact h

/-- What is made of the parts of an interface. -/
def assemble (raw : Raw T k) (localFields : PortFields) (neighbors : List Neighbor)
    (ifalias : Option String) : InterfaceDetails where
  name := cText raw.hIfname.1
  «alias» := ifalias
  macAddress := raw.hLladdr
  localChassis := localFields.chassis
  neighbors := neighbors

/-- What is read after the local port. -/
def afterLport (raw : Raw T k) (p : PortFields × ChassisCache) : Decode InterfaceDetails :=
  (if raw.hRportsTqhFirst ≠ 0 then decodeNeighborChain T p.2 else pure ([], p.2)) >>= fun q =>
    readOptCstring T raw.hIfalias >>= fun ifalias => pure (assemble raw p.1 q.1 ifalias)

/-- A local port that is not chained. -/
lemma hardwareFields_eq {raw : Raw T k} (h : raw.hLport.usize .tqeNext = 0) :
    hardwareFields T raw =
      (consumeSubstructMarker T >>= fun _ => decodePortFields T raw.hLport []) >>=
        afterLport raw := by
  unfold hardwareFields
  simp only [untilNul_eq]
  rw [h, bind_assoc]
  rfl

/-- What follows the local port is read: the neighbors and then the alias. -/
lemma reading_afterLport {raw : Raw T k} {n m n' : Nat} {bs cs : List (List UInt8)}
    {cache cache' : ChassisCache} {localFields : PortFields} {neighbors : List Neighbor}
    {ifalias : Option String}
    (h : Reading T n (restOf (raw.hRportsTqhFirst != 0) (decodeNeighborChain T cache) cache) bs
      (neighbors, cache') m)
    (h' : Reading T m (readOptCstring T raw.hIfalias) cs ifalias n') :
    Reading T n (afterLport raw (localFields, cache)) (bs ++ cs)
      (assemble raw localFields neighbors ifalias) n' := by
  refine Consumes.bind (a := (neighbors, cache')) (reading_neighbors h) ?_
  exact reading_pure_map h' fun ifalias => assemble raw localFields neighbors ifalias

/-- The details of an interface are read from their message. -/
lemma reading_hardware (hT : ReadsWords T) (x : HardwareNode T κ k) :
    ∃ n', Reading T 0 (readChunkPod T k >>= hardwareFields T) [hardwareMessage nm heap x]
      (x.value heap) n' := by
  have hnodup : ((x.links nm heap).map Link.field).Nodup := HardwareFields.nodup
  have hw := written_fill hnodup x.body ⟨1, []⟩
  -- what the serializer does, one link after another
  let r₁ := run (fields x.lport.body (x.lport.links nm null (chassisRef? nm heap x.lport.chassis)))
    ⟨2, []⟩
  let r₂ := run (neighborList nm heap x.rports) r₁.2
  let r₃ := run (cstring nm x.ifalias) r₂.2
  obtain ⟨hnext, -, -, hseen₁, hread₁⟩ :=
    threads_alone nm heap hT x.order x.lport ⟨2, []⟩
  obtain ⟨hseen₂, hread₂⟩ := threads_neighborList nm heap x.order hT x.rports r₁.2
  obtain ⟨-, hread₃⟩ := reads_cstring hT nm x.ifalias r₂.2
  have horder : r₂.2.seen = x.order := by
    rw [hseen₂, hseen₁, ← List.foldl_append]
    rfl
  have hpre : r₂.2.seen <+: x.order := horder ▸ List.prefix_rfl
  have hpre₁ : r₁.2.seen <+: x.order := by
    rw [← horder, hseen₂]
    exact prefix_foldl_visit _ _
  obtain ⟨cache₁, hc₁, hr₁⟩ := hread₁ [] (.empty 2) hpre₁
  obtain ⟨cache₂, hc₂, hr₂⟩ := hread₂ cache₁ hc₁ hpre
  -- what the decoder finds in the root structure
  let raw := (run (fields x.body (x.links nm heap)) ⟨1, []⟩).1.1
  have hlport : raw.hLport = r₁.1.1 := Pod.ext hw.head
  have hrports : raw.hRportsTqhFirst = r₂.1.value % 256 ^ T.ptrSize :=
    hw.tail.usize (HardwareFields.hRportsTqhFirst_ty T)
  have hifalias : raw.hIfalias = r₃.1.value % 256 ^ T.ptrSize :=
    hw.tail.tail.usize (HardwareFields.hIfalias_ty T)
  have hifname : raw.hIfname = x.ifname := Subtype.ext hw.tail.tail.tail.head
  have hlladdr : raw.hLladdr = x.lladdr := Subtype.ext hw.tail.tail.tail.tail.head
  have hvalue : assemble raw ⟨x.lport.chassis.map (arcOf heap x.order), x.lport.id,
      x.lport.description⟩ (x.rports.map (PortNode.value heap x.order)) x.ifalias =
      x.value heap := by
    rw [assemble, hifname, hlladdr]
    rfl
  have hmarker : Reading T 1 (consumeSubstructMarker T >>= fun _ => decodePortFields T raw.hLport [])
      [chunk T 2 [] r₁.1.2] _ r₁.2.count :=
    reading_chunk (fun _ _ _ _ => takes_consumeSubstructMarker) (hlport ▸ hr₁)
  have hr₂' : Reading T r₁.2.count
      (restOf (raw.hRportsTqhFirst != 0) (decodeNeighborChain T cache₁) cache₁) _ _ _ :=
    hrports ▸ hr₂
  have hr₃ : Reading T r₂.2.count (readOptCstring T raw.hIfalias) _ _ _ := hifalias ▸ hread₃
  have hall := hmarker.bind (f := afterLport raw) (reading_afterLport hr₂' hr₃)
  have hzero : raw.hLport.usize .tqeNext = 0 := by
    rw [hlport]
    exact hnext
  rw [← hardwareFields_eq hzero, hvalue] at hall
  have hchunks : (run (fields x.body (x.links nm heap)) ⟨1, []⟩).1.2 =
      [chunk T 2 [] r₁.1.2] ++ (r₂.1.chunks ++ r₃.1.chunks) := by
    show [chunk T 2 [] r₁.1.2] ++ (r₂.1.chunks ++ (r₃.1.chunks ++ [])) = _
    rw [List.append_nil]
  have hroot := reading_struct hT x.body (x.links nm heap) ⟨0, []⟩
    (f := hardwareFields T) (hchunks ▸ hall)
  exact ⟨_, hroot⟩

/-- Decoding undoes encoding for `GET_INTERFACE`, in either layout. -/
theorem decodeHardwareAs_hardwareMessage (hT : ReadsWords T) (x : HardwareNode T κ k)
    (hlen : (hardwareMessage nm heap x).length ≤ T.isizeMax) :
    decodeHardwareAs T k (hardwareMessage nm heap x) = .ok (x.value heap) := by
  obtain ⟨n', hread⟩ := reading_hardware nm heap hT x
  obtain ⟨self, hok, hbuf, hpos⟩ := decode_message hread hlen
  have hend : self.pos = self.buf.length := by rw [hpos, hbuf]
  have hrequire : requireExhausted (x.value heap) self = .ok (x.value heap) self := by
    rw [requireExhausted_eq, if_pos hend]
  have hhardware : hardware T k = (readChunkPod T k >>= hardwareFields T) >>= requireExhausted :=
    (bind_assoc _ _ _).symm
  rw [decodeHardwareAs, decode, hhardware, bind_ok hok, hrequire]

end

/-- Decoding undoes encoding for `GET_INTERFACE` in the layout of the tagged releases. -/
theorem decodeHardware_hardwareMessage [DecidableEq κ] (heap : κ → ChassisNode .lp64le)
    (x : HardwareNode .lp64le κ .hardware)
    (hlen : (hardwareMessage (Naming.orig .lp64le) heap x).length ≤ Target.lp64le.isizeMax) :
    decodeHardware .lp64le (hardwareMessage (Naming.orig .lp64le) heap x) = .ok (x.value heap) := by
  have hT : ReadsWords .lp64le := Or.inl rfl
  exact decodeHardware_of_legacy (decodeHardwareAs_hardwareMessage _ heap hT x hlen)

/-- A chassis with a management address. -/
def sampleChassis (T : Target) (name : String) : ChassisNode T where
  body := .zeroed T _
  idSubtype := 4
  id := some [0, 1, 2, 3, 4, 5]
  name := some name
  description := none
  capAvailable := 20
  capEnabled := 4
  mgmt := [⟨.zeroed T _, 1, [192, 0, 2, 1], by decide, 2⟩]
  med := ⟨none, none, some "1.0", none, none, none, none⟩

/-- A port with a location, a VLAN, a PPVID and a protocol identity. -/
def samplePort {χ : Type} (T : Target) (chassis : χ) : PortNode T χ where
  body := .zeroed T _
  chassis := chassis
  idSubtype := 5
  id := some [101, 116, 104, 48]
  description := some "uplink"
  vlanAdvertisePattern := none
  ttl := 120
  medLocation i := ⟨.zeroed T _, if i = 0 then some [1, 2, 3] else none⟩
  vlans := [⟨.zeroed T _, some "lab"⟩]
  ppvids := [.zeroed T _]
  pids := [⟨.zeroed T _, some [136]⟩]

/-- Two neighbors on one chassis. -/
def sampleHardware (T : Target) : HardwareNode T Bool .hardware where
  body := .zeroed T _
  ifname := ⟨[101, 116, 104, 48, 0, 0, 0, 0, 0, 0, 0, 0, 0, 0, 0, 0], rfl⟩
  lladdr := ⟨[2, 0, 0, 0, 0, 1], rfl⟩
  ifalias := some ""
  lport := samplePort T (some false)
  rports := [samplePort T true, samplePort T true]

/-- The chassis of the host, and that of its neighbors. -/
def sampleHeap (T : Target) (key : Bool) : ChassisNode T :=
  sampleChassis T (if key then "sw1" else "host")

/-- The message is not larger than a message may be. -/
lemma length_sampleHardware_le :
    (hardwareMessage (Naming.orig .lp64le) (sampleHeap .lp64le) (sampleHardware .lp64le)).length ≤
      hmsgMaxSize := by
  decide +kernel

/-- So it fits a slice. -/
lemma length_sampleHardware :
    (hardwareMessage (Naming.orig .lp64le) (sampleHeap .lp64le) (sampleHardware .lp64le)).length ≤
      Target.lp64le.isizeMax :=
  length_sampleHardware_le.trans (by decide)

/-- The sample is read back. -/
theorem decodeHardware_sampleHardware :
    decodeHardware .lp64le
      (hardwareMessage (Naming.orig .lp64le) (sampleHeap .lp64le) (sampleHardware .lp64le)) =
      .ok ((sampleHardware .lp64le).value (sampleHeap .lp64le)) :=
  decodeHardware_hardwareMessage (sampleHeap .lp64le) (sampleHardware .lp64le)
    length_sampleHardware

/-! ## Notifications -/

section
variable [DecidableEq κ] (nm : Naming T) (heap : κ → ChassisNode T)

/-- A notified port that is in no list is read like a neighbor. -/
lemma reading_finishNotified {raw : Raw T .port} {n n' : Nat} {bs : List (List UInt8)}
    {neighbor : Neighbor} {cache : ChassisCache} (hnext : raw.usize .tqeNext = 0)
    (h : Reading T n (buildNeighbor T raw []) bs (neighbor, cache) n') :
    Reading T n (finishNotified T raw) bs neighbor n' := by
  unfold finishNotified
  rw [hnext]
  exact reading_pure_map h Prod.fst

/-- A notified port without a chassis is refused when its chunks have been read. -/
lemma refusing_finishNotified {raw : Raw T .port} {n n' : Nat} {bs : List (List UInt8)}
    {id : Option (List UInt8)} {description : Option String} {cache : ChassisCache}
    (hnext : raw.usize .tqeNext = 0)
    (h : Reading T n (decodePortFields T raw []) bs (⟨none, id, description⟩, cache) n') :
    Refusing T n (finishNotified T raw) bs := by
  have hb : Refusing T n (buildNeighbor T raw []) (bs ++ []) :=
    .after h (.throw ⟨"neighbor port has no associated chassis", rfl⟩)
  rw [List.append_nil] at hb
  unfold finishNotified
  rw [hnext]
  exact hb.bind _

/-- The notified port, when it is as it must be. -/
lemma reading_notifiedPort (hT : ReadsWords T) (p : PortNode T (Option κ)) (next : PortNext T κ)
    {neighbor : Neighbor} (h : notifiedValue heap (p, next) = some neighbor) {st : Marshaller κ}
    (hrefs : st.refs = []) :
    ∃ n', Reading T st.count (readChunkPod T .port >>= finishNotified T)
      [(run (notifiedPort nm heap p next) st).1.2] neighbor n' := by
  obtain rfl : next = .null := by
    cases next with
    | null => rfl
    | ports => cases h
    | dangling => cases h
  obtain ⟨key, hkey, rfl⟩ := Option.map_eq_some_iff.mp h
  obtain ⟨count, refs⟩ := st
  change refs = [] at hrefs
  subst hrefs
  obtain ⟨hnext, hsub, httl, hseen, hread⟩ :=
    threads_alone nm heap hT [key] p ⟨count + 1, []⟩
  have hpre : (p.chassis.toList).foldl visit [] <+: [key] := by
    rw [hkey]
    show visit [] key <+: [key]
    rw [visit, if_neg List.not_mem_nil]
    exact List.prefix_rfl
  have harc : p.chassis.map (arcOf heap [key]) = some ⟨0, (heap key).value⟩ := by
    rw [hkey, Option.map_some, arcOf, List.idxOf_cons_self]
  obtain ⟨cache, -, hr⟩ := hread [] (.empty _) (by rw [hseen]; exact hpre)
  rw [harc] at hr
  have hn := reading_finishNotified hnext (reading_buildNeighbor hr)
  rw [hsub, httl] at hn
  exact ⟨_, reading_struct hT p.body _ ⟨count, []⟩ hn⟩

/-- A port that is chained is refused as soon as its structure has been read. -/
lemma refusing_chained (hT : ReadsWords T) (p : PortNode T (Option κ)) {next : Marshal κ Ref}
    {st : Marshaller κ}
    (h : ∀ self : Cursor, Holds T.isizeMax self (nested T.ptrSize self.pos
        (run next ⟨st.count + 1, st.refs⟩).1.chunks) → st.count + 1 ≤ self.pos →
      (run next ⟨st.count + 1, st.refs⟩).1.value % 256 ^ T.ptrSize ≠ 0) :
    Refusing T st.count (readChunkPod T .port >>= finishNotified T)
      [(run (struct p.body (p.links nm next (chassisRef? nm heap p.chassis))) st).1.2] := by
  have hw := written_fill (nodup_portLinks nm p next (chassisRef? nm heap p.chassis)) p.body
    ⟨st.count + 1, st.refs⟩
  refine refusing_struct hT p.body _ st fun s hs hn => ?_
  have hs' : Holds T.isizeMax s (nested T.ptrSize s.pos
      ((run next ⟨st.count + 1, st.refs⟩).1.chunks ++ _)) := hs
  rw [nested_append] at hs'
  have hne := h s hs'.left hn
  rw [← hw.usize rfl] at hne
  have herr : finishNotified T _ = throw _ := if_pos hne
  rw [herr]
  exact ⟨_, s, rfl, _, rfl⟩

/-- The notified port, when it is not. -/
lemma refusing_notifiedPort (hT : ReadsWords T) (p : PortNode T (Option κ)) (next : PortNext T κ)
    (h : notifiedValue heap (p, next) = none) {st : Marshaller κ} (hrefs : st.refs = []) :
    Refusing T st.count (readChunkPod T .port >>= finishNotified T)
      [(run (notifiedPort nm heap p next) st).1.2] := by
  cases next with
  | ports q rest =>
    refine refusing_chained nm heap hT p fun s hs hn => ?_
    exact (nm.ne_zero_of_holds (chunk_ne_nil _ _ _) hs hn).2
  | dangling value hne =>
    exact refusing_chained nm heap hT p fun _ _ _ => hne
  | null =>
    have hkey : p.chassis = none := Option.map_eq_none_iff.mp h
    obtain ⟨count, refs⟩ := st
    change refs = [] at hrefs
    subst hrefs
    obtain ⟨hnext, -, -, hseen, hread⟩ :=
      threads_alone nm heap hT [] p ⟨count + 1, []⟩
    have hpre : (p.chassis.toList).foldl visit [] <+: [] := by
      rw [hkey]
      exact List.prefix_rfl
    have harc : p.chassis.map (arcOf heap []) = none := by
      rw [hkey, Option.map_none]
    obtain ⟨cache, -, hr⟩ := hread [] (.empty _) (by rw [hseen]; exact hpre)
    rw [harc] at hr
    exact refusing_struct hT p.body _ ⟨count, []⟩ (refusing_finishNotified hnext hr)

/-- A notification with a port reads the port. -/
lemma notifiedNeighbor_of_ne_zero {v : Nat} (hv : v ≠ 0) :
    notifiedNeighbor T v =
      (readChunkPod T .port >>= finishNotified T) >>= fun neighbor => pure (some neighbor) := by
  rw [notifiedNeighbor, if_neg hv, bind_assoc]

/-- The port of a notification is read when it has a value. -/
lemma reading_neighborRef (hT : ReadsWords T) {port : Option (PortNode T (Option κ) × PortNext T κ)}
    {neighbor : Option Neighbor} (h : neighborValue heap port = some neighbor) {st : Marshaller κ}
    (hrefs : st.refs = []) :
    ∃ n', Reading T st.count
      (notifiedNeighbor T ((run (neighborRef nm heap port) st).1.value % 256 ^ T.ptrSize))
      (run (neighborRef nm heap port) st).1.chunks neighbor n' := by
  cases port with
  | none =>
    cases h
    refine ⟨st.count, ?_⟩
    show Reading T st.count (notifiedNeighbor T (0 % _)) [] none st.count
    rw [Nat.zero_mod]
    exact .pure none
  | some port =>
    obtain ⟨value, hvalue, rfl⟩ := Option.map_eq_some_iff.mp h
    obtain ⟨n', hread⟩ := reading_notifiedPort nm heap hT port.1 port.2 hvalue hrefs
    exact ⟨n', reading_present nm (chunk_ne_nil _ _ _) (fun v hv => notifiedNeighbor_of_ne_zero hv)
      (reading_pure_map hread some)⟩

/-- The port of a notification is refused when it has none. -/
lemma refusing_neighborRef (hT : ReadsWords T) {port : Option (PortNode T (Option κ) × PortNext T κ)}
    (h : neighborValue heap port = none) {st : Marshaller κ} (hrefs : st.refs = []) :
    Refusing T st.count
      (notifiedNeighbor T ((run (neighborRef nm heap port) st).1.value % 256 ^ T.ptrSize))
      (run (neighborRef nm heap port) st).1.chunks := by
  cases port with
  | none => cases h
  | some port =>
    have hvalue : notifiedValue heap port = none := Option.map_eq_none_iff.mp h
    have href := refusing_notifiedPort nm heap hT port.1 port.2 hvalue hrefs
    exact refusing_present nm (chunk_ne_nil _ _ _) (fun v hv => notifiedNeighbor_of_ne_zero hv)
      (href.bind _)

section
variable {raw : Raw T .neighborChange} {n m l n' : Nat} {bs cs ds : List (List UInt8)}
  {name ifalias : Option String} {neighbor : Option Neighbor}
  (hname : Reading T n (readOptCstring T (raw.usize .ifname)) bs name m)
  (halias : Reading T m (readOptCstring T (raw.usize .ifalias)) cs ifalias l)
include hname halias

/-- The texts and the port of a change are read behind it. -/
lemma reading_neighborChangeFields
    (h : Reading T l (notifiedNeighbor T (raw.usize .neighbor)) ds neighbor n') :
    Reading T n (neighborChangeFields T raw) (bs ++ (cs ++ ds))
      ⟨name.getD "", ifalias, .from (raw.i32 .state), neighbor⟩ n' := by
  refine Consumes.bind hname (Consumes.bind halias ?_)
  exact reading_pure_map h fun neighbor =>
    (⟨name.getD "", ifalias, .from (raw.i32 .state), neighbor⟩ : NeighborChange)

/-- A change is refused when its port is. -/
lemma refusing_neighborChangeFields
    (h : Refusing T l (notifiedNeighbor T (raw.usize .neighbor)) ds) :
    Refusing T n (neighborChangeFields T raw) (bs ++ (cs ++ ds)) :=
  .after hname (.after halias (h.bind _))

end

/-- A notification on a target that reads words back: its value is returned, or the payload is
refused when it has none. -/
lemma decode_neighborChange (hT : ReadsWords T) (x : NeighborChangeNode T κ)
    (hlen : (neighborChangeMessage nm heap x).length ≤ T.isizeMax) :
    (∀ v, x.value heap = some v →
      decodeNeighborChange T (neighborChangeMessage nm heap x) = .ok v) ∧
    (x.value heap = none →
      ∃ msg, decodeNeighborChange T (neighborChangeMessage nm heap x) = .error (protocol msg)) := by
  have hnodup : ((x.links nm heap).map Link.field).Nodup :=
    (by decide : [NeighborChangeField.state, .ifname, .ifalias, .neighbor].Nodup)
  have hw := written_fill hnodup x.body ⟨1, []⟩
  let raw := (run (fields x.body (x.links nm heap)) ⟨1, []⟩).1.1
  let r₁ := run (cstring nm x.ifname) (⟨1, []⟩ : Marshaller κ)
  let r₂ := run (cstring nm x.ifalias) r₁.2
  let r₃ := run (neighborRef nm heap x.neighbor) r₂.2
  obtain ⟨hrefs₁, hread₁⟩ := reads_cstring (κ := κ) hT nm x.ifname ⟨1, []⟩
  obtain ⟨hrefs₂, hread₂⟩ := reads_cstring (κ := κ) hT nm x.ifalias r₁.2
  have hrefs : r₂.2.refs = [] := hrefs₂.trans hrefs₁
  have hstate : raw.i32 .state = x.state := by
    have hg : raw.get .state = T.endian.bytes 4 x.state.toUInt32.toNat := hw.head
    exact i32_eq (by rw [hg, Endian.nat_bytes])
  have hname : raw.usize .ifname = r₁.1.value % 256 ^ T.ptrSize := hw.tail.usize rfl
  have halias : raw.usize .ifalias = r₂.1.value % 256 ^ T.ptrSize := hw.tail.tail.usize rfl
  have hneighbor : raw.usize .neighbor = r₃.1.value % 256 ^ T.ptrSize := hw.tail.tail.tail.usize rfl
  rw [← hname] at hread₁
  rw [← halias] at hread₂
  have hchunks : (run (fields x.body (x.links nm heap)) ⟨1, []⟩).1.2 =
      r₁.1.chunks ++ (r₂.1.chunks ++ r₃.1.chunks) := by
    show r₁.1.chunks ++ (r₂.1.chunks ++ (r₃.1.chunks ++ [])) = _
    rw [List.append_nil]
  refine ⟨fun v hv => ?_, fun hv => ?_⟩
  · obtain ⟨neighbor, hneighbor', rfl⟩ := Option.map_eq_some_iff.mp hv
    obtain ⟨n', hread₃⟩ := reading_neighborRef nm heap hT hneighbor' hrefs
    rw [← hneighbor] at hread₃
    have hall := reading_neighborChangeFields hread₁ hread₂ hread₃
    rw [← hchunks, hstate] at hall
    obtain ⟨self, hok, -⟩ := decode_message (reading_struct hT x.body _ ⟨0, []⟩ hall) hlen
    show decode (readChunkPod T .neighborChange >>= neighborChangeFields T)
      (run (struct x.body (x.links nm heap)) ⟨0, []⟩).1.2 = _
    rw [decode, hok]
  · have href₃ := refusing_neighborRef nm heap hT (Option.map_eq_none_iff.mp hv) hrefs
    rw [← hneighbor] at href₃
    have hall := refusing_neighborChangeFields hread₁ hread₂ href₃
    rw [← hchunks] at hall
    exact decode_refuses (refusing_struct hT x.body _ ⟨0, []⟩ hall) hlen

/-- Where words are not read back the notification is refused. -/
lemma decodeNeighborChange_rejects (hT : ¬ ReadsWords T) (x : NeighborChangeNode T κ)
    (hlen : (neighborChangeMessage nm heap x).length ≤ T.isizeMax) :
    ∃ msg, decodeNeighborChange T (neighborChangeMessage nm heap x) = .error (protocol msg) :=
  decode_message_rejects hT x.body (x.links nm heap) hlen (neighborChangeFields T)

/-- Decoding undoes encoding for `NOTIFICATION`, exactly on the targets that read words back. A port
that is chained or has no chassis is refused on all of them. -/
theorem decodeNeighborChange_neighborChangeMessage (heap : κ → ChassisNode T)
    (x : NeighborChangeNode T κ)
    (hlen : (neighborChangeMessage (Naming.orig T) heap x).length ≤ T.isizeMax) :
    (∀ v, x.value heap = some v →
      (decodeNeighborChange T (neighborChangeMessage (Naming.orig T) heap x) = .ok v ↔
        ReadsWords T)) ∧
    (x.value heap = none →
      ∃ e, decodeNeighborChange T (neighborChangeMessage (Naming.orig T) heap x) =
        .error (.error e)) := by
  by_cases hT : ReadsWords T
  · obtain ⟨hsome, hnone⟩ := decode_neighborChange (Naming.orig T) heap hT x hlen
    refine ⟨fun v hv => iff_of_true (hsome v hv) hT, fun hv => ?_⟩
    obtain ⟨msg, herr⟩ := hnone hv
    exact ⟨.protocol msg, herr⟩
  · obtain ⟨msg, herr⟩ := decodeNeighborChange_rejects (Naming.orig T) heap hT x hlen
    refine ⟨fun v _ => iff_of_false (fun h => ?_) hT, fun _ => ⟨.protocol msg, herr⟩⟩
    have hcontra := herr.symm.trans h
    cases hcontra

end

/-- A neighbor that has been added. -/
def sampleChange (T : Target) (next : PortNext T Bool) : NeighborChangeNode T Bool where
  body := .zeroed T _
  ifname := some "eth0"
  ifalias := none
  state := 1
  neighbor := some (samplePort T (some true), next)

/-- The sample notification on a target that reads words back. -/
theorem decodeNeighborChange_sampleChange :
    (∀ v, (sampleChange .lp64le .null).value (sampleHeap .lp64le) = some v →
      (decodeNeighborChange .lp64le (neighborChangeMessage (Naming.orig .lp64le)
        (sampleHeap .lp64le) (sampleChange .lp64le .null)) = .ok v ↔ ReadsWords .lp64le)) ∧
    ((sampleChange .lp64le .null).value (sampleHeap .lp64le) = none →
      ∃ e, decodeNeighborChange .lp64le (neighborChangeMessage (Naming.orig .lp64le)
        (sampleHeap .lp64le) (sampleChange .lp64le .null)) = .error (.error e)) :=
  decodeNeighborChange_neighborChangeMessage (sampleHeap .lp64le) (sampleChange .lp64le .null)
    (by decide +kernel)

/-- The sample notification is not read back on the 32-bit big-endian target. -/
theorem decodeNeighborChange_ilp32be :
    ∃ v, (sampleChange .ilp32be .null).value (sampleHeap .ilp32be) = some v ∧
      decodeNeighborChange .ilp32be (neighborChangeMessage (Naming.orig .ilp32be)
        (sampleHeap .ilp32be) (sampleChange .ilp32be .null)) ≠ .ok v := by
  obtain ⟨msg, herr⟩ := decodeNeighborChange_rejects (Naming.orig .ilp32be)
    (sampleHeap .ilp32be) (by decide) (sampleChange .ilp32be .null) (by decide +kernel)
  refine ⟨_, rfl, ?_⟩
  rw [herr]
  nofun

end Rlldpctl.Wire
