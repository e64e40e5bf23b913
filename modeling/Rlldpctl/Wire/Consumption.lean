import Mathlib.Algebra.Order.BigOperators.Group.List
import Rlldpctl.Lib.Accounts
import Rlldpctl.Wire.Ports

/-!
# What a payload has room for

How deep the chains of a payload can be, and how much a result can hold. A chain takes at least a header
and a structure for each element. A run that succeeds has spent every byte up to its position on the
padding, the header and the content of one of its calls, and the parts of the result were read by
different calls.
-/

namespace Rlldpctl.Wire
open ByteReader CLayout NativeBytes Utf8

variable {T : Target}

/-! ## Depth -/

/-- What one element of a chain takes at least. -/
def elementSize (T : Target) (k : RawType) : Nat := 2 * T.ptrSize + sizeOf T k

/-- A structure moves the cursor by its header and its size at least, inside the payload. -/
lemma readChunkPod_advance {k : RawType} {self self' : Cursor} {raw : Raw T k}
    (hin : self.pos ≤ self.buf.length) (hlen : self.buf.length ≤ T.isizeMax)
    (h : readChunkPod T k self = .ok raw self') :
    self'.buf = self.buf ∧ self.pos + elementSize T k ≤ self'.pos ∧ self'.pos ≤ self'.buf.length := by
  have hfits := podFits_of_ok hin hlen h
  have hstart : self.pos ≤ self.start T := le_roundUp self.pos T.ptrSize
  rw [readChunkPod_ok hlen hfits] at h
  cases h
  refine ⟨rfl, ?_, hfits.1⟩
  show self.pos + (2 * T.ptrSize + sizeOf T k) ≤ self.start T + 2 * T.ptrSize + sizeOf T k
  omega

/-- A chain ends: with at least as many nested calls as it is deep it gives its result and with fewer it
does not, every element takes its header and its structure, and so the bytes bound the depth. -/
structure Bounded (T : Target) (k : RawType) (next : k.Field) {α τ : Type}
    (finish : Raw T k → τ → Decode (α × τ)) (t : τ) (self : Cursor) : Prop where
  enough : ∀ n, chainTo (readChunkPod T k) (fun raw => raw.usize next != 0) finish n t self =
    if depth (readChunkPod T k) (fun raw => raw.usize next != 0) (advances_readChunkPod k) self ≤ n
      then some (chain (readChunkPod T k) (fun raw => raw.usize next != 0) finish
        (advances_readChunkPod k) t self)
      else none
  takes : ∀ raw self', readChunkPod T k self = .ok raw self' →
    self.pos + elementSize T k ≤ self'.pos
  depth_le : depth (readChunkPod T k) (fun raw => raw.usize next != 0) (advances_readChunkPod k) self *
    elementSize T k ≤ self.buf.length + elementSize T k

/-- The recursion of every list is bounded by the bytes that are left. -/
lemma bounded {k : RawType} {next : k.Field} {α τ : Type} {finish : Raw T k → τ → Decode (α × τ)}
    {t : τ} {self : Cursor} (hin : self.pos ≤ self.buf.length) (hlen : self.buf.length ≤ T.isizeMax) :
    Bounded T k next finish t self where
  enough n := chainTo_eq n t self
  takes raw self' h := (readChunkPod_advance hin hlen h).2.1
  depth_le := by
    refine (Nat.le_add_left _ self.pos).trans (depth_mul_le ?_ self hin hlen)
    exact fun s raw s₁ hs hb hx => readChunkPod_advance hs hb hx

/-- The decoder of a list of structures of the kind `k` is a chain that ends on every payload. -/
def Ends (T : Target) (k : RawType) {β : Type} (d : Decode β) : Prop :=
  ∃ (next : k.Field) (α τ : Type) (finish : Raw T k → τ → Decode (α × τ)) (t : τ)
    (out : List α × τ → β),
    (d = do
      let r ← chain (readChunkPod T k) (fun raw => raw.usize next != 0) finish
        (advances_readChunkPod k) t
      pure (out r)) ∧
    ∀ self : Cursor, self.pos ≤ self.buf.length → self.buf.length ≤ T.isizeMax →
      Bounded T k next finish t self

/-- The recursion of a list without a cache ends. -/
lemma ends_elements {k : RawType} {α : Type} (next : k.Field) (finish : Raw T k → Decode α) :
    Ends T k (elements T next finish) := by
  refine ⟨next, α, Unit, fun raw _ => (do let a ← finish raw; pure (a, ())), (), Prod.fst, rfl, ?_⟩
  exact fun _ hin hlen => bounded hin hlen

/-- What was read is dropped. -/
lemma Ends.drop {k : RawType} {β : Type} {d : Decode β} (h : Ends T k d) :
    Ends T k (d >>= fun _ => pure ()) := by
  obtain ⟨next, α, τ, finish, t, out, rfl, hbounded⟩ := h
  exact ⟨next, α, τ, finish, t, fun _ => (), bind_assoc (m := Decode) _ _ _, hbounded⟩

/-- The recursion of the neighbors ends. -/
lemma ends_decodeNeighborChain (cache : ChassisCache) :
    Ends T .port (decodeNeighborChain T cache) := by
  refine ⟨.tqeNext, Neighbor, ChassisCache, buildNeighbor T, cache, id, (bind_pure _).symm, ?_⟩
  exact fun _ hin hlen => bounded hin hlen

/-! ## What the calls take -/

/-- How many bytes a call takes: the padding in front of its chunk, the header, and what it reads. -/
def Call.spent (T : Target) (buf : List UInt8) (c : Call) : Nat :=
  (alignUp c.pos T.ptrSize - c.pos) + 2 * T.ptrSize + c.size T buf

/-- The calls take all bytes up to the position where a run succeeds. -/
def spends (T : Target) : Effect Fault Call where
  ok buf pos cs stop := pos + (cs.map (Call.spent T buf)).sum = stop
  err _ _ _ _ := True
  nil _ _ := rfl
  append h h' := by
    rw [List.map_append, List.sum_append, ← add_assoc, h, h']
  fail _ _ := trivial

/-- A call that reads `n` bytes behind its header takes those up to the end of them. -/
lemma spends_single {self : Cursor} {kind : ChunkKind} {n : Nat}
    (hn : (⟨kind, self.pos⟩ : Call).size T self.buf = n) :
    (spends T).ok self.buf self.pos [⟨kind, self.pos⟩] (self.start T + 2 * T.ptrSize + n) := by
  have hstart : self.pos ≤ self.start T := le_roundUp self.pos T.ptrSize
  show self.pos + (self.start T - self.pos + 2 * T.ptrSize + _ + 0) = _
  rw [hn]
  omega

/-- Spending what was consumed is an effect that the calls have. -/
lemma allows_spends (T : Target) : Allows T anyKind (spends T) where
  leaf self _ hfits := by
    have hsize : self.start T + self.declared T =
        self.start T + 2 * T.ptrSize + (self.declared T - 2 * T.ptrSize) := by
      rw [add_assoc, Nat.add_sub_cancel' hfits.2.1]
    rw [hsize]
    exact spends_single rfl
  marker self _ _ := spends_single (n := 0) rfl
  pod _ _ self _ _ := spends_single rfl
  reject _ _ _ _ _ := trivial
  throw _ _ _ := trivial

/-! ## What a result is made of -/

/-- A part of a result that has a length. -/
inductive Piece where
  | text (s : String)
  | bytes (octets : List UInt8)
  | element
  | address (address : ManagementAddress)
  | root (name : String) (macAddress : Bytes 6)

section
variable (T : Target) (buf : List UInt8)

/-- The part of the result that a call holds, and how long it is: a text before its replacement of
invalid sequences, an element of a list as one. -/
inductive Holds : Piece → Call → Nat → Prop where
  | text {c} :
    c.kind = .leaf →
    Holds (.text (fromUtf8Lossy (stripNul (c.bytes T buf)))) c (stripNul (c.bytes T buf)).length
  | bytes {c} :
    c.kind = .leaf →
    Holds (.bytes (c.bytes T buf)) c (c.bytes T buf).length
  | element {c k} :
    c.kind = .pod k →
    Holds .element c 1
  | address {c raw address} :
    c.kind = .pod .mgmt →
    raw.bytes = c.bytes T buf →
    finishMgmt T raw = pure address →
    Holds (.address address) c (1 + address.octets.length)
  | root {c k} [HardwareFields k] {raw : Raw T k} :
    c.kind = .pod k →
    raw.bytes = c.bytes T buf →
    Holds (.root (cText raw.hIfname.1) raw.hLladdr) c ((raw.hIfname.1.takeWhile (· ≠ 0)).length + 6)

/-- Nothing has to be read for an empty text or byte string. -/
def ledger : Ledger Call Piece where
  holds buf := Holds T buf
  empty part := part = .text "" ∨ part = .bytes []

end

/-- A text is no longer than its chunk. -/
lemma length_stripNul_le (body : List UInt8) : (stripNul body).length ≤ body.length := by
  unfold stripNul
  split
  case isTrue => exact List.length_dropLast.trans_le (Nat.sub_le _ _)
  case isFalse => exact le_rfl

/-- A call reads no more bytes than its size. -/
lemma Call.length_bytes_le (c : Call) (buf : List UInt8) :
    (c.bytes T buf).length ≤ c.size T buf :=
  List.length_take_le _ _

/-- The size of a structure is that of its kind. -/
lemma Call.size_pod {c : Call} {k : RawType} (h : c.kind = .pod k) (buf : List UInt8) :
    c.size T buf = sizeOf T k := by
  unfold Call.size
  rw [h]

/-- The name and the address are two fields of the root structure. -/
lemma HardwareFields.le_sizeOf (T : Target) (k : RawType) [HardwareFields k] :
    16 + 6 ≤ sizeOf T k := by
  have hne : (HardwareFields.hIfname : k.Field) ≠ HardwareFields.hLladdr := by
    have h := HardwareFields.nodup (k := k)
    simp only [List.nodup_cons, List.mem_cons, not_or] at h
    exact h.2.2.2.1.1
  have hname : ((layout T k).ty HardwareFields.hIfname).size = 16 := by
    rw [HardwareFields.hIfname_ty]
    rfl
  have hmac : ((layout T k).ty HardwareFields.hLladdr).size = 6 := by
    rw [HardwareFields.hLladdr_ty]
    rfl
  have hend := (layout T k).offset_add_size_le HardwareFields.hIfname
  have hend' := (layout T k).offset_add_size_le HardwareFields.hLladdr
  show 16 + 6 ≤ (layout T k).size
  obtain h | h := (layout T k).disjoint hne
  · omega
  · omega

/-- The structure of a management address has room for an element and the longest address. -/
lemma sizeOf_mgmt (T : Target) : 1 + 16 ≤ sizeOf T .mgmt := by
  obtain ⟨e, rfl | rfl | rfl⟩ := T.cases
  · cases e <;> decide +kernel
  · cases e <;> decide +kernel
  · cases e <;> decide +kernel

/-- A call holds no more than it reads. -/
lemma Holds.le_size {buf : List UInt8} {part : Piece} {c : Call} {n : Nat}
    (h : Holds T buf part c n) : n ≤ c.size T buf := by
  cases h with
  | text _ => exact (length_stripNul_le _).trans (c.length_bytes_le buf)
  | bytes _ => exact c.length_bytes_le buf
  | element hkind =>
    rw [c.size_pod hkind]
    exact (sizeOf_bound T _).1
  | @address _ raw address hkind _ haddress =>
    obtain ⟨address', hfinish, -, hle⟩ := finishMgmt_octets raw
    rw [haddress] at hfinish
    cases congrFun hfinish (Cursor.new [])
    rw [c.size_pod hkind]
    exact (Nat.add_le_add_left hle 1).trans (sizeOf_mgmt T)
  | @root _ k _ raw hkind _ =>
    rw [c.size_pod hkind]
    have hlen : (raw.hIfname.1.takeWhile (· ≠ 0)).length ≤ 16 :=
      (List.takeWhile_sublist _).length_le.trans raw.hIfname.2.le
    exact (Nat.add_le_add_right hlen 6).trans (HardwareFields.le_sizeOf T k)

/-! ### The parts of each value -/

/-- A text, absent or not. -/
def textOf (s : Option String) : Multiset Piece := {.text (s.getD "")}

/-- A byte string, absent or not. -/
def bytesOf (octets : Option (List UInt8)) : Multiset Piece := {.bytes (octets.getD [])}

/-- An interface in a list. -/
def interfacePieces (i : Interface) : Multiset Piece :=
  {.element} + ({.text i.name} + textOf i.alias)

/-- What a chassis is made of. -/
def chassisPieces (c : Chassis) : Multiset Piece :=
  {.bytes c.id} + textOf c.name + textOf c.description +
    (c.managementAddresses.map fun address => {Piece.address address}).sum +
    textOf c.med.hardwareRevision + textOf c.med.firmwareRevision + textOf c.med.softwareRevision +
    textOf c.med.serialNumber + textOf c.med.manufacturer + textOf c.med.model + textOf c.med.assetId

/-- A neighbor without its chassis. -/
def portPieces (n : Neighbor) : Multiset Piece :=
  {.bytes n.portId} + textOf n.portDescription

/-- A neighbor in a list. -/
def neighborPieces (n : Neighbor) : Multiset Piece := {.element} + portPieces n

/-- The chassis in a cache. -/
def cachePieces (cache : ChassisCache) : Multiset Piece :=
  (cache.map fun entry => chassisPieces entry.2.val).sum

/-- An empty cache holds nothing. -/
lemma cachePieces_nil : cachePieces [] = 0 := rfl

/-- The chassis of an interface, each of them once. -/
def arcs (details : InterfaceDetails) : List (Arc Chassis) :=
  (details.localChassis.toList ++ details.neighbors.map Neighbor.chassis).dedup

/-- What the details of an interface are made of, each chassis once. -/
def detailsPieces (details : InterfaceDetails) : Multiset Piece :=
  {.root details.name details.macAddress} + (details.neighbors.map neighborPieces).sum +
    ((arcs details).map fun chassis => chassisPieces chassis.val).sum + textOf details.alias

/-- What a notification is made of. -/
def changePieces (change : NeighborChange) : Multiset Piece :=
  {.text change.interface} + textOf change.interfaceAlias +
    change.neighbor.elim 0 fun n => portPieces n + chassisPieces n.chassis.val

/-! ### The decoders -/

/-- What a decoder does that goes from the parts `acc` to `parts`. -/
abbrev YieldsParts (T : Target) {α : Type} (acc : Multiset Piece) (d : Decode α)
    (parts : α → Multiset Piece) : Prop :=
  Yields (ledger T) T.isizeMax acc d parts

/-- A call that holds one part more. -/
lemma Accrued.one {s₀ s s' : Cursor} {acc : Multiset Piece} {part : Piece} {c : Call} {n : Nat}
    (h : Accrued (ledger T) T.isizeMax s₀ s acc) (hreach : Reached s s' [c])
    (hholds : Holds T s.buf part c n) : Accrued (ledger T) T.isizeMax s₀ s' (acc + {part}) :=
  h.step hreach fun _ _ hds => ⟨_, hds.one hholds⟩

section
variable {acc : Multiset Piece}

/-- What is read and dropped yields nothing. -/
lemma yields_skip {α : Type} {d : Decode α} (hd : Does (readsOnly anyKind) T.isizeMax d) :
    YieldsParts T acc d fun _ => acc :=
  .skip hd

/-- Reading any kind of structure is kept by all rules. -/
lemma rules_readsAny (T : Target) : Rules T anyKind (Does (readsOnly anyKind) T.isizeMax) :=
  (allows_readsOnly T anyKind).rules

/-- An absent text or byte string. -/
lemma yields_absent {α : Type} {a : α} {parts : α → Multiset Piece} {part : Piece}
    (hparts : parts a = acc + {part}) (hpart : part = .text "" ∨ part = .bytes []) :
    YieldsParts T acc (pure a : Decode α) parts := by
  intro s₀ s s' a' hok hacc
  cases hok
  rw [hparts]
  obtain ⟨hlen, cs, n, hreach, hcs⟩ := hacc
  have hadd := hcs.add (.empty hpart)
  rw [add_zero] at hadd
  exact ⟨hlen, cs, _, hreach, hadd⟩

/-- The content of a chunk that was read is what the buffer holds at the call. -/
lemma reached_leaf {self self' : Cursor} {orig : Nat} {body : List UInt8}
    (hin : self.pos ≤ self.buf.length) (hlen : self.buf.length ≤ T.isizeMax)
    (h : leaf T self = .ok (orig, body) self') :
    Reached self self' [⟨.leaf, self.pos⟩] ∧
      body = (⟨.leaf, self.pos⟩ : Call).bytes T self.buf := by
  have hfits := leafFits_of_ok hin hlen h
  rw [leaf_ok hlen hfits] at h
  cases h
  exact ⟨⟨rfl, hfits.2.2, rfl⟩, rfl⟩

/-- A leaf yields the part that is made of its bytes. -/
lemma yields_leaf (part : List UInt8 → Piece)
    (hpart : ∀ buf (c : Call), c.kind = .leaf → ∃ n, Holds T buf (part (c.bytes T buf)) c n) :
    YieldsParts T acc (leaf T) fun p => acc + {part p.2} := by
  rintro s₀ s s' ⟨orig, body⟩ hok hacc
  obtain ⟨hlen, cs, n, hreach, hcs⟩ := hacc
  obtain ⟨hreach', rfl⟩ := reached_leaf hreach.pos (hreach.length_le hlen) hok
  obtain ⟨m, hm⟩ := hpart s.buf ⟨.leaf, s.pos⟩ rfl
  exact Accrued.one ⟨hlen, cs, n, hreach, hcs⟩ hreach' hm

/-- A text yields itself. -/
lemma yields_readOptCstring (ptr : Nat) :
    YieldsParts T acc (readOptCstring T ptr) fun s => acc + textOf s := by
  refine .ite (fun _ => yields_absent rfl (Or.inl rfl)) fun _ => ?_
  refine .bind (yields_leaf (fun body => .text (fromUtf8Lossy (stripNul body))) fun buf c hc => ⟨_, .text hc⟩) fun p => ?_
  exact .pure rfl

/-- Bytes yield themselves. -/
lemma yields_readOptBytes (ptr : Nat) :
    YieldsParts T acc (readOptBytes T ptr) fun octets => acc + bytesOf octets := by
  refine .ite (fun _ => yields_absent rfl (Or.inr rfl)) fun _ => ?_
  refine .bind (yields_leaf .bytes fun buf c hc => ⟨_, .bytes hc⟩) fun p => ?_
  exact .pure rfl

/-- A structure that holds a part of the result. -/
lemma yields_readChunkPod {k : RawType} {part : Raw T k → Piece}
    (hpart : ∀ buf (c : Call) raw, c.kind = .pod k → raw.bytes = c.bytes T buf →
      ∃ n, Holds T buf (part raw) c n) :
    YieldsParts T acc (readChunkPod T k) fun raw => acc + {part raw} := by
  intro s₀ s s' raw hok hacc
  obtain ⟨hlen, cs, n, hreach, hcs⟩ := hacc
  obtain ⟨hreach', hbytes⟩ := reached_readChunkPod hreach.pos (hreach.length_le hlen) hok
  obtain ⟨m, hm⟩ := hpart s.buf ⟨.pod k, s.pos⟩ raw rfl hbytes
  exact Accrued.one ⟨hlen, cs, n, hreach, hcs⟩ hreach' hm

/-- The structure of an element of a list. -/
lemma yields_element {k : RawType} :
    YieldsParts T acc (readChunkPod T k) fun _ => acc + {.element} :=
  yields_readChunkPod fun _ _ _ hkind _ => ⟨1, .element hkind⟩

/-- A list yields what its elements do. -/
lemma yields_elements {k : RawType} {α : Type} {next : k.Field} {finish : Raw T k → Decode α}
    {first : Raw T k → Multiset Piece} {item : α → Multiset Piece}
    (hd : ∀ acc, YieldsParts T acc (readChunkPod T k) fun raw => acc + first raw)
    (hf : ∀ acc raw, YieldsParts T (acc + first raw) (finish raw) fun a => acc + item a) :
    YieldsParts T acc (elements T next finish) fun as => acc + (as.map item).sum := by
  -- nothing is threaded through
  have hend : ∀ acc raw (_ : Unit), YieldsParts T (acc + first raw + 0)
      (do let a ← finish raw; pure (a, ())) fun p : α × Unit => acc + item p.1 + 0 := by
    intro acc raw _
    rw [add_zero]
    exact .bind (hf acc raw) fun a => .pure (add_zero _).symm
  rw [← add_zero acc]
  refine .bind (yields_chain hd hend ()) fun p => .pure ?_
  rw [add_zero, add_zero]

/-- An interface yields its element and its texts. -/
lemma yields_finishInterface (raw : Raw T .interface) :
    YieldsParts T (acc + {.element}) (finishInterface T raw) fun i => acc + interfacePieces i := by
  refine .bind (yields_readOptCstring _) fun name => ?_
  refine .bind (yields_readOptCstring _) fun ifalias => .pure ?_
  simp only [interfacePieces, textOf, add_assoc]

/-- The address in a structure. -/
def mgmtAddress (raw : Raw T .mgmt) : ManagementAddress :=
  ⟨raw.u32 .mFamily, (raw.get .mAddr).take (min (raw.usize .mAddrsize) (raw.get .mAddr).length),
    raw.u32 .mIface⟩

/-- The management addresses yield themselves. -/
lemma yields_decodeMgmtChain :
    YieldsParts T acc (decodeMgmtChain T) fun as =>
      acc + (as.map fun address => {Piece.address address}).sum := by
  -- the octets are in the structure itself
  have hhead : ∀ acc, YieldsParts T acc (readChunkPod T .mgmt) fun raw =>
      acc + {Piece.address (mgmtAddress raw)} := by
    intro acc
    refine yields_readChunkPod fun buf c raw hkind hbytes => ⟨_, .address hkind hbytes ?_⟩
    exact finishMgmt_eq T raw
  refine yields_elements hhead fun acc raw => ?_
  rw [finishMgmt_eq]
  exact .pure rfl

/-- A chassis yields its parts. -/
lemma yields_decodeChassis :
    YieldsParts T acc (decodeChassis T) fun c => acc + chassisPieces c := by
  have hmgmt : ∀ acc (c : Prop) [Decidable c],
      YieldsParts T acc (if c then decodeMgmtChain T else pure []) fun as =>
        acc + (as.map fun address => {Piece.address address}).sum :=
    fun acc c _ => .ite (fun _ => yields_decodeMgmtChain) fun _ => .pure (add_zero _).symm
  refine .bind (yields_skip ((rules_readsAny T).pod .chassis trivial)) fun raw => ?_
  refine .bind (yields_readOptBytes _) fun id => ?_
  refine .bind (yields_readOptCstring _) fun name => ?_
  refine .bind (yields_readOptCstring _) fun description => ?_
  refine .bind (hmgmt _ _) fun mgmt => ?_
  refine .bind (yields_readOptCstring _) fun hw => ?_
  refine .bind (yields_readOptCstring _) fun fw => ?_
  refine .bind (yields_readOptCstring _) fun sw => ?_
  refine .bind (yields_readOptCstring _) fun sn => ?_
  refine .bind (yields_readOptCstring _) fun manuf => ?_
  refine .bind (yields_readOptCstring _) fun model => ?_
  refine .bind (yields_readOptCstring _) fun asset => .pure ?_
  simp only [chassisPieces, bytesOf, add_assoc]

/-- The chassis of a port yields its parts once, when it is put into the cache. -/
lemma yields_portChassis (ptr : Nat) (cache : ChassisCache) :
    YieldsParts T (acc + cachePieces cache) (portChassis T ptr cache) fun p =>
      acc + cachePieces p.2 := by
  refine .ite (fun _ => .pure rfl) fun _ => ?_
  cases cache.get ptr with
  | some cached => exact .pure rfl
  | none =>
    refine .bind yields_decodeChassis fun chassis => .pure ?_
    rw [add_assoc, add_comm (cachePieces cache)]
    rfl

/-- What a port sends after its chassis yields its identifier and its description. -/
lemma yields_portRest (raw : Raw T .port) :
    YieldsParts T acc (portRest T raw) fun p => acc + (bytesOf p.1 + textOf p.2) := by
  have hr := rules_readsAny T
  refine .bind (yields_readOptBytes _) fun id => ?_
  refine .bind (yields_readOptCstring _) fun description => ?_
  refine .bind (yields_skip (hr.readOptCstring _)) fun _ => ?_
  refine .bind (yields_skip (hr.decodeMedLocationMarker _)) fun _ => ?_
  refine .bind (yields_skip (hr.decodeMedLocationMarker _)) fun _ => ?_
  refine .bind (yields_skip (hr.decodeMedLocationMarker _)) fun _ => ?_
  refine .bind (yields_skip (.ite (hr.discardVlanChain trivial) (hr.pure ()))) fun _ => ?_
  refine .bind (yields_skip (.ite (hr.discardPpvidChain trivial) (hr.pure ()))) fun _ => ?_
  refine .bind (yields_skip (.ite (hr.discardPiChain trivial) (hr.pure ()))) fun _ => .pure ?_
  rw [add_assoc]

/-- The id and the description of a port are kept for a neighbor and dropped for the local port. -/
lemma yields_decodePortFields {raw : Raw T .port} {rest : Option (List UInt8) × Option String →
      Multiset Piece}
    (hrest : ∀ acc, YieldsParts T acc (portRest T raw) fun p => acc + rest p) (cache : ChassisCache) :
    YieldsParts T (acc + cachePieces cache) (decodePortFields T raw cache) fun p =>
      acc + rest (p.1.id, p.1.description) + cachePieces p.2 := by
  refine .bind (yields_portChassis _ cache) fun p => ?_
  refine .bind (hrest _) fun q => .pure ?_
  rw [add_right_comm]

/-- A neighbor yields its own parts and those of a chassis that is new. -/
lemma yields_buildNeighbor (raw : Raw T .port) (cache : ChassisCache) :
    YieldsParts T (acc + cachePieces cache) (buildNeighbor T raw cache) fun p =>
      acc + portPieces p.1 + cachePieces p.2 := by
  refine .bind (yields_decodePortFields (fun acc => yields_portRest raw) cache) fun p => ?_
  obtain ⟨⟨chassis, id, description⟩, cache'⟩ := p
  cases chassis with
  | none => exact .throw
  | some chassis => exact .pure rfl

/-- The neighbors yield their parts and those of their chassis. -/
lemma yields_decodeNeighborChain (cache : ChassisCache) :
    YieldsParts T (acc + cachePieces cache) (decodeNeighborChain T cache) fun p =>
      acc + (p.1.map neighborPieces).sum + cachePieces p.2 := by
  refine yields_chain (fun acc => yields_element) (fun acc raw cache => ?_) cache
  have h : YieldsParts T (acc + {.element} + cachePieces cache) (buildNeighbor T raw cache) _ :=
    yields_buildNeighbor raw cache
  simpa only [neighborPieces, add_assoc] using h

/-- The list of interfaces yields what they are made of. -/
lemma yields_interfaces :
    YieldsParts T 0 (interfaces T) fun is => (is.map interfacePieces).sum := by
  refine .bind (yields_skip ((rules_readsAny T).pod .interfaceList trivial)) fun raw => ?_
  refine .ite (fun _ => .pure rfl) fun _ => ?_
  have h : YieldsParts T 0 (decodeInterfaceChain T) fun is => 0 + (is.map interfacePieces).sum :=
    yields_elements (fun acc => yields_element) fun acc raw => yields_finishInterface raw
  simpa only [zero_add] using h

/-- The chassis of the only port of a run is the only one in the cache. -/
lemma steps_nil {port : PortRun} {cache : ChassisCache} {chassis : Arc Chassis}
    (h : PortRun.Steps [] port cache) (hchassis : port.chassis = some chassis) :
    cache = [(port.ptr, chassis)] := by
  cases h with
  | null _ => cases hchassis
  | hit _ hget _ => cases hget
  | miss _ _ _ =>
    cases hchassis
    rfl

/-- The first neighbor yields its parts and those of its chassis. -/
lemma yields_buildNeighbor_nil (raw : Raw T .port) :
    YieldsParts T acc (buildNeighbor T raw []) fun p =>
      acc + (portPieces p.1 + chassisPieces p.1.chassis.val) := by
  rintro s₀ s s' ⟨neighbor, cache⟩ hok hacc
  have hacc' : Accrued (ledger T) T.isizeMax s₀ s (acc + cachePieces []) := by
    rwa [cachePieces_nil, add_zero]
  have hadd := yields_buildNeighbor raw [] s₀ s s' (neighbor, cache) hok hacc'
  obtain ⟨hlen, cs, n, hreach, -⟩ := hacc
  obtain ⟨cs', -, -, hsteps, -⟩ := buildNeighbor_steps hreach.pos (hreach.length_le hlen) hok
  have hcache : cachePieces cache = chassisPieces neighbor.chassis.val := by
    rw [steps_nil hsteps rfl]
    exact add_zero _
  dsimp only at hadd ⊢
  rwa [hcache, add_assoc] at hadd

/-- The neighbor of a notification yields its parts and those of its chassis. -/
lemma yields_finishNotified (raw : Raw T .port) :
    YieldsParts T acc (finishNotified T raw) fun n =>
      acc + (portPieces n + chassisPieces n.chassis.val) :=
  .ite (fun _ => .throw) fun _ => .bind (yields_buildNeighbor_nil raw) fun _ => .pure rfl

/-- A notification yields the parts of its neighbor, if it has one. -/
lemma yields_notifiedNeighbor (ptr : Nat) :
    YieldsParts T acc (notifiedNeighbor T ptr) fun neighbor =>
      acc + neighbor.elim 0 fun n => portPieces n + chassisPieces n.chassis.val := by
  refine .ite (fun _ => .pure (add_zero _).symm) fun _ => ?_
  refine .bind (yields_skip ((rules_readsAny T).pod .port trivial)) fun raw => ?_
  exact .bind (yields_finishNotified raw) fun _ => .pure rfl

/-- A notification yields what it is made of. -/
lemma yields_neighborChange : YieldsParts T 0 (neighborChange T) changePieces := by
  refine .bind (yields_skip ((rules_readsAny T).pod .neighborChange trivial)) fun raw => ?_
  refine .bind (yields_readOptCstring _) fun name => ?_
  refine .bind (yields_readOptCstring _) fun ifalias => ?_
  refine .bind (yields_notifiedNeighbor _) fun neighbor => .pure ?_
  rw [zero_add]
  rfl

end

/-! ### One interface -/

/-- The chassis in the cache are those of the ports. -/
lemma mem_cache_iff {ports : List PortRun} {cache : ChassisCache} (h : Shared ports cache)
    {chassis : Arc Chassis} :
    chassis ∈ cache.map Prod.snd ↔ ∃ port ∈ ports, port.chassis = some chassis := by
  refine ⟨fun hmem => ?_, fun ⟨port, hport, hchassis⟩ => ?_⟩
  · obtain ⟨⟨v, _⟩, hentry, rfl⟩ := List.mem_map.mp hmem
    obtain ⟨hne, hptr⟩ := (h.entries v).mp (List.mem_map_of_mem hentry)
    obtain ⟨port, hport, rfl⟩ := List.mem_map.mp hptr
    refine ⟨port, hport, ?_⟩
    rw [h.found port hport, if_neg hne]
    -- there is no other entry under this key
    cases hget : cache.get port.ptr with
    | none => exact absurd (List.mem_map_of_mem hentry) (get_eq_none.mp hget)
    | some chassis' =>
      have heq := List.inj_on_of_nodup_map h.keys (get_mem hget) hentry rfl
      cases heq
      rfl
  · exact List.mem_map.mpr ⟨_, get_mem (h.get_of_chassis hport hchassis), rfl⟩

/-- The chassis of a result are those in the cache. -/
lemma arcs_perm {details : InterfaceDetails} {lport : PortRun} {ports : List PortRun}
    {cache : ChassisCache} (h : Shared (lport :: ports) cache)
    (hlocal : details.localChassis = lport.chassis)
    (hneighbors : details.neighbors.map (fun n => some n.chassis) =
      (ports.map PortRun.chassis).reverse) :
    (arcs details).Perm (cache.map Prod.snd) := by
  have hnodup : (cache.map Prod.snd).Nodup := by
    refine List.Nodup.of_map Arc.addr ?_
    rw [List.map_map]
    show (cache.map (·.2.addr)).Nodup
    rw [h.addrs]
    exact List.nodup_reverse.mpr List.nodup_range
  refine (List.perm_ext_iff_of_nodup (List.nodup_dedup _) hnodup).mpr fun chassis => ?_
  have hmem : chassis ∈ details.neighbors.map Neighbor.chassis ↔
      ∃ port ∈ ports, port.chassis = some chassis := by
    have hsome : some chassis ∈ details.neighbors.map (fun n => some n.chassis) ↔
        some chassis ∈ ports.map PortRun.chassis := by
      rw [hneighbors, List.mem_reverse]
    simpa only [List.mem_map, Option.some.injEq] using hsome
  rw [mem_cache_iff h, List.mem_dedup, List.mem_append, hmem, Option.mem_toList, hlocal]
  simp only [List.mem_cons, exists_eq_or_imp]

section
variable {k : RawType} [HardwareFields k] {p : List UInt8}

/-- The cache that `decode_hardware_as` ends with. -/
lemma cachePieces_eq {raw : Raw T k} {s₂ s₃ s₄ : Cursor} {fields : PortFields}
    {cache₁ cache : ChassisCache} {details : InterfaceDetails} (hin : s₂.pos ≤ s₂.buf.length)
    (hlen : s₂.buf.length ≤ T.isizeMax)
    (hlocal : decodePortFields T raw.hLport [] s₂ = .ok (fields, cache₁) s₃)
    (hneighbors : (if raw.hRportsTqhFirst ≠ 0 then decodeNeighborChain T cache₁
      else pure ([], cache₁)) s₃ = .ok (details.neighbors, cache) s₄)
    (hchassis : details.localChassis = fields.chassis) :
    cachePieces cache = ((arcs details).map fun chassis => chassisPieces chassis.val).sum := by
  obtain ⟨cs, hreach, -, hsteps⟩ := decodePortFields_steps hin hlen hlocal
  obtain ⟨heads, ports, hrun⟩ := neighbors_runs hreach.pos (hreach.length_le hlen) hneighbors
  have hshared := ((PortRun.Runs.single hsteps).append hrun.runs).shared
  have hperm := (arcs_perm hshared hchassis hrun.chassis).map fun c => chassisPieces c.val
  rw [hperm.sum_eq, List.map_map]
  rfl

/-- The details of an interface have accrued from the calls. -/
lemma hardware_accrued (hlen : p.length ≤ T.isizeMax) {details : InterfaceDetails} {self : Cursor}
    (h : hardware T k (Cursor.new p) = .ok details self) :
    Accrued (ledger T) T.isizeMax (Cursor.new p) self (detailsPieces details) := by
  have hr := rules_readsAny T
  obtain ⟨raw, s₁, s₂, s₃, s₄, fields, cache₁, cache, hroot, hmarker, hlocal, hneighbors, halias,
    hname, hmac, hchassis⟩ := hardware_parts h
  have hstart : Accrued (ledger T) T.isizeMax (Cursor.new p) (Cursor.new p) 0 :=
    .start (Nat.zero_le _) hlen
  have h₁ : Accrued (ledger T) T.isizeMax (Cursor.new p) s₁ (0 + {.root details.name
      details.macAddress}) := by
    rw [hname, hmac]
    exact yields_readChunkPod (fun _ _ _ hkind hbytes => ⟨_, .root hkind hbytes⟩) _ _ _ _ hroot hstart
  have h₂ := yields_skip hr.marker _ _ _ _ hmarker h₁
  -- the id and the description of the local port are not in the result
  have hrest : ∀ acc, YieldsParts T acc (portRest T raw.hLport) fun _ => acc + 0 := by
    intro acc
    rw [add_zero]
    exact yields_skip (hr.portRest trivial trivial trivial _)
  have h₃ := yields_decodePortFields hrest [] _ _ _ _ hlocal (by rwa [cachePieces_nil,
    add_zero])
  have hchain : ∀ acc, YieldsParts T (acc + cachePieces cache₁)
      (if raw.hRportsTqhFirst ≠ 0 then decodeNeighborChain T cache₁ else pure ([], cache₁))
      fun p => acc + (p.1.map neighborPieces).sum + cachePieces p.2 := fun acc =>
    .ite (fun _ => yields_decodeNeighborChain cache₁) fun _ => .pure (by
      rw [List.map_nil, List.sum_nil, add_zero])
  have h₄ := hchain _ _ _ _ _ hneighbors h₃
  have h₅ := yields_readOptCstring _ _ _ _ _ halias h₄
  obtain ⟨-, cs, n, hreach, -⟩ := h₂
  have hcache := cachePieces_eq hreach.pos (hreach.length_le hlen) hlocal hneighbors hchassis
  dsimp only at h₅
  rwa [hcache, zero_add, add_zero] at h₅

end

/-- What a payload had room for: all bytes up to the position were taken by calls, the parts of the
result were read by different calls, and together they are not longer than the payload. -/
structure Conserved (T : Target) (p : List UInt8) (self : Cursor) (parts : Multiset Piece) :
    Prop where
  spent : (self.calls.map (Call.spent T p)).sum = self.pos
  inside : self.pos ≤ p.length
  accounted : ∃ n, Accounted (ledger T) p parts self.calls n
  room : ∀ n, Accounted (ledger T) p parts self.calls n → n ≤ p.length

/-- What has accrued from the calls of a decoder is conserved. -/
lemma conserved {α : Type} {d : Decode α} {parts : Multiset Piece} {p : List UInt8}
    (hd : Does (spends T) T.isizeMax d) (hlen : p.length ≤ T.isizeMax) {a : α} {self : Cursor}
    (h : d (Cursor.new p) = .ok a self)
    (hacc : Accrued (ledger T) T.isizeMax (Cursor.new p) self parts) :
    Conserved T p self parts := by
  obtain ⟨cs, hreach, hspent⟩ := hd.reached (Nat.zero_le _) hlen h
  obtain ⟨-, cs', n, hreach', hn⟩ := hacc
  have hcalls : self.calls = cs := hreach.calls
  have hcalls' : self.calls = cs' := hreach'.calls
  have hsum : (self.calls.map (Call.spent T p)).sum = self.pos := by
    rw [hcalls, ← hspent]
    exact (Nat.zero_add _).symm
  have hpos : self.pos ≤ p.length := by
    have h := hreach.pos
    rwa [hreach.buf] at h
  rw [← hcalls'] at hn
  refine ⟨hsum, hpos, ⟨n, hn⟩, fun m hm => ?_⟩
  have hle := hm.le_sum fun part c n => Holds.le_size
  rw [Multiset.map_coe, Multiset.sum_coe] at hle
  calc m ≤ (self.calls.map (Call.size T p)).sum := hle
    _ ≤ (self.calls.map (Call.spent T p)).sum :=
      List.sum_le_sum fun c _ => Nat.le_add_left _ _
    _ = self.pos := hsum
    _ ≤ p.length := hpos

/-- The name of an interface is a part of the list. -/
lemma text_mem_interfacePieces {list : List Interface} {iface : Interface} (h : iface ∈ list) :
    .text iface.name ∈ (list.map interfacePieces).sum := by
  induction list with
  | nil => cases h
  | cons i list ih =>
    rw [List.map_cons, List.sum_cons]
    obtain rfl | h := List.mem_cons.mp h
    · have hown : Piece.text iface.name ∈ {.text iface.name} + textOf iface.alias :=
        Multiset.mem_add.mpr (.inl (Multiset.mem_singleton_self _))
      exact Multiset.mem_add.mpr (.inl (Multiset.mem_add.mpr (.inr hown)))
    · exact Multiset.mem_add.mpr (.inr (ih h))

/-- The names in a list that was decoded are not much longer than its payload. -/
lemma length_name_le {p : List UInt8} (hlen : p.length ≤ T.isizeMax) {list : List Interface}
    (h : decodeInterfaces T p = .ok list) {iface : Interface} (hmem : iface ∈ list) :
    (utf8Bytes iface.name).length ≤ 3 * p.length := by
  obtain ⟨stop, self, hok, -⟩ := decode_eq_ok.mp h
  have hstart : Accrued (ledger T) T.isizeMax (Cursor.new p) (Cursor.new p) 0 :=
    .start (Nat.zero_le _) hlen
  obtain ⟨-, -, ⟨n, hn⟩, hroom⟩ := conserved ((allows_spends T).rules.interfaces all_anyKind) hlen
    hok (yields_interfaces _ _ _ _ hok hstart)
  obtain hempty | ⟨c, m, hholds, hle⟩ := hn.exists_holds (text_mem_interfacePieces hmem)
  · obtain htext | hbytes := hempty
    · rw [Piece.text.inj htext]
      exact Nat.zero_le _
    · cases hbytes
  · generalize iface.name = name at hholds ⊢
    cases hholds with
    | text _ => exact (length_lossy_le _).trans (Nat.mul_le_mul_left 3 (hle.trans (hroom n hn)))

/-- Every chain recursion ends, whatever its next pointers are, with a depth that the bytes bound, and a
run that succeeds holds no more than the payload: its calls take all bytes up to its position, and the
texts, byte strings and lists of its result were read by different calls. -/
theorem chains_end_and_conserve {p : List UInt8} (hlen : p.length ≤ T.isizeMax) :
    Ends T .interface (decodeInterfaceChain T) ∧ Ends T .mgmt (decodeMgmtChain T) ∧
    Ends T .vlan (discardVlanChain T) ∧ Ends T .ppvid (discardPpvidChain T) ∧
    Ends T .pi (discardPiChain T) ∧ (∀ cache, Ends T .port (decodeNeighborChain T cache)) ∧
    (∀ list self, interfaces T (Cursor.new p) = .ok list self →
      Conserved T p self (list.map interfacePieces).sum) ∧
    (∀ change self, neighborChange T (Cursor.new p) = .ok change self →
      Conserved T p self (changePieces change)) ∧
    (∀ (k : RawType) [HardwareFields k] details self,
      hardware T k (Cursor.new p) = .ok details self →
      Conserved T p self (detailsPieces details)) := by
  have hr := allows_spends T
  have hstart : Accrued (ledger T) T.isizeMax (Cursor.new p) (Cursor.new p) 0 :=
    .start (Nat.zero_le _) hlen
  refine ⟨ends_elements _ _, ends_elements _ _, (ends_elements _ _).drop, (ends_elements _ _).drop,
    (ends_elements _ _).drop, ends_decodeNeighborChain, fun list self h => ?_,
    fun change self h => ?_, fun k _ details self h => ?_⟩
  · exact conserved (hr.rules.interfaces all_anyKind) hlen h (yields_interfaces _ _ _ _ h hstart)
  · exact conserved (hr.rules.neighborChange all_anyKind) hlen h
      (yields_neighborChange _ _ _ _ h hstart)
  · exact conserved (hr.rules.hardware all_anyKind hr.requireExhausted k) hlen h
      (hardware_accrued hlen h)

/-- The sample is read and conserved. -/
theorem chains_end_and_conserve_sampleMessage :
    ∃ self : Cursor, hardware .lp64le .hardware (Cursor.new sampleMessage) =
        .ok ((sampleHardware .lp64le).value (sampleHeap .lp64le)) self ∧
      Conserved .lp64le sampleMessage self
        (detailsPieces ((sampleHardware .lp64le).value (sampleHeap .lp64le))) := by
  have hlen : sampleMessage.length ≤ Target.lp64le.isizeMax := length_sampleHardware
  obtain ⟨-, -, -, -, -, -, -, -, hconserved⟩ := chains_end_and_conserve hlen
  have hdecode := decodeHardwareAs_hardwareMessage _ _ (Or.inl rfl) _ length_sampleHardware
  obtain ⟨stop, self, hok, -⟩ := decode_eq_ok.mp hdecode
  exact ⟨self, hok, hconserved .hardware _ self hok⟩

end Rlldpctl.Wire
