import Rlldpctl.Lib.Effects
import Rlldpctl.Wire.Rules

/-!
# What the decoders do

Effects of the decoders: what an effect has to allow for it to hold of all of them (`Allows`), and the
first one, that nothing is read outside the payload.
-/

namespace Rlldpctl.Wire
open ByteReader CLayout NativeBytes Utf8

variable {T : Target}

/-- What an effect has to allow for the decoders that read structures of the kinds `K` only. -/
structure Allows (T : Target) (K : RawType → Prop) (E : Effect Fault Call) : Prop where
  leaf : ∀ self : Cursor, self.pos ≤ self.buf.length → LeafFits T self →
    E.ok self.buf self.pos [⟨.leaf, self.pos⟩] (self.start T + self.declared T)
  marker : ∀ self : Cursor, self.pos ≤ self.buf.length →
    self.start T + 2 * T.ptrSize ≤ self.buf.length →
    E.ok self.buf self.pos [⟨.marker, self.pos⟩] (self.start T + 2 * T.ptrSize)
  pod : ∀ k, K k → ∀ self : Cursor, self.pos ≤ self.buf.length → PodFits T k self →
    E.ok self.buf self.pos [⟨.pod k, self.pos⟩] (self.start T + 2 * T.ptrSize + sizeOf T k)
  reject : ∀ buf pos kind msg, pos ≤ buf.length → E.err buf pos [⟨kind, pos⟩] (protocol msg)
  throw : ∀ buf pos msg, E.err buf pos [] (protocol msg)

namespace Allows
variable {K : RawType → Prop} {E : Effect Fault Call} {self : Cursor}

/-- A call that consumes a chunk has the effect of this call. -/
lemma advance {α : Type} {kind : ChunkKind} {a : α} {stop : Nat} (hstop : stop ≤ self.buf.length)
    (hok : E.ok self.buf self.pos [⟨kind, self.pos⟩] stop) :
    E.Result self (.ok a (self.advance kind stop)) :=
  ⟨rfl, hstop, _, rfl, hok⟩

variable (h : Allows T K E)
include h

/-- A call that is rejected has the effect of a failure. -/
lemma rejects {α : Type} {r : EStateM.Result Fault Cursor α} (hin : self.pos ≤ self.buf.length)
    (hr : Rejects self r) : E.Result self r := by
  cases r with
  | ok a s => exact hr.elim
  | error e s =>
    obtain ⟨⟨msg, rfl⟩, kind, pos, -, rfl⟩ := hr
    exact ⟨_, rfl, h.reject _ _ _ _ hin⟩

/-- A structure of an allowed kind has an allowed effect. -/
lemma readChunkPod {k : RawType} (hk : K k) : Does E T.isizeMax (readChunkPod T k) := by
  intro (self : Cursor) hin hlen
  by_cases hfits : PodFits T k self
  · rw [readChunkPod_ok hlen hfits]
    exact advance hfits.1 (h.pod k hk self hin hfits)
  · exact h.rejects hin (readChunkPod_rejects hin hlen hfits)

/-- An effect that allows what the readers do holds of the decoders. -/
lemma rules : Rules T K (Does E T.isizeMax) where
  pure a := .pure a
  throw msg := .throw fun buf pos => h.throw buf pos msg
  bind hd hf := .bind hd hf
  leaf := by
    intro (self : Cursor) hin hlen
    by_cases hfits : LeafFits T self
    · rw [leaf_ok hlen hfits]
      exact advance hfits.2.2 (h.leaf self hin hfits)
    · exact h.rejects hin (leaf_rejects hin hlen hfits)
  marker := by
    intro (self : Cursor) hin hlen
    by_cases hfits : self.start T + 2 * T.ptrSize ≤ self.buf.length
    · rw [consumeSubstructMarker_ok hlen hfits]
      exact advance hfits (h.marker self hin hfits)
    · exact h.rejects hin (consumeSubstructMarker_rejects hin hlen hfits)
  pod _ hk := h.readChunkPod hk
  chain hk hf t := does_chain (h.readChunkPod hk) hf t

/-- The check for bytes left over has an allowed effect. -/
lemma requireExhausted (details : InterfaceDetails) :
    Does E T.isizeMax (requireExhausted details) := by
  intro (self : Cursor) hin hlen
  rw [requireExhausted_eq]
  split
  case isTrue => exact Does.pure details self hin hlen
  case isFalse => exact Does.throw (fun buf pos => h.throw buf pos _) self hin hlen

end Allows

/-- Structures of the kinds `K` only are read. -/
def readsOnly (K : RawType → Prop) : Effect Fault Call where
  ok _ _ cs _ := ∀ c ∈ cs, ∀ k, c.kind = .pod k → K k
  err _ _ _ _ := True
  nil _ _ := List.forall_mem_nil _
  append h h' := List.forall_mem_append.mpr ⟨h, h'⟩
  fail _ h := h

/-- Reading only certain kinds of structures is an effect that the calls have. -/
lemma allows_readsOnly (T : Target) (K : RawType → Prop) : Allows T K (readsOnly K) where
  leaf _ _ _ := List.forall_mem_singleton.mpr nofun
  marker _ _ _ := List.forall_mem_singleton.mpr nofun
  pod _ hk _ _ _ := List.forall_mem_singleton.mpr fun _ h => ChunkKind.pod.inj h ▸ hk
  reject _ _ _ _ _ := trivial
  throw _ _ _ := trivial

/-! ## What a call reads -/

section
variable (T : Target) (buf : List UInt8) (c : Call)

/-- How many bytes a call reads behind the header of its chunk. -/
def Call.size : Nat :=
  match c.kind with
  | .pod k => sizeOf T k
  | .leaf => wordAt T buf (alignUp c.pos T.ptrSize + T.ptrSize) - 2 * T.ptrSize
  | .marker => 0

/-- The bytes a call reads behind the header of its chunk. -/
def Call.bytes : List UInt8 :=
  slice buf (alignUp c.pos T.ptrSize + 2 * T.ptrSize) (c.size T buf)

end

/-! ## Inside the payload -/

/-- Every call is made inside the buffer, and a run that fails does so with a protocol error. -/
def inside : Effect Fault Call where
  ok buf _ cs _ := ∀ c ∈ cs, c.pos ≤ buf.length
  err buf _ cs e := (∃ msg, e = protocol msg) ∧ ∀ c ∈ cs, c.pos ≤ buf.length
  nil _ _ := List.forall_mem_nil _
  append h h' := List.forall_mem_append.mpr ⟨h, h'⟩
  fail h h' := ⟨h'.1, List.forall_mem_append.mpr ⟨h, h'.2⟩⟩

/-- Staying inside the payload is an effect that the calls have. -/
lemma allows_inside (T : Target) : Allows T anyKind inside where
  leaf _ hin _ := List.forall_mem_singleton.mpr hin
  marker _ hin _ := List.forall_mem_singleton.mpr hin
  pod _ _ _ hin _ := List.forall_mem_singleton.mpr hin
  reject _ _ _ msg hin := ⟨⟨msg, rfl⟩, List.forall_mem_singleton.mpr hin⟩
  throw _ _ msg := ⟨⟨msg, rfl⟩, List.forall_mem_nil _⟩

/-- A value or a protocol error. -/
def Returns {α : Type} (r : Except Fault α) : Prop :=
  (∃ v, r = .ok v) ∨ ∃ msg, r = .error (protocol msg)

/-- A decoder on the payload `p` returns, every call is made inside the payload, and a position that has
moved past its end is one where the decoder has failed. -/
structure Contained {α : Type} (d : Decode α) (p : List UInt8) : Prop where
  returns : Returns (decode d p)
  calls : ∀ c ∈ (final (d (Cursor.new p))).calls, c.pos ≤ p.length
  past : p.length < (final (d (Cursor.new p))).pos → ∃ msg, decode d p = .error (protocol msg)

/-- A decoder that stays inside from everywhere does so over the payload. -/
lemma contained {α : Type} {d : Decode α} (hd : Does inside T.isizeMax d) {p : List UInt8}
    (hlen : p.length ≤ T.isizeMax) : Contained d p := by
  have h := hd (Cursor.new p) (Nat.zero_le _) hlen
  cases hx : d (Cursor.new p) with
  | ok v self =>
    rw [hx] at h
    obtain ⟨hbuf, hpos, cs, hcalls, hin⟩ := h
    have hv : decode d p = .ok v := by rw [decode, hx]
    refine ⟨Or.inl ⟨v, hv⟩, ?_, ?_⟩
    · rw [hx]
      show ∀ c ∈ self.calls, _
      rw [hcalls]
      exact hin
    · rw [hx]
      intro hlt
      rw [hbuf] at hpos
      exact absurd hpos (not_le.mpr hlt)
  | error e self =>
    rw [hx] at h
    obtain ⟨cs, hcalls, ⟨msg, rfl⟩, hin⟩ := h
    have herr : decode d p = .error (protocol msg) := by rw [decode, hx]
    refine ⟨Or.inr ⟨msg, herr⟩, ?_, fun _ => ⟨msg, herr⟩⟩
    rw [hx]
    show ∀ c ∈ self.calls, _
    rw [hcalls]
    exact hin

/-- The details of an interface are read inside the payload. -/
lemma contained_hardware (k : RawType) [HardwareFields k] {p : List UInt8}
    (hlen : p.length ≤ T.isizeMax) : Contained (hardware T k) p :=
  have h := allows_inside T
  contained (h.rules.hardware all_anyKind h.requireExhausted k) hlen

/-- `decode_hardware` returns a value or a protocol error. -/
lemma returns_decodeHardware {p : List UInt8} (hlen : p.length ≤ T.isizeMax) :
    Returns (decodeHardware T p) := by
  have h : Returns (decodeHardwareAs T .hardware p) := (contained_hardware .hardware hlen).returns
  have h' : Returns (decodeHardwareAs T .hardwareWithFlagsPrevious p) :=
    (contained_hardware .hardwareWithFlagsPrevious hlen).returns
  unfold decodeHardware
  obtain ⟨v, hv⟩ | ⟨msg, hmsg⟩ := h
  · rw [hv]
    exact Or.inl ⟨v, rfl⟩
  · rw [hmsg]
    obtain ⟨v, hv⟩ | ⟨msg', hmsg'⟩ := h'
    · rw [hv]
      exact Or.inl ⟨v, rfl⟩
    · rw [hmsg']
      exact Or.inr ⟨msg, rfl⟩

/-- What `read_chunk_pod` hands to `read_pod` is long enough. -/
lemma readPod_readRaw {k : RawType} {self self' : Cursor} {bytes : List UInt8}
    (h : readRaw T (sizeOf T k) self = .ok bytes self') : ∃ raw, readPod T k bytes = .ok raw := by
  unfold readRaw at h
  obtain ⟨_, s₁, hneed, h₁⟩ := bind_eq_ok h
  obtain ⟨rfl, hend⟩ := need_eq_ok hneed
  obtain ⟨_, _, hget, h⟩ := bind_eq_ok h₁
  cases hget
  obtain ⟨stop, hstop, h⟩ := ofExcept_bind_eq_ok h
  obtain ⟨bytes', hindex, h⟩ := ofExcept_bind_eq_ok h
  cases h
  rw [fits_eq_ok hstop, index_eq (Nat.le_add_right _ _) hend, Nat.add_sub_cancel_left] at hindex
  cases hindex
  exact ⟨_, dif_pos (length_slice hend).ge⟩

/-- The octets of a management address are within the 16 bytes of `m_addr`. -/
lemma finishMgmt_octets (raw : Raw T .mgmt) :
    ∃ address, finishMgmt T raw = pure address ∧ address.octets <+: raw.get .mAddr ∧
      address.octets.length ≤ 16 := by
  refine ⟨_, finishMgmt_eq T raw, List.take_prefix _ _, ?_⟩
  have h : (raw.get .mAddr).length = 16 := raw.length_get .mAddr
  exact (List.take_prefix _ _).length_le.trans h.le

/-- `ip` does not panic. -/
lemma ManagementAddress.ip_ok (address : ManagementAddress) : ∃ ip, address.ip = .ok ip := by
  unfold ManagementAddress.ip
  split
  case isTrue h =>
    obtain ⟨-, hlen⟩ := h
    have helement : ∀ i, i < 4 → ∃ b, element address.octets i = .ok b :=
      fun i hi => ⟨_, dif_pos (hi.trans_le hlen)⟩
    obtain ⟨a, ha⟩ := helement 0 (by decide)
    obtain ⟨b, hb⟩ := helement 1 (by decide)
    obtain ⟨c, hc⟩ := helement 2 (by decide)
    obtain ⟨d, hd⟩ := helement 3 (by decide)
    rw [ha, hb, hc, hd]
    exact ⟨_, rfl⟩
  case isFalse =>
    split
    case isTrue h =>
      have hcopy : copyFromSlice 16 (slice address.octets 0 16) = .ok _ :=
        dif_pos (length_slice h.2)
      rw [index_eq (Nat.zero_le _) h.2]
      show ∃ ip, (copyFromSlice 16 (slice address.octets 0 16) >>= _) = _
      rw [hcopy]
      exact ⟨_, rfl⟩
    case isFalse => exact ⟨_, rfl⟩

/-- No byte string makes a decoder panic. Nothing is read outside the payload: every call starts inside
it, and when the padding in front of a chunk goes past its end the header is refused before it is read.
The size check of `read_pod` never fails, and management addresses stay within their 16 bytes. -/
theorem decoders_never_panic {p : List UInt8} (hlen : p.length ≤ T.isizeMax) :
    Contained (interfaces T) p ∧ Contained (neighborChange T) p ∧
    (∀ (k : RawType) [HardwareFields k], Contained (hardware T k) p) ∧
    Returns (decodeHardware T p) ∧
    (∀ self : Cursor, self.pos ≤ p.length → p.length < alignUp self.pos T.ptrSize → self.buf = p →
      ∃ msg self', chunkHeader T self = .error (protocol msg) self') ∧
    (∀ k (self self' : Cursor) bytes, readRaw T (sizeOf T k) self = .ok bytes self' →
      ∃ raw, readPod T k bytes = .ok raw) ∧
    (∀ raw : Raw T .mgmt, ∃ address, finishMgmt T raw = pure address ∧
      address.octets <+: raw.get .mAddr ∧ address.octets.length ≤ 16) ∧
    (∀ address : ManagementAddress, ∃ ip, address.ip = .ok ip) := by
  have h := allows_inside T
  refine ⟨contained (h.rules.interfaces all_anyKind) hlen,
    contained (h.rules.neighborChange all_anyKind) hlen, fun k _ => contained_hardware k hlen,
    returns_decodeHardware hlen, ?_, ?_, finishMgmt_octets, ManagementAddress.ip_ok⟩
  · rintro self hin hpast rfl
    rw [alignUp_eq] at hpast
    exact ⟨_, _, chunkHeader_short self hin hlen (hpast.trans_le (Nat.le_add_right _ _))⟩
  · exact fun k self self' bytes hraw => readPod_readRaw hraw

/-- The bytes `ff` on the 32-bit big-endian target. -/
theorem decoders_never_panic_ones :
    Contained (hardware .ilp32be .hardware) (List.replicate 23 0xff) ∧
      Returns (decodeHardware .ilp32be (List.replicate 23 0xff)) := by
  obtain ⟨-, -, hhardware, hreturns, -⟩ :=
    decoders_never_panic (T := .ilp32be) (p := List.replicate 23 0xff) (by decide +kernel)
  exact ⟨hhardware .hardware, hreturns⟩

end Rlldpctl.Wire
