import Rlldpctl.Wire.Calls
import Rlldpctl.Wire.Grammar
import Rlldpctl.Wire.Truncation

/-!
# What is accepted

The payloads that each kind of message accepts, in terms of the grammar of `Grammar`. A notified port is a
port in no list, so a notification is not an item of the grammar but made of its items. The bytes that a message
leaves over are those that the grammar does.
-/

namespace Rlldpctl.Wire
open ByteReader

variable {T : Target} {α β : Type}

/-! ## Notifications -/

/-- A port in no list, and what it asks for, take the payload `p` from `pos` to `stop`. -/
def FillsPort (T : Target) (p : List UInt8) (pos stop : Nat) : Prop :=
  ∃ h : PodFits T .port (.at p pos),
    let raw := (Cursor.at p pos).pod T .port h
    raw.usize .tqeNext = 0 ∧
      Fills T p stop ((Cursor.at p pos).start T + 2 * T.ptrSize + sizeOf T .port) []
        (.chassis (raw.usize .pChassis) :: portItems raw)

/-- The texts that a change asks for, and then its port, if it has one. -/
def FillsBehind (T : Target) (p : List UInt8) (raw : Raw T .neighborChange) (pos stop : Nat) : Prop :=
  ∃ mid,
    Fills T p mid pos [] (pointed (raw.usize .ifname) .leaf ++ pointed (raw.usize .ifalias) .leaf) ∧
      if raw.usize .neighbor = 0 then mid = stop else FillsPort T p mid stop

/-- A change and what it asks for take the payload `p` to `stop`. -/
def FillsChange (T : Target) (p : List UInt8) (stop : Nat) : Prop :=
  ∃ h : PodFits T .neighborChange (.at p 0),
    FillsBehind T p ((Cursor.at p 0).pod T .neighborChange h)
      ((Cursor.at p 0).start T + 2 * T.ptrSize + sizeOf T .neighborChange) stop

/-- From `s` on the decoder succeeds exactly when `E` holds of where it ends. -/
structure EndsWhere (s : Cursor) (E : Nat → Prop) (d : Decode α) : Prop where
  inside : ∀ a s', d s = .ok a s' → s'.buf = s.buf ∧ s'.pos ≤ s'.buf.length
  ends : ∀ stop, E stop ↔ ∃ a s', d s = .ok a s' ∧ s'.pos = stop

section
variable {s : Cursor} {seen : List Nat} {items : List Item}

/-- What accepts its items ends where they do. -/
lemma Accepts.endsWhere {d : Decode α} (h : Accepts T s seen items d) :
    EndsWhere s (fun stop => Fills T s.buf stop s.pos seen items) d :=
  ⟨h.inside, h.ends⟩

/-- A value ends where it is. -/
lemma EndsWhere.pure {a : α} (hpos : s.pos ≤ s.buf.length) :
    EndsWhere s (fun stop => s.pos = stop) (Pure.pure a : Decode α) := by
  refine ⟨fun b s' h => ?_, fun stop => ⟨fun hstop => ⟨a, s, rfl, hstop⟩, ?_⟩⟩
  · cases h
    exact ⟨rfl, hpos⟩
  · rintro ⟨b, s', h, hstop⟩
    cases h
    exact hstop

/-- A failure ends nowhere. -/
lemma EndsWhere.throw {e : Fault} :
    EndsWhere s (fun _ => False) (MonadExcept.throw e : Decode α) := by
  refine ⟨nofun, fun stop => iff_of_false id ?_⟩
  rintro ⟨a, s', h, -⟩
  cases h

/-- The second part begins where the first ends. -/
lemma EndsWhere.bind {E : Nat → Prop} {F : Nat → Nat → Prop} {d : Decode α} {f : α → Decode β}
    (hd : EndsWhere s E d)
    (hf : ∀ a s', d s = .ok a s' → s'.buf = s.buf → s'.pos ≤ s'.buf.length →
      EndsWhere s' (F s'.pos) (f a)) :
    EndsWhere s (fun stop => ∃ pos, E pos ∧ F pos stop) (d >>= f) := by
  refine ⟨fun b s'' h => ?_, fun stop => ⟨?_, ?_⟩⟩
  · obtain ⟨a, s', hx, hy⟩ := bind_eq_ok h
    obtain ⟨hbuf, hpos⟩ := hd.inside a s' hx
    obtain ⟨hbuf', hpos'⟩ := (hf a s' hx hbuf hpos).inside b s'' hy
    exact ⟨hbuf'.trans hbuf, hpos'⟩
  · rintro ⟨pos, hE, hF⟩
    obtain ⟨a, s', hx, rfl⟩ := (hd.ends pos).mp hE
    obtain ⟨hbuf, hpos⟩ := hd.inside a s' hx
    obtain ⟨b, s'', hy, hstop⟩ := ((hf a s' hx hbuf hpos).ends stop).mp hF
    exact ⟨b, s'', (bind_ok hx).trans hy, hstop⟩
  · rintro ⟨b, s'', h, hstop⟩
    obtain ⟨a, s', hx, hy⟩ := bind_eq_ok h
    obtain ⟨hbuf, hpos⟩ := hd.inside a s' hx
    exact ⟨s'.pos, (hd.ends s'.pos).mpr ⟨a, s', hx, rfl⟩,
      ((hf a s' hx hbuf hpos).ends stop).mpr ⟨b, s'', hy, hstop⟩⟩

/-- The last step consumes nothing. -/
lemma EndsWhere.map {E : Nat → Prop} {d : Decode α} {f : α → β} (hd : EndsWhere s E d) :
    EndsWhere s E (d >>= fun a => Pure.pure (f a)) := by
  have hbind := hd.bind (F := fun pos stop => pos = stop)
    fun a s' _ _ hpos => EndsWhere.pure (a := f a) hpos
  refine ⟨hbind.inside, fun stop => (Iff.trans ?_ (hbind.ends stop))⟩
  exact ⟨fun h => ⟨stop, h, rfl⟩, fun ⟨_, h, hstop⟩ => hstop ▸ h⟩

/-- The same ends, said in another way. -/
lemma EndsWhere.congr {E F : Nat → Prop} {d : Decode α} (h : ∀ stop, E stop ↔ F stop)
    (hd : EndsWhere s F d) : EndsWhere s E d :=
  ⟨hd.inside, fun stop => (h stop).trans (hd.ends stop)⟩

section
variable (hpos : s.pos ≤ s.buf.length) (hlen : s.buf.length ≤ T.isizeMax)
include hpos hlen

/-- A structure is read when it fits. -/
lemma endsWhere_pod {k : RawType} {E : Raw T k → Nat → Nat → Prop} {f : Raw T k → Decode β}
    (hf : ∀ raw s', s'.buf = s.buf → s'.pos ≤ s'.buf.length → EndsWhere s' (E raw s'.pos) (f raw)) :
    EndsWhere s (fun stop => ∃ h : PodFits T k s,
      E (s.pod T k h) (s.start T + 2 * T.ptrSize + sizeOf T k) stop) (readChunkPod T k >>= f) := by
  by_cases hfits : PodFits T k s
  · have hok := readChunkPod_ok hlen hfits
    have hnext := hf (s.pod T k hfits)
      (s.advance (.pod k) (s.start T + 2 * T.ptrSize + sizeOf T k)) rfl hfits.1
    refine ⟨fun a s' h => ?_, fun stop => ?_⟩
    · rw [bind_ok hok] at h
      exact hnext.inside a s' h
    · rw [bind_ok hok, ← hnext.ends]
      exact ⟨fun ⟨_, hE⟩ => hE, fun hE => ⟨hfits, hE⟩⟩
  · obtain ⟨e, s', herr⟩ := (readChunkPod_rejects hpos hlen hfits).error
    refine ⟨fun a s'' h => ?_, fun stop => iff_of_false (fun ⟨hfits', _⟩ => hfits hfits') ?_⟩
    · rw [bind_error herr] at h
      cases h
    · rintro ⟨a, s'', h, -⟩
      rw [bind_error herr] at h
      cases h

/-- The neighbor of a notification ends where its port does, if it has one. -/
lemma endsWhere_notifiedNeighbor (ptr : Nat) :
    EndsWhere s (fun stop => if ptr = 0 then s.pos = stop else FillsPort T s.buf s.pos stop)
      (notifiedNeighbor T ptr) := by
  unfold notifiedNeighbor
  split
  case isTrue => exact .pure hpos
  case isFalse =>
    refine endsWhere_pod hpos hlen (E := fun (raw : Raw T .port) pos stop => raw.usize .tqeNext = 0 ∧
      Fills T s.buf stop pos [] (.chassis (raw.usize .pChassis) :: portItems raw))
      fun raw s' hbuf hpos' => .map ?_
    rw [← hbuf] at hlen ⊢
    unfold finishNotified
    split
    case isTrue hnext => exact .congr (fun _ => iff_of_false (fun h => hnext h.1) id) .throw
    case isFalse hnext =>
      refine .congr (fun _ => and_iff_right (not_not.mp hnext)) ?_
      exact (covers_buildNeighbor raw [] s' hpos' hlen).accepts.endsWhere.map

/-- What is behind a change ends where its texts and its port do. -/
lemma endsWhere_neighborChangeFields (raw : Raw T .neighborChange) :
    EndsWhere s (FillsBehind T s.buf raw s.pos) (neighborChangeFields T raw) := by
  have htexts : Covers T [] (fun _ => [])
      (pointed (raw.usize .ifname) .leaf ++ pointed (raw.usize .ifalias) .leaf)
      (readOptCstring T (raw.usize .ifname) >>= fun interface =>
        readOptCstring T (raw.usize .ifalias) >>= fun interfaceAlias =>
          pure (interface, interfaceAlias)) :=
    (covers_readOptCstring _).bind fun _ => (covers_readOptCstring _).map fun _ => rfl
  -- the texts are items of the grammar, the neighbor is not
  have hall := (htexts s hpos hlen).accepts.endsWhere.bind
    (F := fun mid stop => if raw.usize .neighbor = 0 then mid = stop else FillsPort T s.buf mid stop)
    (f := fun p => notifiedNeighbor T (raw.usize .neighbor) >>= fun neighbor =>
      pure (NeighborChange.mk (p.1.getD "") p.2 (.from (raw.i32 .state)) neighbor))
    fun p s' _ hbuf hpos' => by
      rw [← hbuf] at hlen ⊢
      exact (endsWhere_notifiedNeighbor hpos' hlen _).map
  simp only [bind_assoc, pure_bind] at hall
  exact hall

/-- A notification ends where the change does. -/
lemma endsWhere_neighborChange (hstart : s.pos = 0) :
    EndsWhere s (FillsChange T s.buf) (neighborChange T) := by
  have hroot : EndsWhere s (fun stop => ∃ h : PodFits T .neighborChange s,
      FillsBehind T s.buf (s.pod T .neighborChange h)
        (s.start T + 2 * T.ptrSize + sizeOf T .neighborChange) stop) (neighborChange T) :=
    endsWhere_pod hpos hlen (E := FillsBehind T s.buf) fun raw s' hbuf hpos' => by
      rw [← hbuf] at hlen ⊢
      exact endsWhere_neighborChangeFields hpos' hlen raw
  obtain ⟨buf, pos, calls⟩ := s
  obtain rfl : pos = 0 := hstart
  exact hroot

end

end

/-! ## Payloads -/

/-- A payload is decoded when there is an end. -/
lemma EndsWhere.decode_ok {p : List UInt8} {E : Nat → Prop} {d : Decode α}
    (h : EndsWhere (Cursor.new p) E d) : (∃ v, decode d p = .ok v) ↔ ∃ stop, E stop := by
  refine ⟨fun ⟨v, hv⟩ => ?_, fun ⟨stop, hE⟩ => ?_⟩
  · obtain ⟨stop, self, hok, hstop⟩ := decode_eq_ok.mp hv
    exact ⟨stop, (h.ends stop).mpr ⟨v, self, hok, hstop⟩⟩
  · obtain ⟨v, self, hok, hstop⟩ := (h.ends stop).mp hE
    exact ⟨v, decode_eq_ok.mpr ⟨stop, self, hok, hstop⟩⟩

section
variable {p : List UInt8} (hlen : p.length ≤ T.isizeMax)
include hlen

/-- A notification is decoded when the grammar derives it. -/
lemma decodeNeighborChange_ok :
    (∃ v, decodeNeighborChange T p = .ok v) ↔ ∃ stop, FillsChange T p stop :=
  (endsWhere_neighborChange (s := Cursor.new p) (Nat.zero_le _) hlen rfl).decode_ok

/-- One of the layouts has to accept the payload. -/
lemma decodeHardware_ok : (∃ v, decodeHardware T p = .ok v) ↔
    Fills T p p.length 0 [] [.pod .hardware] ∨
      Fills T p p.length 0 [] [.pod .hardwareWithFlagsPrevious] := by
  rw [← decodeHardwareAs_ok hlen fun _ => rfl, ← decodeHardwareAs_ok hlen fun _ => rfl]
  have h : Returns (decodeHardwareAs T .hardware p) := (contained_hardware .hardware hlen).returns
  have h' : Returns (decodeHardwareAs T .hardwareWithFlagsPrevious p) :=
    (contained_hardware .hardwareWithFlagsPrevious hlen).returns
  unfold decodeHardware
  -- the second layout is tried only after the first has failed
  obtain ⟨v, hv⟩ | ⟨msg, hmsg⟩ := h
  · rw [hv]
    exact iff_of_true ⟨v, rfl⟩ (.inl ⟨v, rfl⟩)
  · rw [hmsg]
    obtain ⟨v, hv⟩ | ⟨msg', hmsg'⟩ := h'
    · rw [hv]
      exact iff_of_true ⟨v, rfl⟩ (.inr ⟨v, rfl⟩)
    · rw [hmsg']
      refine iff_of_false ?_ ?_
      · rintro ⟨v, hv⟩
        cases hv
      · rintro (⟨v, hv⟩ | ⟨v, hv⟩)
        · cases hv
        · cases hv

end

/-- A value when the payload is as it has to be, and a protocol error otherwise. -/
def Decides (r : Except Fault α) (E : Prop) : Prop :=
  E ∧ (∃ v, r = .ok v) ∨ ¬ E ∧ ∃ msg, r = .error (protocol msg)

/-- A result with a condition for success is decided by it. -/
lemma Returns.decides {r : Except Fault α} (h : Returns r) {E : Prop} (hok : (∃ v, r = .ok v) ↔ E) :
    Decides r E := by
  obtain hv | ⟨msg, hmsg⟩ := h
  · exact .inl ⟨hok.mp hv, hv⟩
  · refine .inr ⟨fun hE => ?_, msg, hmsg⟩
    obtain ⟨v, hv⟩ := hok.mpr hE
    rw [hmsg] at hv
    cases hv

/-- A payload is accepted exactly when the grammar derives it, by all decoders: some of it for a list of
interfaces and for a change, and all of it, in one of the two layouts, for the details of an interface. Anything
else is a protocol error. Words are read as `read_native_usize` reads them, so where they are not read back the
grammar derives nothing. -/
theorem decoders_accept {p : List UInt8} (hlen : p.length ≤ T.isizeMax) :
    Decides (decodeInterfaces T p) (∃ stop, Fills T p stop 0 [] [.pod .interfaceList]) ∧
    Decides (decodeHardware T p) (Fills T p p.length 0 [] [.pod .hardware] ∨
      Fills T p p.length 0 [] [.pod .hardwareWithFlagsPrevious]) ∧
    Decides (decodeNeighborChange T p) (∃ stop, FillsChange T p stop) := by
  have h := allows_inside T
  have hinterfaces := contained (h.rules.interfaces all_anyKind) hlen
  have hchange := contained (h.rules.neighborChange all_anyKind) hlen
  exact ⟨hinterfaces.returns.decides (decodeInterfaces_ok hlen),
    (returns_decodeHardware hlen).decides (decodeHardware_ok hlen),
    hchange.returns.decides (decodeNeighborChange_ok hlen)⟩

/-- The three decoders on the details of an interface with two neighbors. -/
theorem decoders_accept_sampleHardware :
    let p := hardwareMessage (Naming.orig .lp64le) (sampleHeap .lp64le) (sampleHardware .lp64le)
    Decides (decodeInterfaces .lp64le p) (∃ stop, Fills .lp64le p stop 0 [] [.pod .interfaceList]) ∧
    Decides (decodeHardware .lp64le p) (Fills .lp64le p p.length 0 [] [.pod .hardware] ∨
      Fills .lp64le p p.length 0 [] [.pod .hardwareWithFlagsPrevious]) ∧
    Decides (decodeNeighborChange .lp64le p) (∃ stop, FillsChange .lp64le p stop) :=
  decoders_accept length_sampleHardware

/-! ## Bytes left over -/

/-- A run ends at the last byte exactly when no derivation stops before it. -/
lemma EndsWhere.leftover {p : List UInt8} {E : Nat → Prop} {d : Decode α}
    (h : EndsWhere (Cursor.new p) E d) :
    (∀ v k, DecodesTo d p v k → k = p.length) ↔ ¬ ∃ stop, stop < p.length ∧ E stop := by
  refine ⟨?_, fun hnone v k hk => ?_⟩
  · rintro hall ⟨stop, hlt, hE⟩
    obtain ⟨v, self, hok, hstop⟩ := (h.ends stop).mp hE
    exact absurd (hall v stop ⟨self, hok, hstop⟩) hlt.ne
  · obtain ⟨self, hok, rfl⟩ := hk
    obtain ⟨hbuf, hpos⟩ := h.inside v self hok
    rw [hbuf] at hpos
    by_contra hne
    exact hnone ⟨self.pos, lt_of_le_of_ne hpos hne, (h.ends self.pos).mpr ⟨v, self, hok, rfl⟩⟩

/-- What `decode_hardware` accepts, one of the two layouts has read to the last byte. -/
lemma decodeHardware_exhausts {p : List UInt8} (hlen : p.length ≤ T.isizeMax) {v : InterfaceDetails}
    (h : decodeHardware T p = .ok v) :
    DecodesTo (hardware T .hardware) p v p.length ∨
      DecodesTo (hardware T .hardwareWithFlagsPrevious) p v p.length := by
  have hall : ∀ (t : RawType) [HardwareFields t], decodeHardwareAs T t p = .ok v →
      DecodesTo (hardware T t) p v p.length := by
    intro t _ ht
    obtain ⟨k, hk⟩ := decode_eq_ok.mp ht
    have hend := hardware_exhausts hlen hk
    rwa [hend] at hk
  unfold decodeHardware at h
  split at h
  case h_1 details hok =>
    cases h
    exact Or.inl (hall .hardware hok)
  case h_2 => cases h
  case h_3 =>
    split at h
    case h_1 details hok =>
      cases h
      exact Or.inr (hall .hardwareWithFlagsPrevious hok)
    case h_2 => cases h
    case h_3 => cases h

/-- `decode_hardware` accepts nothing with bytes left over. The two others do exactly when the grammar derives a
message that stops before the end of the payload. -/
theorem leftover_bytes {p : List UInt8} (hlen : p.length ≤ T.isizeMax) :
    ((∀ v k, DecodesTo (interfaces T) p v k → k = p.length) ↔
      ¬ ∃ stop, stop < p.length ∧ Fills T p stop 0 [] [.pod .interfaceList]) ∧
    ((∀ v k, DecodesTo (neighborChange T) p v k → k = p.length) ↔
      ¬ ∃ stop, stop < p.length ∧ FillsChange T p stop) ∧
    (∀ v, decodeHardware T p = .ok v →
      DecodesTo (hardware T .hardware) p v p.length ∨
        DecodesTo (hardware T .hardwareWithFlagsPrevious) p v p.length) := by
  have hinterfaces : Covers T [] (fun _ => []) [.pod .interfaceList] (interfaces T) := covers_interfaces
  refine ⟨?_, ?_, fun v hv => decodeHardware_exhausts hlen hv⟩
  · exact (hinterfaces (Cursor.new p) (Nat.zero_le _) hlen).accepts.endsWhere.leftover
  · exact (endsWhere_neighborChange (s := Cursor.new p) (Nat.zero_le _) hlen rfl).leftover

/-- What is left over of the list of two interfaces. -/
theorem leftover_bytes_twoInterfaces :
    (∀ v k, DecodesTo (interfaces .lp64le)
      (interfacesMessage (.zeroed _ _) (twoInterfaces .lp64le)) v k →
        k = (interfacesMessage (.zeroed _ _) (twoInterfaces .lp64le)).length) ↔
      ¬ ∃ stop, stop < (interfacesMessage (.zeroed _ _) (twoInterfaces .lp64le)).length ∧
        Fills .lp64le (interfacesMessage (.zeroed _ _) (twoInterfaces .lp64le)) stop 0 []
          [.pod .interfaceList] :=
  (leftover_bytes (by decide +kernel)).1

/-- The empty list and a byte more. -/
def emptyListAndMore : List UInt8 :=
  interfacesMessage (.zeroed .lp64le _) [] ++ [0]

/-- The byte is not read, and not missed. -/
theorem leftover_emptyListAndMore :
    ∃ k, DecodesTo (interfaces .lp64le) emptyListAndMore [] k ∧ k ≠ emptyListAndMore.length := by
  have hok : decode (interfaces .lp64le) emptyListAndMore = .ok [] := by decide +kernel
  have hpos : (final (interfaces .lp64le (Cursor.new emptyListAndMore))).pos ≠
      emptyListAndMore.length := by decide +kernel
  obtain ⟨k, self, hself, rfl⟩ := decode_eq_ok.mp hok
  rw [hself] at hpos
  exact ⟨self.pos, ⟨self, hself, rfl⟩, hpos⟩

/-! ## Targets -/

/-- Where words are not read back every chunk declares nothing, so no structure fits. -/
lemma not_podFits (hT : ¬ ReadsWords T) {k : RawType} {s : Cursor} : ¬ PodFits T k s := by
  rintro ⟨hend, hsize⟩
  have hinside : s.start T + T.ptrSize + T.ptrSize ≤ s.buf.length := by omega
  have hzero : s.declared T = 0 := wordAt_eq_zero hT hinside
  have hpos := T.ptrSize_pos
  omega

/-- Where the condition fails the result is a protocol error. -/
lemma Decides.rejects {r : Except Fault α} {E : Prop} (h : Decides r E) (hE : ¬ E) :
    ∃ msg, r = .error (protocol msg) := by
  obtain ⟨hF, -⟩ | ⟨-, hmsg⟩ := h
  · exact absurd hF hE
  · exact hmsg

/-- No decoder accepts anything there. -/
lemma decoders_reject (hT : ¬ ReadsWords T) {p : List UInt8} (hlen : p.length ≤ T.isizeMax) :
    (∃ msg, decodeInterfaces T p = .error (protocol msg)) ∧
      (∀ (k : RawType) [HardwareFields k], ∃ msg, decodeHardwareAs T k p = .error (protocol msg)) ∧
      (∃ msg, decodeNeighborChange T p = .error (protocol msg)) := by
  have hinterfaces := contained ((allows_inside T).rules.interfaces all_anyKind) hlen
  have hchange := contained ((allows_inside T).rules.neighborChange all_anyKind) hlen
  refine ⟨?_, fun k _ => ?_, ?_⟩
  · refine (hinterfaces.returns.decides (decodeInterfaces_ok hlen)).rejects ?_
    rintro ⟨stop, hfills⟩
    exact not_podFits hT (fills_pod.mp hfills).1
  · obtain ⟨v, hv⟩ | hmsg := (contained_hardware k hlen).returns
    · obtain ⟨_, self, hok, -⟩ := decode_eq_ok.mp hv
      obtain ⟨raw, s', hraw, -⟩ := bind_eq_ok hok
      exact absurd (podFits_of_ok (Nat.zero_le _) hlen hraw) (not_podFits hT)
    · exact hmsg
  · refine (hchange.returns.decides (decodeNeighborChange_ok hlen)).rejects ?_
    rintro ⟨stop, hfits, -⟩
    exact not_podFits hT hfits

/-- In both layouts decoding undoes encoding for `GET_INTERFACE`, on the targets on which words are read back and on
no other: there no payload of any kind is accepted, by whatever it was written. -/
theorem hardware_on_targets {κ : Type} [DecidableEq κ] (heap : κ → ChassisNode T) {k : RawType}
    [HardwareFields k] (x : HardwareNode T κ k)
    (hlen : (hardwareMessage (Naming.orig T) heap x).length ≤ T.isizeMax) :
    (decodeHardwareAs T k (hardwareMessage (Naming.orig T) heap x) = .ok (x.value heap) ↔ ReadsWords T) ∧
      (ReadsWords T ∨ ∀ p : List UInt8, p.length ≤ T.isizeMax →
        (∃ msg, decodeInterfaces T p = .error (protocol msg)) ∧
        (∀ (k : RawType) [HardwareFields k], ∃ msg, decodeHardwareAs T k p = .error (protocol msg)) ∧
        ∃ msg, decodeNeighborChange T p = .error (protocol msg)) := by
  by_cases hT : ReadsWords T
  · exact ⟨iff_of_true (decodeHardwareAs_hardwareMessage _ heap hT x hlen) hT, .inl hT⟩
  · refine ⟨iff_of_false (fun hok => ?_) hT, .inr fun p hp => decoders_reject hT hp⟩
    obtain ⟨-, hreject, -⟩ := decoders_reject hT hlen
    obtain ⟨msg, herr⟩ := hreject k
    rw [herr] at hok
    cases hok

/-- The sample on the 32-bit big-endian target. -/
theorem hardware_on_targets_ilp32be :
    (decodeHardwareAs .ilp32be .hardware (hardwareMessage (Naming.orig .ilp32be) (sampleHeap .ilp32be)
        (sampleHardware .ilp32be)) = .ok ((sampleHardware .ilp32be).value (sampleHeap .ilp32be)) ↔
      ReadsWords .ilp32be) ∧
      (ReadsWords .ilp32be ∨ ∀ p : List UInt8, p.length ≤ Target.ilp32be.isizeMax →
        (∃ msg, decodeInterfaces .ilp32be p = .error (protocol msg)) ∧
        (∀ (k : RawType) [HardwareFields k],
          ∃ msg, decodeHardwareAs .ilp32be k p = .error (protocol msg)) ∧
        ∃ msg, decodeNeighborChange .ilp32be p = .error (protocol msg)) :=
  hardware_on_targets (sampleHeap .ilp32be) (sampleHardware .ilp32be) (by decide +kernel)

end Rlldpctl.Wire
