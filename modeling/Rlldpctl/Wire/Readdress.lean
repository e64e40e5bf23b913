import Rlldpctl.Lib.Mirror
import Rlldpctl.Wire.Calls
import Rlldpctl.Wire.Tree

/-!
# Payloads with other addresses

Two payloads are `Readdressed` when they differ only in what the sender keeps for itself at the places
that are read: the old addresses and the padding in front of chunks, the sizes of markers, the sizes of
structures that still cover them, the fields that no decoder uses, and the values of the pointers that
are not null. The pointers to chassis go through one injective renaming. The decoders make the same of
both.
-/

namespace Rlldpctl.Wire
open ByteReader CLayout NativeBytes Utf8

variable {T : Target}

/-! ## What two structures have in common -/

/-- The pointer fields that are followed; `p_chassis` apart, which is compared with other pointers. -/
def followed : (k : RawType) → List k.Field
  | .mgmt => [.tqeNext]
  | .vlan => [.tqeNext, .vName]
  | .ppvid => [.tqeNext]
  | .pi => [.tqeNext, .pPi]
  | .medLoc => [.data]
  | .chassis =>
    [.cId, .cName, .cDescr, .cMgmtTqhFirst, .cMedHw, .cMedFw, .cMedSw, .cMedSn, .cMedManuf,
      .cMedModel, .cMedAsset]
  | .port =>
    [.tqeNext, .pId, .pDescr, .pVlanAdvertisePattern, .pVlansTqhFirst, .pPpvidsTqhFirst,
      .pPidsTqhFirst]
  | .interface => [.nextTqeNext, .name, .alias]
  | .interfaceList => [.tqhFirst]
  | .hardware => [.hRportsTqhFirst, .hIfalias]
  | .hardwareWithFlagsPrevious => [.legacy .hRportsTqhFirst, .legacy .hIfalias]
  | .neighborChange => [.ifname, .ifalias, .neighbor]
  | .portSet => []

/-- The fields whose values are surfaced. -/
def surfaced : (k : RawType) → List k.Field
  | .mgmt => [.mFamily, .mAddr, .mAddrsize, .mIface]
  | .chassis => [.cIdSubtype, .cCapAvailable, .cCapEnabled]
  | .port => [.pIdSubtype, .pTtl]
  | .hardware => [.hIfname, .hLladdr]
  | .hardwareWithFlagsPrevious => [.legacy .hIfname, .legacy .hLladdr]
  | .neighborChange => [.state]
  | .vlan | .ppvid | .pi | .medLoc | .interface | .interfaceList | .portSet => []

/-- The same pointers are null. -/
def SameLinks {k : RawType} (x y : Raw T k) : Prop :=
  ∀ f ∈ followed k, x.usize f = 0 ↔ y.usize f = 0

/-- The values that are surfaced are the same. -/
def SameValues {k : RawType} (x y : Raw T k) : Prop :=
  ∀ f ∈ surfaced k, x.get f = y.get f

section
variable (ρ : Nat → Nat)

/-- The pointers of a port. -/
structure SamePort (x y : Raw T .port) : Prop where
  links : SameLinks x y
  chassis : y.usize .pChassis = ρ (x.usize .pChassis)
  medLocation : ∀ i, SameLinks (pMedLocation x i) (pMedLocation y i)

/-- Two structures that differ in what is not used and in the values of pointers only. The local port of
an interface surfaces nothing of its own. -/
def SameRaw : (k : RawType) → Raw T k → Raw T k → Prop
  | .port, x, y => SamePort ρ x y ∧ SameValues x y
  | .hardware, x, y => SamePort ρ x.hLport y.hLport ∧ SameLinks x y ∧ SameValues x y
  | .hardwareWithFlagsPrevious, x, y =>
    SamePort ρ x.hLport y.hLport ∧ SameLinks x y ∧ SameValues x y
  | .mgmt, x, y | .vlan, x, y | .ppvid, x, y | .pi, x, y | .medLoc, x, y | .chassis, x, y
  | .interface, x, y | .interfaceList, x, y | .neighborChange, x, y | .portSet, x, y =>
    SameLinks x y ∧ SameValues x y

/-! ## What two payloads have in common -/

/-- The size that the chunk a call consumes declares. -/
def Call.declared (T : Target) (buf : List UInt8) (c : Call) : Nat :=
  wordAt T buf (alignUp c.pos T.ptrSize + T.ptrSize)

/-- A call that consumes the same chunk of `p` as of `q`: of a leaf the size and the content, of a
structure what is used, if the size covers it. -/
def Call.Same (T : Target) (p q : List UInt8) (c : Call) : Prop :=
  match c.kind with
  | .marker => True
  | .leaf => c.declared T p = c.declared T q ∧ c.bytes T p = c.bytes T q
  | .pod k =>
    (c.declared T p = c.declared T q ∨
      2 * T.ptrSize + sizeOf T k ≤ c.declared T p ∧ 2 * T.ptrSize + sizeOf T k ≤ c.declared T q) ∧
    (2 * T.ptrSize + sizeOf T k ≤ c.declared T p →
      ∀ (h : (c.bytes T p).length = sizeOf T k) (h' : (c.bytes T q).length = sizeOf T k),
        SameRaw ρ k ⟨c.bytes T p, h⟩ ⟨c.bytes T q, h'⟩)

/-- The pointers are compared one after another. -/
instance {k : RawType} (x y : Raw T k) : Decidable (SameLinks x y) :=
  inferInstanceAs (Decidable (∀ f ∈ followed k, x.usize f = 0 ↔ y.usize f = 0))

/-- The values are compared one after another. -/
instance {k : RawType} (x y : Raw T k) : Decidable (SameValues x y) :=
  inferInstanceAs (Decidable (∀ f ∈ surfaced k, x.get f = y.get f))

/-- Ports are compared by their pointers. -/
instance (x y : Raw T .port) : Decidable (SamePort ρ x y) :=
  decidable_of_iff (SameLinks x y ∧ y.usize .pChassis = ρ (x.usize .pChassis) ∧
      ∀ i, SameLinks (pMedLocation x i) (pMedLocation y i))
    ⟨fun ⟨hlinks, hchassis, hloc⟩ => ⟨hlinks, hchassis, hloc⟩,
      fun ⟨hlinks, hchassis, hloc⟩ => ⟨hlinks, hchassis, hloc⟩⟩

/-- Structures are compared by their kind. -/
instance : (k : RawType) → (x y : Raw T k) → Decidable (SameRaw ρ k x y)
  | .port, x, y => inferInstanceAs (Decidable (SamePort ρ x y ∧ SameValues x y))
  | .hardware, x, y | .hardwareWithFlagsPrevious, x, y =>
    inferInstanceAs (Decidable (SamePort ρ x.hLport y.hLport ∧ SameLinks x y ∧ SameValues x y))
  | .mgmt, x, y | .vlan, x, y | .ppvid, x, y | .pi, x, y | .medLoc, x, y | .chassis, x, y
  | .interface, x, y | .interfaceList, x, y | .neighborChange, x, y | .portSet, x, y =>
    inferInstanceAs (Decidable (SameLinks x y ∧ SameValues x y))

/-- Calls are compared by what they consume. -/
instance (p q : List UInt8) : (c : Call) → Decidable (c.Same ρ T p q)
  | ⟨.marker, _⟩ => inferInstanceAs (Decidable True)
  | ⟨.leaf, _⟩ => inferInstanceAs (Decidable (_ ∧ _))
  | ⟨.pod _, _⟩ => inferInstanceAs (Decidable ((_ ∨ _ ∧ _) ∧ (_ → ∀ _ _, SameRaw ρ _ _ _)))

/-- `q` is `p` with other addresses where the run of `d` on `p` reads. -/
structure Readdressed {α : Type} (T : Target) (d : Decode α) (p q : List UInt8) : Prop where
  length_eq : q.length = p.length
  calls : ∀ c ∈ (final (d (Cursor.new p))).calls, c.Same ρ T p q

/-- A renaming of pointers. -/
structure Renaming : Prop where
  injective : ρ.Injective
  null : ρ 0 = 0

end

/-! ## The readers -/

/-- Nothing is noted in the trace. -/
def Quiet {α : Type} (d : Decode α) : Prop :=
  ∀ self, (final (d self)).calls = self.calls

/-- Two quiet steps, one after the other. -/
lemma Quiet.bind {α β : Type} {d : Decode α} {f : α → Decode β} (hd : Quiet d)
    (hf : ∀ a, Quiet (f a)) : Quiet (d >>= f) := by
  intro self
  have h := hd self
  cases hx : d self with
  | ok a self' =>
    rw [hx] at h
    rw [bind_ok hx, hf a self']
    exact h
  | error e self' =>
    rw [hx] at h
    rw [bind_error hx]
    exact h

/-- Returning a value is quiet. -/
lemma Quiet.pure {α : Type} (a : α) : Quiet (Pure.pure a) := fun _ => rfl

/-- Failing is quiet. -/
lemma Quiet.throw {α : Type} (e : Fault) : Quiet (MonadExcept.throw e : Decode α) := fun _ => rfl

/-- Looking at the cursor is quiet. -/
lemma Quiet.get : Quiet (MonadState.get : Decode Cursor) := fun _ => rfl

/-- A pure step is quiet. -/
lemma Quiet.ofExcept {α : Type} (x : Except Fault α) : Quiet (ofExcept x : Decode α) := by
  intro self
  cases x with
  | ok a => rfl
  | error e => rfl

/-- A branch between quiet steps is quiet. -/
lemma Quiet.ite {α : Type} {c : Prop} [Decidable c] {d d' : Decode α} (hd : Quiet d)
    (hd' : Quiet d') : Quiet (if c then d else d') := by
  split
  case isTrue => exact hd
  case isFalse => exact hd'

/-- Moving the cursor is quiet. -/
lemma quiet_setPos (pos : Nat) : Quiet (setPos pos) := fun _ => rfl

/-- `need` is quiet. -/
lemma quiet_need (n : Nat) : Quiet (need T n) :=
  .bind .get fun _ => .ite (.throw _) (.pure _)

/-- `read_raw` is quiet. -/
lemma quiet_readRaw (n : Nat) : Quiet (readRaw T n) := by
  refine .bind (quiet_need n) fun _ => .bind .get fun _ => ?_
  refine .bind (.ofExcept _) fun stop => .bind (.ofExcept _) fun bytes => ?_
  exact .bind (quiet_setPos _) fun _ => .pure _

/-- `chunk_header` is quiet, since its callers record the call. -/
lemma quiet_chunkHeader : Quiet (chunkHeader T) := by
  refine .bind .get fun _ => .bind (.ofExcept _) fun aligned => .bind (.ofExcept _) fun pad => ?_
  refine .bind (.ofExcept _) fun pos => .bind (quiet_setPos pos) fun _ => ?_
  refine .bind (quiet_need _) fun _ => .bind (.ofExcept _) fun mid => ?_
  refine .bind (.ofExcept _) fun stop => .bind (.ofExcept _) fun origBytes => ?_
  refine .bind (.ofExcept _) fun orig => .bind (.ofExcept _) fun sizeBytes => ?_
  exact .bind (.ofExcept _) fun size => .bind (quiet_setPos _) fun _ => .pure _

/-- A call that is noted first is in the trace, however it ends. -/
lemma Quiet.called {α : Type} {d : Decode α} (hd : Quiet d) (kind : ChunkKind) (self : Cursor) :
    (⟨kind, self.pos⟩ : Call) ∈ (final ((record kind >>= fun _ => d) self)).calls := by
  show _ ∈ (final (d (self.advance kind self.pos))).calls
  rw [hd]
  exact List.mem_append_right _ (List.mem_singleton_self _)

/-- A leaf records its call, also when it fails. -/
lemma called_leaf (self : Cursor) : (⟨.leaf, self.pos⟩ : Call) ∈ (final (leaf T self)).calls := by
  refine Quiet.called (.bind quiet_chunkHeader fun r => .ite (.throw _) ?_) .leaf self
  exact .bind (quiet_readRaw _) fun content => .pure _

/-- A structure records its call, also when it fails. -/
lemma called_readChunkPod (k : RawType) (self : Cursor) :
    (⟨.pod k, self.pos⟩ : Call) ∈ (final (readChunkPod T k self)).calls := by
  refine Quiet.called (.bind quiet_chunkHeader fun r => .bind (.ofExcept _) fun least => ?_)
    (.pod k) self
  exact .ite (.throw _) (.bind (quiet_readRaw _) fun bytes => .ofExcept _)

section
variable {ρ : Nat → Nat} {p q : List UInt8} (hq : q.length = p.length) (hlen : p.length ≤ T.isizeMax)

/-- The payloads `p` and `q`, and the calls that consume the same of both. -/
abbrev readdressing (ρ : Nat → Nat) (hq : q.length = p.length) (hlen : p.length ≤ T.isizeMax) :
    Mirror Fault Call :=
  ⟨p, q, Call.Same ρ T p q, T.isizeMax, .panic, hq, hlen⟩

variable {hq hlen}

/-- Both runs reject. -/
lemma Rejects.related {α α' : Type} {A : α → α' → Prop} {M : Mirror Fault Call} {self self' : Cursor}
    {r : EStateM.Result Fault Cursor α} {r' : EStateM.Result Fault Cursor α'} (h : Rejects self r)
    (h' : Rejects self' r') : M.Related A r r' := by
  obtain ⟨e, s, rfl⟩ := h.error
  obtain ⟨e', s', rfl⟩ := h'.error
  trivial

section
variable {self self' : Cursor} (ht : (readdressing ρ hq hlen).Twins self self')
include ht

/-- The next chunk starts at the same position in both. -/
lemma start_twins : self'.start T = self.start T :=
  congrArg (roundUp · T.ptrSize) ht.pos

/-- Both buffers have one length. -/
lemma length_twins : self'.buf.length = self.buf.length := by
  rw [ht.left, ht.right]
  exact hq

/-- The buffer on the left is one of the payloads, so it fits a slice. -/
lemma length_left : self.buf.length ≤ T.isizeMax := by
  rw [ht.left]
  exact hlen

/-- The position is inside the buffer on the left. -/
lemma inside_left : self.pos ≤ self.buf.length := by
  rw [ht.left]
  exact ht.inside

/-- The buffer on the right fits a slice too. -/
lemma length_right : self'.buf.length ≤ T.isizeMax := by
  rw [length_twins ht]
  exact length_left ht

/-- The position is inside the buffer on the right. -/
lemma inside_right : self'.pos ≤ self'.buf.length := by
  rw [length_twins ht, ht.pos]
  exact inside_left ht

/-- The same position after a chunk. -/
lemma twins_advance (kind : ChunkKind) {stop : Nat} (hstop : stop ≤ self.buf.length) :
    (readdressing ρ hq hlen).Twins (self.advance kind stop) (self'.advance kind stop) :=
  ⟨ht.left, ht.right, rfl, ht.left ▸ hstop⟩

/-- What the next call declares on the left is what the payload has there. -/
lemma declared_left (kind : ChunkKind) :
    (⟨kind, self.pos⟩ : Call).declared T p = self.declared T := by
  have hleft : self.buf = p := ht.left
  rw [← hleft]
  rfl

/-- What the next call declares on the right is what the other payload has there. -/
lemma declared_right (kind : ChunkKind) :
    (⟨kind, self.pos⟩ : Call).declared T q = self'.declared T := by
  have hright : self'.buf = q := ht.right
  rw [← hright, ← ht.pos]
  rfl

/-- What the next call consumes on the left is what the payload has there. -/
lemma bytes_left (kind : ChunkKind) :
    (⟨kind, self.pos⟩ : Call).bytes T self.buf = (⟨kind, self.pos⟩ : Call).bytes T p := by
  rw [ht.left]

/-- What the next call consumes on the right is what the other payload has there. -/
lemma bytes_right (kind : ChunkKind) :
    (⟨kind, self'.pos⟩ : Call).bytes T self'.buf = (⟨kind, self.pos⟩ : Call).bytes T q := by
  rw [ht.pos, ht.right]

end

/-- Markers reflect each other, whatever they declare. -/
lemma reflects_marker : (readdressing ρ hq hlen).Reflects (· = ·) (consumeSubstructMarker T)
    (consumeSubstructMarker T) := by
  refine ⟨safe_consumeSubstructMarker, fun (self : Cursor) (self' : Cursor) ht _ => ?_⟩
  have hstart := start_twins ht
  have hboth : self'.start T + 2 * T.ptrSize ≤ self'.buf.length ↔
      self.start T + 2 * T.ptrSize ≤ self.buf.length := by
    rw [hstart, length_twins ht]
  by_cases hfits : self.start T + 2 * T.ptrSize ≤ self.buf.length
  · rw [consumeSubstructMarker_ok (length_left ht) hfits,
      consumeSubstructMarker_ok (length_right ht) (hboth.mpr hfits), hstart]
    exact ⟨rfl, twins_advance ht .marker hfits⟩
  · exact (consumeSubstructMarker_rejects (inside_left ht) (length_left ht) hfits).related
      (consumeSubstructMarker_rejects (inside_right ht) (length_right ht) (mt hboth.mp hfits))

/-- Leaves that are the same reflect each other; their old addresses are dropped. -/
lemma reflects_leaf :
    (readdressing ρ hq hlen).Reflects (fun r r' => r.2 = r'.2) (leaf T) (leaf T) := by
  refine ⟨safe_leaf, fun (self : Cursor) (self' : Cursor) ht hsame => ?_⟩
  obtain ⟨hdeclared, hbytes⟩ : (⟨.leaf, self.pos⟩ : Call).Same ρ T p q :=
    hsame _ (called_leaf self)
  rw [declared_left ht, declared_right ht] at hdeclared
  have hstart := start_twins ht
  have hboth : LeafFits T self' ↔ LeafFits T self := by
    rw [LeafFits, LeafFits, hstart, length_twins ht, ← hdeclared]
  by_cases hfits : LeafFits T self
  · have hstop : self'.start T + self'.declared T = self.start T + self.declared T := by
      rw [hstart, hdeclared]
    rw [leaf_ok (length_left ht) hfits, leaf_ok (length_right ht) (hboth.mpr hfits), hstop]
    refine ⟨?_, twins_advance ht .leaf hfits.2.2⟩
    exact (bytes_left ht .leaf).trans (hbytes.trans (bytes_right ht .leaf).symm)
  · exact (leaf_rejects (inside_left ht) (length_left ht) hfits).related
      (leaf_rejects (inside_right ht) (length_right ht) (mt hboth.mp hfits))

/-- Structures that are the same reflect each other up to what is not used. -/
lemma reflects_readChunkPod (k : RawType) :
    (readdressing ρ hq hlen).Reflects (SameRaw ρ k) (readChunkPod T k) (readChunkPod T k) := by
  refine ⟨safe_readChunkPod, fun (self : Cursor) (self' : Cursor) ht hsame => ?_⟩
  obtain ⟨hdeclared, hraw⟩ : (⟨.pod k, self.pos⟩ : Call).Same ρ T p q :=
    hsame _ (called_readChunkPod k self)
  rw [declared_left ht, declared_right ht] at hdeclared
  rw [declared_left ht] at hraw
  have hstart := start_twins ht
  have hcovers : 2 * T.ptrSize + sizeOf T k ≤ self.declared T ↔
      2 * T.ptrSize + sizeOf T k ≤ self'.declared T := by
    obtain heq | ⟨hleft, hright⟩ := hdeclared
    · rw [heq]
    · exact iff_of_true hleft hright
  have hboth : PodFits T k self' ↔ PodFits T k self := by
    rw [PodFits, PodFits, hstart, length_twins ht, ← hcovers]
  by_cases hfits : PodFits T k self
  · have hfits' := hboth.mpr hfits
    have hstop : self'.start T + 2 * T.ptrSize + sizeOf T k =
        self.start T + 2 * T.ptrSize + sizeOf T k := by
      rw [hstart]
    rw [readChunkPod_ok (length_left ht) hfits, readChunkPod_ok (length_right ht) hfits', hstop]
    have hleft : ∀ h, self.pod T k hfits = ⟨(⟨.pod k, self.pos⟩ : Call).bytes T p, h⟩ :=
      fun _ => Pod.ext (bytes_left ht (.pod k))
    have hright : ∀ h, self'.pod T k hfits' = ⟨(⟨.pod k, self.pos⟩ : Call).bytes T q, h⟩ :=
      fun _ => Pod.ext (bytes_right ht (.pod k))
    have hlength : ((⟨.pod k, self.pos⟩ : Call).bytes T p).length = sizeOf T k := by
      rw [← bytes_left ht]
      exact length_slice hfits.1
    have hlength' : ((⟨.pod k, self.pos⟩ : Call).bytes T q).length = sizeOf T k := by
      rw [← bytes_right ht]
      exact length_slice hfits'.1
    refine ⟨?_, twins_advance ht (.pod k) hfits.1⟩
    rw [hleft hlength, hright hlength']
    exact hraw hfits.2 hlength hlength'
  · exact (readChunkPod_rejects (inside_left ht) (length_left ht) hfits).related
      (readChunkPod_rejects (inside_right ht) (length_right ht) (mt hboth.mp hfits))

/-! ## The decoders -/

/-- Texts reflect each other when the same pointers are null. -/
lemma reflects_readOptCstring {v w : Nat} (h : v = 0 ↔ w = 0) :
    (readdressing ρ hq hlen).Reflects (· = ·) (readOptCstring T v) (readOptCstring T w) := by
  refine .ite h (.pure rfl) ?_
  refine reflects_leaf.bind_total (fun r => ⟨r, rfl⟩) fun r r' hr => .pure ?_
  exact congrArg (fun body => some (fromUtf8Lossy (stripNul body))) hr

/-- Bytes reflect each other when the same pointers are null. -/
lemma reflects_readOptBytes {v w : Nat} (h : v = 0 ↔ w = 0) :
    (readdressing ρ hq hlen).Reflects (· = ·) (readOptBytes T v) (readOptBytes T w) := by
  refine .ite h (.pure rfl) ?_
  refine reflects_leaf.bind_total (fun r => ⟨r, rfl⟩) fun r r' hr => .pure ?_
  exact congrArg some hr

section
variable {k : RawType} {x y : Raw T k}

/-- A pointer that is followed is null on both sides or on none. -/
lemma SameLinks.ne (h : SameLinks x y) {f : k.Field} (hf : f ∈ followed k) :
    x.usize f ≠ 0 ↔ y.usize f ≠ 0 :=
  not_congr (h f hf)

/-- The code asks the same of a pointer on both sides. -/
lemma SameLinks.bne (h : SameLinks x y) {f : k.Field} (hf : f ∈ followed k) :
    (x.usize f != 0) = (y.usize f != 0) :=
  Bool.eq_iff_iff.mpr (bne_iff_ne.trans ((h.ne hf).trans bne_iff_ne.symm))

/-- The structures that hold no pointer to a chassis. -/
def Plain (T : Target) (ρ : Nat → Nat) (k : RawType) : Prop :=
  ∀ x y : Raw T k, SameRaw ρ k x y ↔ SameLinks x y ∧ SameValues x y

/-- A plain structure has a counterpart, itself. -/
lemma Plain.refl (hk : Plain T ρ k) (x : Raw T k) : ∃ y, SameRaw ρ k x y :=
  ⟨x, (hk x x).mpr ⟨fun _ _ => Iff.rfl, fun _ _ => rfl⟩⟩

/-- A plain structure and what is read behind it reflect each other. -/
lemma reflects_plain {β : Type} {f : Raw T k → Decode β} (hk : Plain T ρ k)
    (hf : ∀ x y, SameLinks x y → SameValues x y →
      (readdressing ρ hq hlen).Reflects (· = ·) (f x) (f y)) :
    (readdressing ρ hq hlen).Reflects (· = ·) (readChunkPod T k >>= f) (readChunkPod T k >>= f) :=
  (reflects_readChunkPod k).bind_total hk.refl fun x y h =>
    hf x y ((hk x y).mp h).1 ((hk x y).mp h).2

/-- Lists of plain structures reflect each other. -/
lemma reflects_elements {α : Type} {next : k.Field} {finish : Raw T k → Decode α}
    (hk : Plain T ρ k) (hnext : next ∈ followed k)
    (hf : ∀ x y, SameLinks x y → SameValues x y →
      (readdressing ρ hq hlen).Reflects (· = ·) (finish x) (finish y)) :
    (readdressing ρ hq hlen).Reflects (· = ·) (elements T next finish) (elements T next finish) := by
  have hsafe : ∀ raw, Safely T (finish raw) := fun raw =>
    (hf raw raw (fun _ _ => Iff.rfl) fun _ _ => rfl).safe
  unfold elements
  refine .bind_total (.chain (C := (· = ·)) (D := (· = ·)) (reflects_readChunkPod k) ?_ ?_ ?_ rfl)
    (fun r => ⟨r, ?_, rfl⟩) fun r r' hr => .pure ?_
  · exact fun x y h => ((hk x y).mp h).1.bne hnext
  · exact fun raw _ => .bind (hsafe raw) fun a => .pure (a, ())
  · intro x y h _ _ _
    obtain ⟨hlinks, hvalues⟩ := (hk x y).mp h
    exact (hf x y hlinks hvalues).bind_eq fun a => .pure ⟨rfl, rfl⟩
  · rw [List.forall₂_eq_eq_eq]
  · obtain ⟨hout, -⟩ := hr
    rwa [List.forall₂_eq_eq_eq] at hout

end

/-- Lists of interfaces reflect each other. -/
lemma reflects_interfaces :
    (readdressing ρ hq hlen).Reflects (· = ·) (interfaces T) (interfaces T) := by
  refine reflects_plain (k := .interfaceList) (fun _ _ => Iff.rfl) fun x y hlinks _ => ?_
  refine .ite (hlinks .tqhFirst (by decide)) (.pure rfl) ?_
  refine reflects_elements (k := .interface) (fun _ _ => Iff.rfl) (by decide) fun x y hlinks _ => ?_
  refine (reflects_readOptCstring (hlinks .name (by decide))).bind_eq fun name => ?_
  exact (reflects_readOptCstring (hlinks .alias (by decide))).bind_eq fun ifalias => .pure rfl

section
variable {k : RawType} {x y : Raw T k} {f : k.Field}

/-- A byte is read from its field only. -/
lemma u8_congr (h : x.get f = y.get f) : x.u8 f = y.u8 f := by
  rw [Raw.u8, Raw.u8, h]

/-- Two bytes are read from their field only. -/
lemma u16_congr (h : x.get f = y.get f) : x.u16 f = y.u16 f := by
  rw [Raw.u16, Raw.u16, h]

/-- Four bytes are read from their field only. -/
lemma u32_congr (h : x.get f = y.get f) : x.u32 f = y.u32 f := by
  rw [Raw.u32, Raw.u32, h]

/-- A word is read from its field only. -/
lemma usize_congr (h : x.get f = y.get f) : x.usize f = y.usize f := by
  rw [Raw.usize, Raw.usize, h]

end

/-- A management address is made of the values that are surfaced. -/
lemma finishMgmt_congr {x y : Raw T .mgmt} (h : SameValues x y) :
    finishMgmt T x = finishMgmt T y := by
  rw [finishMgmt_eq, finishMgmt_eq, u32_congr (h .mFamily (by decide)),
    usize_congr (h .mAddrsize (by decide)), u32_congr (h .mIface (by decide)),
    h .mAddr (by decide)]

/-- Lists of management addresses reflect each other. -/
lemma reflects_decodeMgmtChain :
    (readdressing ρ hq hlen).Reflects (· = ·) (decodeMgmtChain T) (decodeMgmtChain T) := by
  refine reflects_elements (fun _ _ => Iff.rfl) (by decide) fun x y _ hvalues => ?_
  rw [finishMgmt_congr hvalues, finishMgmt_eq]
  exact .pure rfl

/-- Chassis reflect each other. -/
lemma reflects_decodeChassis :
    (readdressing ρ hq hlen).Reflects (· = ·) (decodeChassis T) (decodeChassis T) := by
  refine reflects_plain (k := .chassis) (fun _ _ => Iff.rfl) fun x y hlinks hvalues => ?_
  rw [← u8_congr (hvalues .cIdSubtype (by decide)), ← u16_congr (hvalues .cCapAvailable (by decide)),
    ← u16_congr (hvalues .cCapEnabled (by decide))]
  refine (reflects_readOptBytes (hlinks .cId (by decide))).bind_eq fun id => ?_
  refine (reflects_readOptCstring (hlinks .cName (by decide))).bind_eq fun name => ?_
  refine (reflects_readOptCstring (hlinks .cDescr (by decide))).bind_eq fun description => ?_
  have hmgmt := hlinks.ne (f := .cMgmtTqhFirst) (by decide)
  refine (Mirror.Reflects.ite hmgmt reflects_decodeMgmtChain (.pure rfl)).bind_eq fun mgmt => ?_
  refine (reflects_readOptCstring (hlinks .cMedHw (by decide))).bind_eq fun hw => ?_
  refine (reflects_readOptCstring (hlinks .cMedFw (by decide))).bind_eq fun fw => ?_
  refine (reflects_readOptCstring (hlinks .cMedSw (by decide))).bind_eq fun sw => ?_
  refine (reflects_readOptCstring (hlinks .cMedSn (by decide))).bind_eq fun sn => ?_
  refine (reflects_readOptCstring (hlinks .cMedManuf (by decide))).bind_eq fun manuf => ?_
  refine (reflects_readOptCstring (hlinks .cMedModel (by decide))).bind_eq fun model => ?_
  exact (reflects_readOptCstring (hlinks .cMedAsset (by decide))).bind_eq fun asset => .pure rfl

/-- Locations reflect each other. -/
lemma reflects_decodeMedLocationMarker {x y : Raw T .medLoc} (h : SameLinks x y) :
    (readdressing ρ hq hlen).Reflects (· = ·) (decodeMedLocationMarker T x)
      (decodeMedLocationMarker T y) :=
  reflects_marker.bind_eq fun _ =>
    (reflects_readOptBytes (h .data (by decide))).bind_eq fun _ => .pure rfl

/-- Lists of VLANs reflect each other. -/
lemma reflects_discardVlanChain :
    (readdressing ρ hq hlen).Reflects (· = ·) (discardVlanChain T) (discardVlanChain T) := by
  refine Mirror.Reflects.bind_eq (reflects_elements (fun _ _ => Iff.rfl) (by decide)
    fun x y hlinks _ => ?_) fun _ => .pure rfl
  exact reflects_readOptCstring (hlinks .vName (by decide))

/-- Lists of PPVIDs reflect each other. -/
lemma reflects_discardPpvidChain :
    (readdressing ρ hq hlen).Reflects (· = ·) (discardPpvidChain T) (discardPpvidChain T) :=
  .bind_eq (reflects_elements (fun _ _ => Iff.rfl) (by decide) fun _ _ _ _ => .pure rfl) fun _ =>
    .pure rfl

/-- Lists of protocol identities reflect each other. -/
lemma reflects_discardPiChain :
    (readdressing ρ hq hlen).Reflects (· = ·) (discardPiChain T) (discardPiChain T) := by
  refine Mirror.Reflects.bind_eq (reflects_elements (fun _ _ => Iff.rfl) (by decide)
    fun x y hlinks _ => ?_) fun _ => .pure rfl
  exact reflects_readOptBytes (hlinks .pPi (by decide))

/-! ## Ports -/

/-- What two ports send after their chassis reflects each other. -/
lemma reflects_portRest {x y : Raw T .port} (h : SamePort ρ x y) :
    (readdressing ρ hq hlen).Reflects (· = ·) (portRest T x) (portRest T y) := by
  obtain ⟨hlinks, -, hloc⟩ := h
  refine (reflects_readOptBytes (hlinks .pId (by decide))).bind_eq fun id => ?_
  refine (reflects_readOptCstring (hlinks .pDescr (by decide))).bind_eq fun description => ?_
  refine (reflects_readOptCstring (hlinks .pVlanAdvertisePattern (by decide))).bind_eq fun _ => ?_
  refine (reflects_decodeMedLocationMarker (hloc 0)).bind_eq fun _ => ?_
  refine (reflects_decodeMedLocationMarker (hloc 1)).bind_eq fun _ => ?_
  refine (reflects_decodeMedLocationMarker (hloc 2)).bind_eq fun _ => ?_
  have hvlans := hlinks.ne (f := .pVlansTqhFirst) (by decide)
  have hppvids := hlinks.ne (f := .pPpvidsTqhFirst) (by decide)
  have hpids := hlinks.ne (f := .pPidsTqhFirst) (by decide)
  refine (Mirror.Reflects.ite hvlans reflects_discardVlanChain (.pure rfl)).bind_eq fun _ => ?_
  refine (Mirror.Reflects.ite hppvids reflects_discardPpvidChain (.pure rfl)).bind_eq fun _ => ?_
  exact (Mirror.Reflects.ite hpids reflects_discardPiChain (.pure rfl)).bind_eq fun _ => .pure rfl

/-- The cache with the pointers renamed. -/
def SameCache (ρ : Nat → Nat) (cache cache' : ChassisCache) : Prop :=
  cache' = cache.map (Prod.map ρ id)

/-- The same chassis is found under the renamed pointer. -/
lemma SameCache.get (hρ : Renaming ρ) {cache cache' : ChassisCache} (h : SameCache ρ cache cache')
    (ptr : Nat) : cache'.get (ρ ptr) = cache.get ptr := by
  subst h
  induction cache with
  | nil => rfl
  | cons entry cache ih =>
    obtain ⟨ptr', chassis⟩ := entry
    change List.lookup _ ((ρ ptr', chassis) :: _) = List.lookup _ ((ptr', chassis) :: _)
    rw [List.lookup_cons, List.lookup_cons]
    have hbeq : (ρ ptr == ρ ptr') = (ptr == ptr') := by
      rw [Bool.eq_iff_iff, beq_iff_eq, beq_iff_eq]
      exact hρ.injective.eq_iff
    rw [hbeq]
    cases ptr == ptr' with
    | true => rfl
    | false => exact ih

/-- A chassis is kept under the renamed pointer. -/
lemma SameCache.insert {cache cache' : ChassisCache} (h : SameCache ρ cache cache') (ptr : Nat)
    (chassis : Arc Chassis) :
    SameCache ρ (cache.insert ptr chassis) (cache'.insert (ρ ptr) chassis) := by
  subst h
  rfl

/-- A new chassis gets the same address on both sides. -/
lemma SameCache.alloc {cache cache' : ChassisCache} (h : SameCache ρ cache cache')
    (chassis : Chassis) : cache'.alloc chassis = cache.alloc chassis := by
  subst h
  rw [ChassisCache.alloc, ChassisCache.alloc, List.length_map]

/-- The same value and the same chassis so far. -/
def SameSoFar (ρ : Nat → Nat) {α : Type} (r r' : α × ChassisCache) : Prop :=
  r.1 = r'.1 ∧ SameCache ρ r.2 r'.2

/-- Every value and cache have a renamed counterpart. -/
lemma sameSoFar_total {α : Type} (r : α × ChassisCache) : ∃ r', SameSoFar ρ r r' :=
  ⟨(r.1, r.2.map (Prod.map ρ id)), rfl, rfl⟩

/-- What two root structures have in common. -/
structure SameHardware {k : RawType} [HardwareFields k] (ρ : Nat → Nat) (x y : Raw T k) : Prop where
  lport : SamePort ρ x.hLport y.hLport
  rports : x.hRportsTqhFirst = 0 ↔ y.hRportsTqhFirst = 0
  ifalias : x.hIfalias = 0 ↔ y.hIfalias = 0
  ifname : x.hIfname = y.hIfname
  lladdr : x.hLladdr = y.hLladdr

/-- The pointers of `RawHardware` that are used. -/
lemma sameHardware_hardware (x y : Raw T .hardware) (h : SameRaw ρ .hardware x y) :
    SameHardware ρ x y where
  lport := h.1
  rports := h.2.1 .hRportsTqhFirst (by decide)
  ifalias := h.2.1 .hIfalias (by decide)
  ifname := Subtype.ext (h.2.2 .hIfname (by decide))
  lladdr := Subtype.ext (h.2.2 .hLladdr (by decide))

/-- The pointers of `RawHardwareWithFlagsPrevious` that are used. -/
lemma sameHardware_flagsPrevious (x y : Raw T .hardwareWithFlagsPrevious)
    (h : SameRaw ρ .hardwareWithFlagsPrevious x y) : SameHardware ρ x y where
  lport := h.1
  rports := h.2.1 (.legacy .hRportsTqhFirst) (by decide)
  ifalias := h.2.1 (.legacy .hIfalias) (by decide)
  ifname := Subtype.ext (h.2.2 (.legacy .hIfname) (by decide))
  lladdr := Subtype.ext (h.2.2 (.legacy .hLladdr) (by decide))

/-- The check for bytes left over reflects itself. -/
lemma reflects_requireExhausted (details : InterfaceDetails) :
    (readdressing ρ hq hlen).Reflects (· = ·) (requireExhausted details)
      (requireExhausted details) := by
  refine ⟨safe_requireExhausted details, fun (self : Cursor) (self' : Cursor) ht _ => ?_⟩
  rw [requireExhausted_eq, requireExhausted_eq, length_twins ht, ht.pos]
  split
  case isTrue => exact ⟨rfl, ht⟩
  case isFalse => trivial

section
variable (hρ : Renaming ρ)
include hρ

/-- Null is renamed to null, and nothing else is. -/
lemma Renaming.eq_zero_iff (v : Nat) : v = 0 ↔ ρ v = 0 := by
  refine ⟨fun h => ?_, fun h => ?_⟩
  · rw [h, hρ.null]
  · rw [← hρ.null] at h
    exact hρ.injective h

/-- The chassis of two ports reflect each other, sent before or now. -/
lemma reflects_portChassis (ptr : Nat) {cache cache' : ChassisCache}
    (h : SameCache ρ cache cache') :
    (readdressing ρ hq hlen).Reflects (SameSoFar ρ) (portChassis T ptr cache)
      (portChassis T (ρ ptr) cache') := by
  refine .ite (hρ.eq_zero_iff ptr) (.pure ⟨rfl, h⟩) ?_
  rw [h.get hρ]
  cases cache.get ptr with
  | some cached => exact .pure ⟨rfl, h⟩
  | none =>
    refine reflects_decodeChassis.bind_eq fun chassis => .pure ?_
    exact ⟨congrArg some (h.alloc chassis).symm, by rw [h.alloc]; exact h.insert ptr _⟩

/-- What two ports point to reflects each other. -/
lemma reflects_decodePortFields {x y : Raw T .port} (h : SamePort ρ x y)
    {cache cache' : ChassisCache} (hc : SameCache ρ cache cache') :
    (readdressing ρ hq hlen).Reflects (SameSoFar ρ) (decodePortFields T x cache)
      (decodePortFields T y cache') := by
  unfold decodePortFields
  rw [h.chassis]
  refine (reflects_portChassis hρ _ hc).bind_total sameSoFar_total fun r r' hr => ?_
  obtain ⟨heq, hc'⟩ := hr
  refine (reflects_portRest h).bind_eq fun s => .pure ⟨?_, hc'⟩
  rw [heq]

/-- Neighbors reflect each other. -/
lemma reflects_buildNeighbor {x y : Raw T .port} (h : SamePort ρ x y) (hvalues : SameValues x y)
    {cache cache' : ChassisCache} (hc : SameCache ρ cache cache') :
    (readdressing ρ hq hlen).Reflects (SameSoFar ρ) (buildNeighbor T x cache)
      (buildNeighbor T y cache') := by
  unfold buildNeighbor
  rw [← u8_congr (hvalues .pIdSubtype (by decide)), ← u16_congr (hvalues .pTtl (by decide))]
  refine (reflects_decodePortFields hρ h hc).bind_total sameSoFar_total fun r r' hr => ?_
  obtain ⟨fields, cache₁⟩ := r
  obtain ⟨fields', cache₁'⟩ := r'
  obtain ⟨rfl, hc'⟩ := hr
  dsimp only
  cases fields.chassis with
  | none => exact .throw nofun
  | some chassis => exact .pure ⟨rfl, hc'⟩

/-- Lists of neighbors reflect each other. -/
lemma reflects_decodeNeighborChain {cache cache' : ChassisCache} (hc : SameCache ρ cache cache') :
    (readdressing ρ hq hlen).Reflects (SameSoFar ρ) (decodeNeighborChain T cache)
      (decodeNeighborChain T cache') := by
  refine Mirror.Reflects.weaken (.chain (C := (· = ·)) (D := SameCache ρ)
    (reflects_readChunkPod .port) ?_ ?_ ?_ hc) fun r r' hr => ?_
  · exact fun x y h => h.1.links.bne (by decide)
  · exact fun raw t => (rules_safely T).buildNeighbor all_anyKind raw t
  · exact fun x y h t t' ht => reflects_buildNeighbor hρ h.1 h.2 ht
  · obtain ⟨hneighbors, hcache⟩ := hr
    rw [List.forall₂_eq_eq_eq] at hneighbors
    exact ⟨hneighbors, hcache⟩

/-! ## One interface -/

/-- The details of two interfaces reflect each other, without the check that follows them. -/
lemma reflects_hardwareFields {k : RawType} [HardwareFields k] {x y : Raw T k}
    (h : SameHardware ρ x y) :
    (readdressing ρ hq hlen).Reflects (· = ·) (hardwareFields T x) (hardwareFields T y) := by
  unfold hardwareFields
  rw [← h.ifname, ← h.lladdr, untilNul_eq]
  refine reflects_marker.bind_eq fun _ => ?_
  refine .ite (h.lport.links.ne (by decide)) (.throw nofun) ?_
  have hcache : SameCache ρ [] [] := rfl
  refine (reflects_decodePortFields hρ h.lport hcache).bind_total sameSoFar_total fun r r' hr => ?_
  obtain ⟨fields, cache⟩ := r
  obtain ⟨fields', cache'⟩ := r'
  obtain ⟨rfl, hc⟩ := hr
  dsimp only
  have hrports : (readdressing ρ hq hlen).Reflects (SameSoFar ρ)
      (if x.hRportsTqhFirst ≠ 0 then decodeNeighborChain T cache else pure ([], cache))
      (if y.hRportsTqhFirst ≠ 0 then decodeNeighborChain T cache' else pure ([], cache')) :=
    .ite (not_congr h.rports) (reflects_decodeNeighborChain hρ hc) (.pure ⟨rfl, hc⟩)
  refine hrports.bind_total sameSoFar_total fun s s' hs => ?_
  obtain ⟨neighbors, cache₁⟩ := s
  obtain ⟨neighbors', cache₁'⟩ := s'
  obtain ⟨rfl, -⟩ := hs
  exact (reflects_readOptCstring h.ifalias).bind_eq fun ifalias => .pure rfl

/-- The details of two interfaces reflect each other. -/
lemma reflects_hardware {k : RawType} [HardwareFields k]
    (h : ∀ x y : Raw T k, SameRaw ρ k x y → SameHardware ρ x y) :
    (readdressing ρ hq hlen).Reflects (· = ·) (hardware T k) (hardware T k) := by
  have hsafe : ∀ raw : Raw T k, Safely T (hardwareFields T raw >>= requireExhausted) := fun raw =>
    .bind ((rules_safely T).hardwareFields all_anyKind raw) safe_requireExhausted
  refine (reflects_readChunkPod k).bind hsafe fun x y hraw => ?_
  exact (reflects_hardwareFields hρ (h x y hraw)).bind_eq reflects_requireExhausted

/-! ## Notifications -/

/-- What follows two notified ports reflects each other. -/
lemma reflects_finishNotified {x y : Raw T .port} (h : SamePort ρ x y) (hvalues : SameValues x y) :
    (readdressing ρ hq hlen).Reflects (· = ·) (finishNotified T x) (finishNotified T y) := by
  refine .ite (h.links.ne (by decide)) (.throw nofun) ?_
  have hcache : SameCache ρ [] [] := rfl
  refine (reflects_buildNeighbor hρ h hvalues hcache).bind_total sameSoFar_total fun r r' hr => ?_
  exact .pure hr.1

/-- The neighbors of two notifications reflect each other. -/
lemma reflects_notifiedNeighbor {v w : Nat} (h : v = 0 ↔ w = 0) :
    (readdressing ρ hq hlen).Reflects (· = ·) (notifiedNeighbor T v) (notifiedNeighbor T w) := by
  refine .ite h (.pure rfl) ?_
  have hsafe : ∀ raw : Raw T .port,
      Safely T (finishNotified T raw >>= fun neighbor => pure (some neighbor)) := fun raw =>
    .bind ((rules_safely T).finishNotified all_anyKind raw) fun _ => .pure _
  refine (reflects_readChunkPod .port).bind hsafe fun x y hraw => ?_
  exact (reflects_finishNotified hρ hraw.1 hraw.2).bind_eq fun neighbor => .pure rfl

/-- Notifications reflect each other. -/
lemma reflects_neighborChange :
    (readdressing ρ hq hlen).Reflects (· = ·) (neighborChange T) (neighborChange T) := by
  refine reflects_plain (k := .neighborChange) (fun _ _ => Iff.rfl) fun x y hlinks hvalues => ?_
  have hstate : x.i32 .state = y.i32 .state :=
    congrArg UInt32.toInt32 (u32_congr (hvalues .state (by decide)))
  unfold neighborChangeFields
  rw [← hstate]
  refine (reflects_readOptCstring (hlinks .ifname (by decide))).bind_eq fun interface => ?_
  refine (reflects_readOptCstring (hlinks .ifalias (by decide))).bind_eq fun interfaceAlias => ?_
  exact (reflects_notifiedNeighbor hρ (hlinks .neighbor (by decide))).bind_eq fun neighbor =>
    .pure rfl

end

end

/-! ## What is made of a payload -/

/-- Decoders that reflect each other make the same of payloads that differ in their addresses. -/
lemma decode_readdressed {α : Type} {ρ : Nat → Nat} {p q : List UInt8} {d : Decode α}
    (h : Readdressed ρ T d p q) (hlen : p.length ≤ T.isizeMax)
    (hd : (readdressing (T := T) ρ h.length_eq hlen).Reflects (· = ·) d d) :
    (decode d q).toOption = (decode d p).toOption := by
  have hr := hd.related (Cursor.new p) (Cursor.new q) ⟨rfl, rfl, rfl, Nat.zero_le _⟩ h.calls
  unfold decode
  cases hx : d (Cursor.new p) with
  | ok a s =>
    rw [hx] at hr
    cases hx' : d (Cursor.new q) with
    | ok a' s' =>
      rw [hx'] at hr
      exact congrArg some hr.1.symm
    | error e' s' =>
      rw [hx'] at hr
      exact hr.elim
  | error e s =>
    rw [hx] at hr
    cases hx' : d (Cursor.new q) with
    | ok a' s' =>
      rw [hx'] at hr
      exact hr.elim
    | error e' s' => rfl

/-- The decoders return the same of two payloads that differ in the sender's addresses and bookkeeping, or
fail on both. -/
theorem addresses_never_surface {ρ : Nat → Nat} (hρ : Renaming ρ) {p q : List UInt8}
    (hlen : p.length ≤ T.isizeMax) :
    (Readdressed ρ T (interfaces T) p q →
      (decodeInterfaces T q).toOption = (decodeInterfaces T p).toOption) ∧
    (Readdressed ρ T (neighborChange T) p q →
      (decodeNeighborChange T q).toOption = (decodeNeighborChange T p).toOption) ∧
    (Readdressed ρ T (hardware T .hardware) p q →
      (decodeHardwareAs T .hardware q).toOption = (decodeHardwareAs T .hardware p).toOption) ∧
    (Readdressed ρ T (hardware T .hardwareWithFlagsPrevious) p q →
      (decodeHardwareAs T .hardwareWithFlagsPrevious q).toOption =
        (decodeHardwareAs T .hardwareWithFlagsPrevious p).toOption) := by
  refine ⟨fun h => ?_, fun h => ?_, fun h => ?_, fun h => ?_⟩
  · exact decode_readdressed h hlen reflects_interfaces
  · exact decode_readdressed h hlen (reflects_neighborChange hρ)
  · exact decode_readdressed h hlen (reflects_hardware hρ sameHardware_hardware)
  · exact decode_readdressed h hlen (reflects_hardware hρ sameHardware_flagsPrevious)

/-- Chunks are named by twice their numbers. -/
def Naming.twice (T : Target) : Naming T where
  ptr o := 2 * o
  ne_zero o ho hle := by
    have h := T.two_mul_isizeMax
    rw [Nat.mod_eq_of_lt ((T.lt_pow_iff _).mpr (by omega))]
    omega
  inj o o' _ hle _ hle' h := by
    have h' := T.two_mul_isizeMax
    rw [Nat.mod_eq_of_lt ((T.lt_pow_iff _).mpr (by omega)),
      Nat.mod_eq_of_lt ((T.lt_pow_iff _).mpr (by omega))] at h
    omega

/-- A notification of a port without strings and lists. Every byte that nothing is written to is `b`. -/
def plainChange (T : Target) (b : UInt8) : NeighborChangeNode T Unit where
  body := ⟨List.replicate _ b, List.length_replicate⟩
  ifname := some "eth0"
  ifalias := none
  state := 1
  neighbor := some
    ({ body := ⟨List.replicate _ b, List.length_replicate⟩
       chassis := some ()
       idSubtype := 5
       id := none
       description := none
       vlanAdvertisePattern := none
       ttl := 120
       medLocation _ := ⟨⟨List.replicate _ b, List.length_replicate⟩, none⟩
       vlans := []
       ppvids := []
       pids := [] }, .null)

/-- A chassis without strings and lists. -/
def plainChassis (T : Target) (b : UInt8) (_ : Unit) : ChassisNode T where
  body := ⟨List.replicate _ b, List.length_replicate⟩
  idSubtype := 4
  id := none
  name := none
  description := none
  capAvailable := 20
  capEnabled := 4
  mgmt := []
  med := ⟨none, none, none, none, none, none, none⟩

/-- A notification without a neighbor, with the addresses of a naming and one byte for all padding. -/
def plainMessage (nm : Naming .lp64le) (b : UInt8) : List UInt8 :=
  neighborChangeMessage nm (plainChassis .lp64le b) (plainChange .lp64le b)

/-- The message under two namings and with two paddings. -/
theorem addresses_never_surface_plainMessage :
    (decodeNeighborChange .lp64le (plainMessage (.twice _) 255)).toOption =
      (decodeNeighborChange .lp64le (plainMessage (.orig _) 0)).toOption := by
  have hρ : Renaming (2 * ·) := ⟨fun v w h => Nat.eq_of_mul_eq_mul_left Nat.two_pos h, rfl⟩
  obtain ⟨-, hchange, -⟩ := addresses_never_surface (T := .lp64le) hρ
    (p := plainMessage (.orig _) 0) (q := plainMessage (.twice _) 255) (by decide +kernel)
  exact hchange ⟨by decide +kernel, by decide +kernel⟩

end Rlldpctl.Wire
