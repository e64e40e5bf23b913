import Rlldpctl.Wire.Cursor

/-!
# What the chunk readers do

From a position inside a payload that fits a slice no reader panics, and what a call does is read off
the bytes: `leaf`, `read_chunk_pod` and `consume_substruct_marker` each succeed exactly when the chunk
fits (`LeafFits`, `PodFits`), with the bytes at that place as the result, and fail with a protocol
error otherwise.
-/

namespace Rlldpctl.Wire
open ByteReader CLayout NativeBytes Utf8

variable {T : Target}

/-- The word at position `p`, as `read_native_usize` reads it: the native one on the targets that read words back,
zero on the others. -/
def wordAt (T : Target) (buf : List UInt8) (p : Nat) : Nat :=
  T.endian.nat (splice (List.replicate 8 0) 0 (slice buf p T.ptrSize)) % 256 ^ T.ptrSize

/-- `read_native_usize` of a whole word. -/
lemma readNativeUsize_slice {buf : List UInt8} {p : Nat} (h : p + T.ptrSize ≤ buf.length) :
    readNativeUsize T (slice buf p T.ptrSize) = .ok (wordAt T buf p) := by
  rw [readNativeUsize, if_pos (length_slice h), wordAt]

/-- On a target that does not read words back every word is read as zero. -/
lemma wordAt_eq_zero (hT : ¬ ReadsWords T) {buf : List UInt8} {p : Nat}
    (h : p + T.ptrSize ≤ buf.length) : wordAt T buf p = 0 :=
  reread_eq_zero hT (length_slice h)

/-- A number that fits is unchanged. -/
lemma fits_eq {n : Nat} (h : n ≤ T.usizeMax) : fits T n = .ok n := if_pos h

/-- A subtraction that does not wrap. -/
lemma minus_eq {m n : Nat} (h : n ≤ m) : minus m n = .ok (m - n) := if_pos h

/-- `need` passes when the bytes are there. -/
lemma need_ok (self : Cursor) {n : Nat} (hpos : self.pos + n ≤ self.buf.length)
    (hlen : self.buf.length ≤ T.usizeMax) : need T n self = .ok () self := by
  have h : ¬ (T.usizeMax < self.pos + n ∨ self.buf.length < self.pos + n) := by omega
  show (if _ then _ else _ : Decode Unit) self = _
  rw [if_neg h]
  rfl

/-- `need` fails when they are not. -/
lemma need_short (self : Cursor) {n : Nat} (hpos : self.buf.length < self.pos + n) :
    need T n self = .error (truncated self n) self := by
  show (if _ then _ else _ : Decode Unit) self = _
  rw [if_pos (Or.inr hpos)]
  rfl

/-- `need` moves nothing, and passes only when the bytes are there. -/
lemma need_eq_ok {self self' : Cursor} {n : Nat} (h : need T n self = .ok () self') :
    self' = self ∧ self.pos + n ≤ self.buf.length := by
  by_cases hs : self.buf.length < self.pos + n
  · rw [need_short self hs] at h
    cases h
  · refine ⟨?_, by omega⟩
    change (if _ then _ else _ : Decode Unit) self = _ at h
    split at h
    · cases h
    · cases h
      rfl

/-- `read_raw` takes the next bytes when they are there. -/
lemma readRaw_ok (self : Cursor) {n : Nat} (hpos : self.pos + n ≤ self.buf.length)
    (hlen : self.buf.length ≤ T.usizeMax) :
    readRaw T n self =
      .ok (slice self.buf self.pos n) { self with pos := self.pos + n } := by
  have hidx : index self.buf self.pos (self.pos + n) = .ok (slice self.buf self.pos n) := by
    rw [index_eq (Nat.le_add_right _ _) hpos, Nat.add_sub_cancel_left]
  unfold readRaw
  rw [bind_ok (need_ok self hpos hlen)]
  show (ofExcept (fits T (self.pos + n)) >>= _ : Decode _) self = _
  rw [fits_eq (hpos.trans hlen)]
  show (ofExcept (index self.buf self.pos (self.pos + n)) >>= _ : Decode _) self = _
  rw [hidx]
  rfl

/-- `read_raw` takes nothing when they are not. -/
lemma readRaw_short (self : Cursor) {n : Nat} (hpos : self.buf.length < self.pos + n) :
    readRaw T n self = .error (truncated self n) self :=
  bind_error (need_short self hpos)

/-- A pure step that succeeds. -/
lemma ofExcept_bind_ok {α β : Type} {x : Except Fault α} {a : α} (h : x = .ok a)
    (f : α → Decode β) (self : Cursor) : (ofExcept x >>= f) self = f a self := by
  rw [h]
  rfl

/-- `isize::MAX` leaves room for rounding up a position and for a header. -/
lemma usizeMax_ge_of_le (T : Target) {n m : Nat} (hn : n ≤ T.isizeMax) (hm : m ≤ n + 4096) :
    m ≤ T.usizeMax := by
  have h := T.two_mul_isizeMax
  have h' := T.isizeMax_ge
  omega

/-- Moving the cursor changes its position only. -/
lemma setPos_eq (pos : Nat) (self : Cursor) : setPos pos self = .ok () { self with pos := pos } := rfl

/-- Where the next chunk starts. -/
def Cursor.start (T : Target) (self : Cursor) : Nat := roundUp self.pos T.ptrSize

/-- The size the next chunk declares, as `read_native_usize` reads it. -/
def Cursor.declared (T : Target) (self : Cursor) : Nat :=
  wordAt T self.buf (self.start T + T.ptrSize)

/-- `chunk_header` skips the padding and takes two words. -/
lemma chunkHeader_ok (self : Cursor)
    (hpos : roundUp self.pos T.ptrSize + 2 * T.ptrSize ≤ self.buf.length)
    (hlen : self.buf.length ≤ T.isizeMax) :
    chunkHeader T self =
      .ok (wordAt T self.buf (roundUp self.pos T.ptrSize),
          wordAt T self.buf (roundUp self.pos T.ptrSize + T.ptrSize))
        { self with pos := roundUp self.pos T.ptrSize + 2 * T.ptrSize } := by
  have hle := le_roundUp self.pos T.ptrSize
  have hmax : self.buf.length ≤ T.usizeMax := usizeMax_ge_of_le T hlen (by omega)
  have hpad : self.pos + (roundUp self.pos T.ptrSize - self.pos) = roundUp self.pos T.ptrSize := by
    omega
  have hmid : index self.buf (roundUp self.pos T.ptrSize)
      (roundUp self.pos T.ptrSize + T.ptrSize) =
      .ok (slice self.buf (roundUp self.pos T.ptrSize) T.ptrSize) := by
    rw [index_eq (by omega) (by omega), Nat.add_sub_cancel_left]
  have hstop : index self.buf (roundUp self.pos T.ptrSize + T.ptrSize)
      (roundUp self.pos T.ptrSize + 2 * T.ptrSize) =
      .ok (slice self.buf (roundUp self.pos T.ptrSize + T.ptrSize) T.ptrSize) := by
    rw [index_eq (by omega) (by omega)]
    congr 2
    omega
  unfold chunkHeader
  show (ofExcept (fits T (alignUp self.pos T.ptrSize)) >>= _ : Decode _) self = _
  rw [alignUp_eq, ofExcept_bind_ok (fits_eq (by omega)), ofExcept_bind_ok (minus_eq hle), hpad,
    ofExcept_bind_ok (fits_eq (by omega)), bind_ok (setPos_eq _ _)]
  have hneed := need_ok { self with pos := roundUp self.pos T.ptrSize } hpos hmax
  rw [bind_ok hneed,
    ofExcept_bind_ok (fits_eq (by omega)), ofExcept_bind_ok (fits_eq (by omega)),
    ofExcept_bind_ok hmid, ofExcept_bind_ok (readNativeUsize_slice (by omega)),
    ofExcept_bind_ok hstop, ofExcept_bind_ok (readNativeUsize_slice (by omega)),
    bind_ok (setPos_eq _ _)]
  rfl

/-- `chunk_header` fails after the padding when the two words are not there. -/
lemma chunkHeader_short (self : Cursor) (hin : self.pos ≤ self.buf.length)
    (hlen : self.buf.length ≤ T.isizeMax)
    (hpos : self.buf.length < roundUp self.pos T.ptrSize + 2 * T.ptrSize) :
    chunkHeader T self =
      .error (truncated { self with pos := roundUp self.pos T.ptrSize } (2 * T.ptrSize))
        { self with pos := roundUp self.pos T.ptrSize } := by
  have hle := le_roundUp self.pos T.ptrSize
  have hlt := roundUp_lt self.pos T.ptrSize_pos
  have hw := T.ptrSize_le
  have hpad : self.pos + (roundUp self.pos T.ptrSize - self.pos) = roundUp self.pos T.ptrSize := by
    omega
  have hfit : roundUp self.pos T.ptrSize ≤ T.usizeMax := usizeMax_ge_of_le T hlen (by omega)
  unfold chunkHeader
  show (ofExcept (fits T (alignUp self.pos T.ptrSize)) >>= _ : Decode _) self = _
  rw [alignUp_eq, ofExcept_bind_ok (fits_eq hfit), ofExcept_bind_ok (minus_eq hle), hpad,
    ofExcept_bind_ok (fits_eq hfit), bind_ok (setPos_eq _ _)]
  exact bind_error (need_short _ hpos)

/-! ## What a call of a reader does -/

/-- The cursor after a call that consumed a chunk up to `pos`. -/
def Cursor.advance (self : Cursor) (kind : ChunkKind) (pos : Nat) : Cursor :=
  ⟨self.buf, pos, self.calls ++ [⟨kind, self.pos⟩]⟩

/-- The call failed with a protocol error. -/
def Rejects {α : Type} (self : Cursor) : EStateM.Result Fault Cursor α → Prop
  | .ok _ _ => False
  | .error e self' => (∃ msg, e = protocol msg) ∧
      ∃ kind pos, self.pos ≤ pos ∧ self' = self.advance kind pos

/-- What is rejected is an error. -/
lemma Rejects.error {α : Type} {self : Cursor} {r : EStateM.Result Fault Cursor α}
    (h : Rejects self r) : ∃ e s, r = .error e s := by
  cases r with
  | ok a s => exact h.elim
  | error e s => exact ⟨e, s, rfl⟩

/-- What is rejected has no value. -/
lemma Rejects.ne_ok {α : Type} {self self' : Cursor} {r : EStateM.Result Fault Cursor α} {a : α}
    (h : Rejects self r) : r ≠ .ok a self' := by
  obtain ⟨e, s, rfl⟩ := h.error
  intro heq
  cases heq

/-- To advance is to grow. -/
lemma grows_advance (self : Cursor) (kind : ChunkKind) {pos : Nat} (h : self.pos ≤ pos) :
    self.Grows (self.advance kind pos) :=
  ⟨rfl, h, List.prefix_append _ _⟩

section
variable {self : Cursor}

/-- The header of a call that has been recorded. -/
lemma chunkHeader_advance (kind : ChunkKind) (hlen : self.buf.length ≤ T.isizeMax)
    (hend : self.start T + 2 * T.ptrSize ≤ self.buf.length) :
    chunkHeader T (self.advance kind self.pos) =
      .ok (wordAt T self.buf (self.start T), self.declared T)
        (self.advance kind (self.start T + 2 * T.ptrSize)) :=
  chunkHeader_ok (self.advance kind self.pos) hend hlen

/-- The missing header of a call that has been recorded. -/
lemma chunkHeader_advance_short (kind : ChunkKind) (hin : self.pos ≤ self.buf.length)
    (hlen : self.buf.length ≤ T.isizeMax)
    (hend : ¬ self.start T + 2 * T.ptrSize ≤ self.buf.length) :
    chunkHeader T (self.advance kind self.pos) =
      .error (truncated (self.advance kind (self.start T)) (2 * T.ptrSize))
        (self.advance kind (self.start T)) :=
  chunkHeader_short (self.advance kind self.pos) hin hlen (not_le.mp hend)

/-- A marker takes its header, whatever it declares. -/
lemma consumeSubstructMarker_ok (hlen : self.buf.length ≤ T.isizeMax)
    (hend : self.start T + 2 * T.ptrSize ≤ self.buf.length) :
    consumeSubstructMarker T self =
      .ok () (self.advance .marker (self.start T + 2 * T.ptrSize)) := by
  have h := chunkHeader_advance .marker hlen hend
  show (chunkHeader T >>= _ : Decode Unit) (self.advance .marker self.pos) = _
  rw [bind_ok h]
  rfl

/-- A marker is rejected when its header is not there. -/
lemma consumeSubstructMarker_rejects (hin : self.pos ≤ self.buf.length)
    (hlen : self.buf.length ≤ T.isizeMax)
    (hend : ¬ self.start T + 2 * T.ptrSize ≤ self.buf.length) :
    Rejects self (consumeSubstructMarker T self) := by
  have h := chunkHeader_advance_short .marker hin hlen hend
  show Rejects self ((chunkHeader T >>= _ : Decode Unit) (self.advance .marker self.pos))
  rw [bind_error h]
  exact ⟨⟨_, rfl⟩, _, _, le_roundUp self.pos T.ptrSize, rfl⟩

/-- The header of a marker that was taken is there. -/
lemma markerFits_of_ok {self' : Cursor} {a : Unit} (hin : self.pos ≤ self.buf.length)
    (hlen : self.buf.length ≤ T.isizeMax) (h : consumeSubstructMarker T self = .ok a self') :
    self.start T + 2 * T.ptrSize ≤ self.buf.length := by
  by_contra hend
  exact (consumeSubstructMarker_rejects hin hlen hend).ne_ok h

/-- When `leaf` succeeds: the header is there, the declared size covers it, and the content is
there. -/
def LeafFits (T : Target) (self : Cursor) : Prop :=
  self.start T + 2 * T.ptrSize ≤ self.buf.length ∧ 2 * T.ptrSize ≤ self.declared T ∧
    self.start T + self.declared T ≤ self.buf.length

/-- A leaf that fits is taken with the bytes it declares. -/
lemma leaf_ok (hlen : self.buf.length ≤ T.isizeMax) (h : LeafFits T self) :
    leaf T self = .ok (wordAt T self.buf (self.start T),
        slice self.buf (self.start T + 2 * T.ptrSize) (self.declared T - 2 * T.ptrSize))
      (self.advance .leaf (self.start T + self.declared T)) := by
  obtain ⟨hhead, hsize, hend⟩ := h
  have hh := chunkHeader_advance .leaf hlen hhead
  have hr := readRaw_ok (T := T) (n := self.declared T - 2 * T.ptrSize)
    (self.advance .leaf (self.start T + 2 * T.ptrSize))
    (by show self.start T + 2 * T.ptrSize + _ ≤ self.buf.length; omega)
    (usizeMax_ge_of_le T hlen (Nat.le_add_right _ _))
  show (chunkHeader T >>= _ : Decode _) (self.advance .leaf self.pos) = _
  rw [bind_ok hh]
  show (if self.declared T < 2 * T.ptrSize then _ else _ : Decode _) _ = _
  rw [if_neg (not_lt.mpr hsize)]
  refine (bind_ok hr).trans ?_
  show EStateM.Result.ok _ (self.advance .leaf _) = _
  congr 2
  show self.start T + 2 * T.ptrSize + (self.declared T - 2 * T.ptrSize) = _
  omega

/-- A leaf that does not fit is rejected. -/
lemma leaf_rejects (hin : self.pos ≤ self.buf.length) (hlen : self.buf.length ≤ T.isizeMax)
    (h : ¬ LeafFits T self) : Rejects self (leaf T self) := by
  have hstart : self.pos ≤ self.start T := le_roundUp self.pos T.ptrSize
  show Rejects self ((chunkHeader T >>= _ : Decode _) (self.advance .leaf self.pos))
  by_cases hhead : self.start T + 2 * T.ptrSize ≤ self.buf.length
  · have hh := chunkHeader_advance .leaf hlen hhead
    have hle := hstart.trans (Nat.le_add_right (self.start T) (2 * T.ptrSize))
    rw [bind_ok hh]
    show Rejects self ((if self.declared T < 2 * T.ptrSize then _ else _ : Decode _)
      (self.advance .leaf (self.start T + 2 * T.ptrSize)))
    by_cases hsize : self.declared T < 2 * T.ptrSize
    · rw [if_pos hsize]
      exact ⟨⟨_, rfl⟩, _, _, hle, rfl⟩
    · have hend : self.buf.length < self.start T + self.declared T := by
        by_contra hc
        exact h ⟨hhead, not_lt.mp hsize, not_lt.mp hc⟩
      have hr := readRaw_short (T := T) (n := self.declared T - 2 * T.ptrSize)
        (self.advance .leaf (self.start T + 2 * T.ptrSize))
        (by show self.buf.length < self.start T + 2 * T.ptrSize + _; omega)
      rw [if_neg hsize, bind_error hr]
      exact ⟨⟨_, rfl⟩, _, _, hle, rfl⟩
  · have hh := chunkHeader_advance_short .leaf hin hlen hhead
    rw [bind_error hh]
    exact ⟨⟨_, rfl⟩, _, _, hstart, rfl⟩

/-- A leaf that was taken fits. -/
lemma leafFits_of_ok {self' : Cursor} {a : Nat × List UInt8} (hin : self.pos ≤ self.buf.length)
    (hlen : self.buf.length ≤ T.isizeMax) (h : leaf T self = .ok a self') : LeafFits T self := by
  by_contra hfits
  exact (leaf_rejects hin hlen hfits).ne_ok h

/-- When `read_chunk_pod` succeeds: the header and the structure are there and the declared size covers
both. -/
def PodFits (T : Target) (k : RawType) (self : Cursor) : Prop :=
  self.start T + 2 * T.ptrSize + sizeOf T k ≤ self.buf.length ∧
    2 * T.ptrSize + sizeOf T k ≤ self.declared T

/-- The structure that is read. -/
def Cursor.pod (T : Target) (k : RawType) (self : Cursor) (h : PodFits T k self) : Raw T k :=
  ⟨slice self.buf (self.start T + 2 * T.ptrSize) (sizeOf T k), length_slice h.1⟩

/-- A structure is read back from its bytes. -/
lemma readPod_eq {k : RawType} (raw : Raw T k) : readPod T k raw.bytes = .ok raw := by
  have h : sizeOf T k ≤ raw.bytes.length := raw.length_eq.ge
  rw [readPod, dif_pos h]
  congr 1
  exact Pod.ext (List.take_of_length_le raw.length_eq.le)

/-- The header and the structure of a chunk have a length that fits a word. -/
lemma headerLen_add_sizeOf_le (T : Target) (k : RawType) :
    2 * T.ptrSize + sizeOf T k ≤ T.usizeMax := by
  have h := (sizeOf_bound T k).2
  have hw := T.ptrSize_le
  exact usizeMax_ge_of_le T (Nat.zero_le _) (by omega)

/-- A structure that fits is taken, without what its chunk declares beyond it. -/
lemma readChunkPod_ok {k : RawType} (hlen : self.buf.length ≤ T.isizeMax) (h : PodFits T k self) :
    readChunkPod T k self = .ok (self.pod T k h)
      (self.advance (.pod k) (self.start T + 2 * T.ptrSize + sizeOf T k)) := by
  have hh := chunkHeader_advance (.pod k) hlen ((Nat.le_add_right _ _).trans h.1)
  have hr := readRaw_ok (T := T) (n := sizeOf T k)
    (self.advance (.pod k) (self.start T + 2 * T.ptrSize)) h.1
    (usizeMax_ge_of_le T hlen (Nat.le_add_right _ _))
  show (chunkHeader T >>= _ : Decode _) (self.advance (.pod k) self.pos) = _
  rw [bind_ok hh]
  show (ofExcept (fits T (2 * T.ptrSize + sizeOf T k)) >>= _ : Decode _) _ = _
  rw [ofExcept_bind_ok (fits_eq (headerLen_add_sizeOf_le T k))]
  show (if self.declared T < 2 * T.ptrSize + sizeOf T k then _ else _ : Decode _) _ = _
  rw [if_neg (not_lt.mpr h.2)]
  refine (bind_ok hr).trans ?_
  show (ofExcept (readPod T k (self.pod T k h).bytes) : Decode _) _ = _
  rw [readPod_eq]
  rfl

/-- A structure that does not fit is rejected. -/
lemma readChunkPod_rejects {k : RawType} (hin : self.pos ≤ self.buf.length)
    (hlen : self.buf.length ≤ T.isizeMax) (h : ¬ PodFits T k self) :
    Rejects self (readChunkPod T k self) := by
  have hstart : self.pos ≤ self.start T := le_roundUp self.pos T.ptrSize
  show Rejects self ((chunkHeader T >>= _ : Decode _) (self.advance (.pod k) self.pos))
  by_cases hhead : self.start T + 2 * T.ptrSize ≤ self.buf.length
  · have hh := chunkHeader_advance (.pod k) hlen hhead
    have hle := hstart.trans (Nat.le_add_right (self.start T) (2 * T.ptrSize))
    rw [bind_ok hh]
    show Rejects self ((ofExcept (fits T (2 * T.ptrSize + sizeOf T k)) >>= _ : Decode _)
      (self.advance (.pod k) (self.start T + 2 * T.ptrSize)))
    rw [ofExcept_bind_ok (fits_eq (headerLen_add_sizeOf_le T k))]
    show Rejects self ((if self.declared T < 2 * T.ptrSize + sizeOf T k then _ else _ : Decode _) _)
    by_cases hsize : self.declared T < 2 * T.ptrSize + sizeOf T k
    · rw [if_pos hsize]
      exact ⟨⟨_, rfl⟩, _, _, hle, rfl⟩
    · have hend : self.buf.length < self.start T + 2 * T.ptrSize + sizeOf T k := by
        by_contra hc
        exact h ⟨not_lt.mp hc, not_lt.mp hsize⟩
      have hr := readRaw_short (T := T) (n := sizeOf T k)
        (self.advance (.pod k) (self.start T + 2 * T.ptrSize)) hend
      rw [if_neg hsize, bind_error hr]
      exact ⟨⟨_, rfl⟩, _, _, hle, rfl⟩
  · have hh := chunkHeader_advance_short (.pod k) hin hlen hhead
    rw [bind_error hh]
    exact ⟨⟨_, rfl⟩, _, _, hstart, rfl⟩

/-- A structure that was taken fits. -/
lemma podFits_of_ok {k : RawType} {self' : Cursor} {raw : Raw T k}
    (hin : self.pos ≤ self.buf.length) (hlen : self.buf.length ≤ T.isizeMax)
    (h : readChunkPod T k self = .ok raw self') : PodFits T k self := by
  by_contra hfits
  exact (readChunkPod_rejects hin hlen hfits).ne_ok h

/-! ## Progress -/

/-- A run that succeeds after a pure step. -/
lemma ofExcept_bind_eq_ok {α β : Type} {x : Except Fault α} {f : α → Decode β}
    {self self' : Cursor} {b : β} (h : (ofExcept x >>= f) self = .ok b self') :
    ∃ a, x = .ok a ∧ f a self = .ok b self' := by
  cases x with
  | ok a => exact ⟨a, rfl, h⟩
  | error e => cases h

/-- What fits is unchanged. -/
lemma fits_eq_ok {n m : Nat} (h : fits T n = .ok m) : m = n := by
  unfold fits at h
  split at h
  · cases h
    rfl
  · cases h

/-- `chunk_header` leaves the payload alone and does not go back. -/
lemma chunkHeader_eq_ok {self' : Cursor} {r : Nat × Nat} (h : chunkHeader T self = .ok r self') :
    self'.buf = self.buf ∧ self.pos ≤ self'.pos := by
  unfold chunkHeader at h
  obtain ⟨_, _, hget, h⟩ := bind_eq_ok h
  cases hget
  obtain ⟨aligned, -, h⟩ := ofExcept_bind_eq_ok h
  obtain ⟨pad, -, h⟩ := ofExcept_bind_eq_ok h
  obtain ⟨pos, hpos, h⟩ := ofExcept_bind_eq_ok h
  obtain ⟨_, s₁, hset, h⟩ := bind_eq_ok h
  cases hset
  obtain ⟨_, s₂, hneed, h⟩ := bind_eq_ok h
  obtain ⟨rfl, -⟩ := need_eq_ok hneed
  obtain ⟨mid, -, h⟩ := ofExcept_bind_eq_ok h
  obtain ⟨stop, hstop, h⟩ := ofExcept_bind_eq_ok h
  obtain ⟨_, -, h⟩ := ofExcept_bind_eq_ok h
  obtain ⟨_, -, h⟩ := ofExcept_bind_eq_ok h
  obtain ⟨_, -, h⟩ := ofExcept_bind_eq_ok h
  obtain ⟨_, -, h⟩ := ofExcept_bind_eq_ok h
  obtain ⟨_, s₃, hset, h⟩ := bind_eq_ok h
  cases hset
  cases h
  refine ⟨rfl, ?_⟩
  have hpos := fits_eq_ok hpos
  have hstop := fits_eq_ok hstop
  show self.pos ≤ stop
  omega

/-- `read_raw` takes bytes that are there and leaves the payload alone. -/
lemma readRaw_eq_ok {self' : Cursor} {n : Nat} {bytes : List UInt8}
    (h : readRaw T n self = .ok bytes self') :
    self'.buf = self.buf ∧ self'.pos = self.pos + n ∧ self'.pos ≤ self.buf.length := by
  unfold readRaw at h
  obtain ⟨_, s₁, hneed, h₁⟩ := bind_eq_ok h
  obtain ⟨rfl, hend⟩ := need_eq_ok hneed
  obtain ⟨_, _, hget, h⟩ := bind_eq_ok h₁
  cases hget
  obtain ⟨stop, hstop, h⟩ := ofExcept_bind_eq_ok h
  obtain ⟨_, -, h⟩ := ofExcept_bind_eq_ok h
  cases h
  have hstop := fits_eq_ok hstop
  exact ⟨rfl, hstop, hstop.le.trans hend⟩

/-- A structure that was read was there, so the chains of structures end. -/
lemma advances_readChunkPod (k : RawType) : Advances (readChunkPod T k) := by
  intro self raw self' h
  obtain ⟨_, s₁, hrec, h⟩ := bind_eq_ok h
  cases hrec
  obtain ⟨r, s₂, hhead, h⟩ := bind_eq_ok h
  obtain ⟨hbuf, hpos⟩ := chunkHeader_eq_ok hhead
  obtain ⟨least, -, h⟩ := ofExcept_bind_eq_ok h
  split at h
  · cases h
  · obtain ⟨bytes, s₃, hraw, h⟩ := bind_eq_ok h
    obtain ⟨hbuf', hpos', hend⟩ := readRaw_eq_ok hraw
    have hs : self' = s₃ := by
      cases hpod : readPod T k bytes with
      | ok raw' =>
        rw [hpod] at h
        cases h
        rfl
      | error e =>
        rw [hpod] at h
        cases h
    have hsize := (sizeOf_bound T k).1
    subst hs
    refine ⟨hbuf'.trans hbuf, ?_, ?_⟩
    · have hpos : self.pos ≤ s₂.pos := hpos
      omega
    · rw [hbuf']
      exact hend

/-! ## No panic -/

/-- What every decoder is shown to be: it does not panic on a payload that fits a slice. -/
abbrev Safely {α : Type} (T : Target) (d : Decode α) : Prop := Safe T.isizeMax Fault.panic d

/-- What is rejected is safe. -/
lemma Rejects.safe {α : Type} {r : EStateM.Result Fault Cursor α} (h : Rejects self r) :
    SafeResult Fault.panic self r := by
  cases r with
  | ok a s => exact h.elim
  | error e s =>
    obtain ⟨⟨msg, rfl⟩, kind, pos, hpos, rfl⟩ := h
    exact ⟨grows_advance self kind hpos, nofun⟩

/-- Reading a marker is safe. -/
lemma safe_consumeSubstructMarker : Safely T (consumeSubstructMarker T) := by
  intro (self : Cursor) hin hlen
  by_cases h : self.start T + 2 * T.ptrSize ≤ self.buf.length
  · rw [consumeSubstructMarker_ok hlen h]
    exact ⟨grows_advance self .marker ((le_roundUp _ _).trans (Nat.le_add_right _ _)), h⟩
  · exact (consumeSubstructMarker_rejects hin hlen h).safe

/-- Reading a leaf is safe. -/
lemma safe_leaf : Safely T (leaf T) := by
  intro (self : Cursor) hin hlen
  by_cases h : LeafFits T self
  · rw [leaf_ok hlen h]
    exact ⟨grows_advance self .leaf ((le_roundUp _ _).trans (Nat.le_add_right _ _)), h.2.2⟩
  · exact (leaf_rejects hin hlen h).safe

/-- Reading a structure is safe. -/
lemma safe_readChunkPod {k : RawType} : Safely T (readChunkPod T k) := by
  intro (self : Cursor) hin hlen
  by_cases h : PodFits T k self
  · rw [readChunkPod_ok hlen h]
    refine ⟨grows_advance self (.pod k) ?_, h.1⟩
    exact (le_roundUp self.pos T.ptrSize).trans ((Nat.le_add_right _ _).trans (Nat.le_add_right _ _))
  · exact (readChunkPod_rejects hin hlen h).safe

end

end Rlldpctl.Wire
