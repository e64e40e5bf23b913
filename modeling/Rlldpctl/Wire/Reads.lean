import Rlldpctl.Wire.Decode
import Rlldpctl.Wire.Marshal

/-!
# Reading what the serializer wrote

Rules that relate the parts of the serializer to the parts of the decoders, on a target that reads words
back as they are written. `Behind` is about a chunk, `Reads` about a pointer field and what is behind it,
`Follows` about the fields of a structure that has already been read. Each rule adds one construct, so a
decoder is compared with its serializer field by field; `reads_list` is the induction on lists.
-/

namespace Rlldpctl.Wire
open ByteReader CLayout Nesting NativeBytes Utf8

variable {T : Target}

/-! ## Fronts -/

/-- A native word is read back where words are, and as zero elsewhere. -/
lemma wordAt_word {buf : List UInt8} {p n : Nat} (h : slice buf p T.ptrSize = T.word n) :
    wordAt T buf p = if ReadsWords T then n % 256 ^ T.ptrSize else 0 := by
  rw [wordAt, h, reread_word]

/-- The cursor is in front of a chunk. -/
abbrev InFront (self : Cursor) (front : List UInt8) : Prop :=
  Holds T.isizeMax self (padding T.ptrSize self.pos ++ front)

/-- A front is its header and its content. -/
@[simp] lemma length_front (orig size : Nat) (content : List UInt8) :
    (front T orig size content).length = 2 * T.ptrSize + content.length := by
  simp only [front, List.length_append, Target.length_word]
  omega

/-- A chunk starts behind the padding. -/
lemma start_eq (self : Cursor) : self.start T = self.pos + (padding T.ptrSize self.pos).length := by
  have h := le_roundUp self.pos T.ptrSize
  rw [length_padding, Cursor.start]
  omega

section
variable {self : Cursor} {orig size : Nat} {content : List UInt8}

/-- The front lies inside the payload. -/
lemma front_end (h : InFront (T := T) self (front T orig size content)) :
    self.start T + 2 * T.ptrSize + content.length ≤ self.buf.length := by
  have hlen := h.length_le
  have hs := start_eq (T := T) self
  rw [List.length_append, length_front] at hlen
  omega

/-- The old address is the first word of the front. -/
lemma front_orig (h : InFront (T := T) self (front T orig size content)) :
    wordAt T self.buf (self.start T) = if ReadsWords T then orig % 256 ^ T.ptrSize else 0 := by
  have h' : Holds T.isizeMax self _ := h
  rw [front, List.append_assoc, ← List.append_assoc] at h'
  have hs := h'.slice
  rw [← start_eq, Target.length_word] at hs
  exact wordAt_word hs

/-- The declared size is the second word of the front. -/
lemma front_declared (h : InFront (T := T) self (front T orig size content)) :
    self.declared T = if ReadsWords T then size % 256 ^ T.ptrSize else 0 := by
  have h' : Holds T.isizeMax self _ := h
  rw [front, ← List.append_assoc, ← List.append_assoc] at h'
  have hs := h'.slice
  rw [List.length_append, ← Nat.add_assoc, ← start_eq, Target.length_word, Target.length_word] at hs
  exact wordAt_word hs

/-- The content is behind the two words. -/
lemma front_content (h : InFront (T := T) self (front T orig size content)) :
    slice self.buf (self.start T + 2 * T.ptrSize) content.length = content := by
  have h' : Holds T.isizeMax self _ := h
  rw [front, ← List.append_assoc, ← List.append_nil (_ ++ content)] at h'
  have hs := h'.slice
  rw [List.length_append, ← Nat.add_assoc, ← start_eq, List.length_append, Target.length_word,
    Target.length_word, ← Nat.two_mul] at hs
  exact hs

/-- On a target that does not read words back, no structure chunk is accepted. -/
lemma readChunkPod_rejects_front {k : RawType} (hT : ¬ ReadsWords T)
    (h : InFront (T := T) self (front T orig size content)) :
    Rejects self (readChunkPod T k self) := by
  refine readChunkPod_rejects h.pos h.len fun hfits => ?_
  have hd := front_declared h
  rw [if_neg hT] at hd
  have hsize := hfits.2
  have hpos := (sizeOf_bound T k).1
  omega

end

section
variable (hT : ReadsWords T) {orig size : Nat}
include hT

/-- A structure is taken from its front. -/
lemma takes_readChunkPod {k : RawType} (raw : Raw T k)
    (hsize : 2 * T.ptrSize + sizeOf T k ≤ size) (hle : size ≤ T.isizeMax) :
    Takes T.ptrSize T.isizeMax (readChunkPod T k) (front T orig size raw.bytes) raw := by
  intro (self : Cursor) h
  have hdecl := front_declared h
  rw [if_pos hT, T.mod_word_of_le hle] at hdecl
  have hend := front_end h
  have hcontent := front_content h
  rw [raw.length_eq] at hend hcontent
  have hfits : PodFits T k self := ⟨hend, hsize.trans hdecl.ge⟩
  have hpod : self.pod T k hfits = raw := Pod.ext hcontent
  have hok := readChunkPod_ok h.len hfits
  rw [hpod] at hok
  refine ⟨_, hok, rfl, ?_⟩
  rw [List.length_append, length_front, raw.length_eq, ← Nat.add_assoc, ← start_eq]
  exact Nat.add_assoc _ _ _

/-- A leaf is taken from its front. -/
lemma takes_leaf {content : List UInt8} (hsize : size = 2 * T.ptrSize + content.length)
    (hle : size ≤ T.isizeMax) :
    Takes T.ptrSize T.isizeMax (leaf T) (front T orig size content)
      (orig % 256 ^ T.ptrSize, content) := by
  intro (self : Cursor) h
  have horig := front_orig h
  have hdecl := front_declared h
  rw [if_pos hT] at horig
  rw [if_pos hT, T.mod_word_of_le hle, hsize] at hdecl
  have hend := front_end h
  have hfits : LeafFits T self := by
    refine ⟨(Nat.le_add_right _ _).trans hend, ?_, ?_⟩
    · rw [hdecl]
      exact Nat.le_add_right _ _
    · rwa [hdecl, ← Nat.add_assoc]
  have hok := leaf_ok h.len hfits
  rw [horig, hdecl, Nat.add_sub_cancel_left, front_content h] at hok
  refine ⟨_, hok, rfl, ?_⟩
  show self.start T + (2 * T.ptrSize + content.length) = _
  rw [List.length_append, length_front, start_eq, Nat.add_assoc]

omit hT in
/-- A marker is taken from its front. -/
lemma takes_consumeSubstructMarker :
    Takes T.ptrSize T.isizeMax (consumeSubstructMarker T) (front T orig size []) () := by
  intro (self : Cursor) h
  have hend := front_end h
  rw [List.length_nil, Nat.add_zero] at hend
  refine ⟨_, consumeSubstructMarker_ok h.len hend, rfl, ?_⟩
  rw [List.length_append, length_front, ← Nat.add_assoc, ← start_eq]
  rfl

end

/-! ## Rules -/

/-- Reading chunks of this format. -/
abbrev Reading {α : Type} (T : Target) (n : Nat) (d : Decode α) (bs : List (List UInt8)) (a : α)
    (n' : Nat) : Prop :=
  Consumes T.ptrSize T.isizeMax n d bs a n'

variable {κ α β : Type} {k : RawType}

/-- A chunk decodes to `a`. -/
def Behind (node : Marshal κ (Nat × List UInt8)) (T : Target) (d : Decode α) (a : α) : Prop :=
  ∀ st, (run node st).1.1 = st.count + 1 ∧ (run node st).1.2 ≠ [] ∧
    (run node st).2.refs = st.refs ∧ st.count + 1 ≤ (run node st).2.count ∧
    Reading T st.count d [(run node st).1.2] a (run node st).2.count

/-- A pointer and what is behind it decode to `a`. -/
def Reads (ref : Marshal κ Ref) (T : Target) (d : Nat → Decode α) (a : α) : Prop :=
  ∀ st, (run ref st).2.refs = st.refs ∧
    Reading T st.count (d ((run ref st).1.value % 256 ^ T.ptrSize)) (run ref st).1.chunks a
      (run ref st).2.count

/-- The fields of `raw` are as the serializer wrote them. -/
def Written (raw : Raw T k) (images : List (Sigma (FieldImage (layout T k)))) : Prop :=
  ∀ i ∈ images, raw.get i.1 = i.2.1

/-- The chunks behind the fields of a structure that has been read decode to `a`. -/
def Follows (links : List (Link T κ k)) (raw : Raw T k) (d : Decode α) (a : α) : Prop :=
  ∀ st, Written raw (run (runLinks links) st).1.1 →
    (run (runLinks links) st).2.refs = st.refs ∧
    Reading T st.count d (run (runLinks links) st).1.2 a (run (runLinks links) st).2.count

/-- A reading with its result mapped. -/
lemma reading_pure_map {n n' : Nat} {d : Decode α} {bs : List (List UInt8)} {a : α}
    (h : Reading T n d bs a n') (f : α → β) : Reading T n (d >>= fun a => pure (f a)) bs (f a) n' := by
  have hb := h.bind (f := fun a => pure (f a)) (Consumes.pure (f a))
  rwa [List.append_nil] at hb

/-- Without links nothing is followed. -/
lemma Follows.nil {raw : Raw T k} (a : α) :
    Follows ([] : List (Link T κ k)) raw (pure a) a :=
  fun _ _ => ⟨rfl, .pure a⟩

/-- Following with the result mapped. -/
lemma Follows.map {links : List (Link T κ k)} {raw : Raw T k} {d : Decode α} {a : α}
    (h : Follows links raw d a) (f : α → β) :
    Follows links raw (d >>= fun a => pure (f a)) (f a) := by
  intro st hw
  obtain ⟨hrefs, hread⟩ := h st hw
  exact ⟨hrefs, reading_pure_map hread f⟩

/-- The first link has been written to its field. -/
lemma Written.head {raw : Raw T k} {l : Link T κ k} {ls : List (Link T κ k)} {st : Marshaller κ}
    (h : Written raw (run (runLinks (l :: ls)) st).1.1) :
    raw.get l.field = (run l.run st).1.1.1 :=
  h _ List.mem_cons_self

/-- The other links have been written to theirs. -/
lemma Written.tail {raw : Raw T k} {l : Link T κ k} {ls : List (Link T κ k)} {st : Marshaller κ}
    (h : Written raw (run (runLinks (l :: ls)) st).1.1) :
    Written raw (run (runLinks ls) (run l.run st).2).1.1 :=
  fun i hi => h i (List.mem_cons_of_mem _ hi)

/-- A pointer field holds the value that stands for what is behind it. -/
lemma Written.usize {f : k.Field} {ref : Marshal κ Ref} {ls : List (Link T κ k)} {raw : Raw T k}
    {st : Marshaller κ} (hf : (layout T k).ty f = Wire.usize T)
    (h : Written raw (run (runLinks (.ptr f ref :: ls)) st).1.1) :
    raw.usize f = (run ref st).1.value % 256 ^ T.ptrSize := by
  have hg : raw.get f = T.endian.bytes _ _ := h.head
  rw [Raw.usize, hg, Endian.nat_bytes, hf]
  rfl

/-- A pointer field, decoded by `d`. -/
lemma Follows.ptr {f : k.Field} {ref : Marshal κ Ref} {ls : List (Link T κ k)} {raw : Raw T k}
    {d : Nat → Decode α} {a : α} {e : α → Decode β} {b : β} (hf : (layout T k).ty f = usize T)
    (href : Reads ref T d a) (hls : Follows ls raw (e a) b) :
    Follows (.ptr f ref :: ls) raw (d (raw.usize f) >>= e) b := by
  intro st hw
  obtain ⟨hrefs, hread⟩ := href st
  obtain ⟨hrefs', hread'⟩ := hls (run ref st).2 hw.tail
  rw [hw.usize hf]
  exact ⟨hrefs'.trans hrefs, hread.bind hread'⟩

/-- Decoders that are equal read the same. -/
lemma Reads.congr {ref : Marshal κ Ref} {d : Nat → Decode α} {a : α} (h : Reads ref T d a)
    (d' : Nat → Decode α) (hd : ∀ v, d' v = d v) : Reads ref T d' a := by
  rwa [funext hd]

/-- Reading with the result mapped. -/
lemma Reads.map {ref : Marshal κ Ref} {d : Nat → Decode α} {a : α} (h : Reads ref T d a)
    (f : α → β) : Reads ref T (fun v => d v >>= fun a => pure (f a)) (f a) :=
  fun st => ⟨(h st).1, reading_pure_map (h st).2 f⟩

/-- A pointer field that nothing comes after. -/
lemma Follows.last {f : k.Field} {ref : Marshal κ Ref} {raw : Raw T k} {d : Nat → Decode α} {a : α}
    (hf : (layout T k).ty f = usize T) (href : Reads ref T d a) :
    Follows [.ptr f ref] raw (d (raw.usize f)) a := by
  have h : Follows [.ptr f ref] raw (d (raw.usize f) >>= pure) a := .ptr hf href (.nil a)
  rwa [bind_pure] at h

/-- An integer field. -/
lemma Follows.int {f : k.Field} {n : Nat} {ls : List (Link T κ k)} {raw : Raw T k} {d : Decode β}
    {b : β}
    (h : T.endian.nat (raw.get f) = n % 256 ^ ((layout T k).ty f).size → Follows ls raw d b) :
    Follows (.int f n :: ls) raw d b := by
  intro st hw
  have hg : raw.get f = T.endian.bytes _ _ := hw.head
  exact h (by rw [hg, Endian.nat_bytes]) st hw.tail

/-- A byte that was written is read back. -/
lemma u8_eq {raw : Raw T k} {f : k.Field} {v : UInt8}
    (h : T.endian.nat (raw.get f) = v.toNat % 256 ^ 1) : raw.u8 f = v := by
  have hlt : v.toNat < 256 ^ 1 := v.toNat_lt
  rw [Raw.u8, h, Nat.mod_eq_of_lt hlt, UInt8.ofNat_toNat]

/-- Two bytes that were written are read back. -/
lemma u16_eq {raw : Raw T k} {f : k.Field} {v : UInt16}
    (h : T.endian.nat (raw.get f) = v.toNat % 256 ^ 2) : raw.u16 f = v := by
  have hlt : v.toNat < 256 ^ 2 := v.toNat_lt
  rw [Raw.u16, h, Nat.mod_eq_of_lt hlt, UInt16.ofNat_toNat]

/-- Four bytes that were written are read back. -/
lemma u32_eq {raw : Raw T k} {f : k.Field} {v : UInt32}
    (h : T.endian.nat (raw.get f) = v.toNat % 256 ^ 4) : raw.u32 f = v := by
  have hlt : v.toNat < 256 ^ 4 := v.toNat_lt
  rw [Raw.u32, h, Nat.mod_eq_of_lt hlt, UInt32.ofNat_toNat]

/-- A signed number that was written is read back. -/
lemma i32_eq {raw : Raw T k} {f : k.Field} {v : Int32}
    (h : T.endian.nat (raw.get f) = v.toUInt32.toNat % 256 ^ 4) : raw.i32 f = v := by
  rw [Raw.i32, u32_eq h]
  rfl

/-- A byte array field. -/
lemma Follows.bytes {f : k.Field} {v : FieldImage (layout T k) f} {ls : List (Link T κ k)}
    {raw : Raw T k} {d : Decode β} {b : β} (h : raw.get f = v.1 → Follows ls raw d b) :
    Follows (.bytes f v :: ls) raw d b :=
  fun st hw => h hw.head st hw.tail

/-- The links write the fields they name, in their order. -/
lemma keys_runLinks (links : List (Link T κ k)) (st : Marshaller κ) :
    (run (runLinks links) st).1.1.map Sigma.fst = links.map Link.field := by
  induction links generalizing st with
  | nil => rfl
  | cons l ls ih =>
    exact congrArg (l.field :: ·) (ih (run l.run st).2)

/-- A structure whose linked fields are different has them as the serializer wrote them. -/
lemma written_fill {links : List (Link T κ k)} (hnodup : (links.map Link.field).Nodup)
    (body : Raw T k) (st : Marshaller κ) :
    Written (run (fields body links) st).1.1 (run (runLinks links) st).1.1 := by
  intro i hi
  have hkeys : (run (runLinks links) st).1.1.NodupKeys := by
    show ((run (runLinks links) st).1.1.map Sigma.fst).Nodup
    rwa [keys_runLinks]
  have hlook : (run (runLinks links) st).1.1.dlookup i.1 = some i.2 := List.mem_dlookup hkeys hi
  have hget := body.get_fill (fun f => (run (runLinks links) st).1.1.dlookup f) i.1
  rw [hlook] at hget
  exact hget

/-- The front of a chunk. -/
def chunkFront (T : Target) (orig : Nat) (content : List UInt8) (inner : List (List UInt8)) :
    List UInt8 :=
  front T orig (2 * T.ptrSize + content.length +
    (nested T.ptrSize (2 * T.ptrSize + content.length) inner).length) content

/-- A chunk is its front and the chunks nested in it. -/
lemma chunk_eq (orig : Nat) (content : List UInt8) (inner : List (List UInt8)) :
    chunk T orig content inner = chunkFront T orig content inner ++
      nested T.ptrSize (chunkFront T orig content inner).length inner := by
  rw [chunkFront, length_front]
  rfl

/-- A front is never empty. -/
lemma chunkFront_ne_nil (orig : Nat) (content : List UInt8) (inner : List (List UInt8)) :
    chunkFront T orig content inner ≠ [] := by
  have hw := T.ptrSize_pos
  rw [← List.length_pos_iff, chunkFront, length_front]
  omega

/-- A chunk is never empty. -/
lemma chunk_ne_nil (orig : Nat) (content : List UInt8) (inner : List (List UInt8)) :
    chunk T orig content inner ≠ [] := by
  rw [chunk_eq]
  exact List.append_ne_nil_of_left_ne_nil (chunkFront_ne_nil _ _ _) _

/-- A reader of fronts that takes any size a chunk with this content may have takes the size of this
one. -/
lemma takes_chunkFront {orig : Nat} {content : List UInt8} {inner : List (List UInt8)} {ρ : Type}
    {head : Decode ρ} {r : ρ}
    (hhead : ∀ size, 2 * T.ptrSize + content.length ≤ size → size ≤ T.isizeMax →
      (inner = [] → size = 2 * T.ptrSize + content.length) →
      Takes T.ptrSize T.isizeMax head (front T orig size content) r)
    (hle : (chunkFront T orig content inner ++
      nested T.ptrSize (chunkFront T orig content inner).length inner).length ≤ T.isizeMax) :
    Takes T.ptrSize T.isizeMax head (chunkFront T orig content inner) r := by
  rw [List.length_append, chunkFront, length_front] at hle
  refine hhead _ (Nat.le_add_right _ _) hle fun hnil => ?_
  rw [hnil]
  rfl

/-- A chunk whose own bytes are read by `head`. -/
lemma reading_chunk {n n' orig : Nat} {content : List UInt8} {inner : List (List UInt8)} {ρ : Type}
    {head : Decode ρ} {r : ρ} {f : ρ → Decode β} {b : β}
    (hhead : ∀ size, 2 * T.ptrSize + content.length ≤ size → size ≤ T.isizeMax →
      (inner = [] → size = 2 * T.ptrSize + content.length) →
      Takes T.ptrSize T.isizeMax head (front T orig size content) r)
    (hf : Reading T (n + 1) (f r) inner b n') :
    Reading T n (head >>= f) [chunk T orig content inner] b n' := by
  rw [chunk_eq]
  exact .node T.ptrSize_pos (chunkFront_ne_nil _ _ _) (takes_chunkFront hhead) hf

/-- A leaf is read behind the pointer to it. -/
lemma behind_leaf (hT : ReadsWords T) (content : List UInt8) {f : List UInt8 → α} :
    Behind (κ := κ) (leafChunk T content) T
      (leaf T >>= fun p => pure (f p.2)) (f content) := by
  intro st
  refine ⟨rfl, chunk_ne_nil _ _ _, rfl, le_rfl, ?_⟩
  refine reading_chunk (r := ((st.count + 1) % 256 ^ T.ptrSize, content)) ?_
    (Consumes.pure (f content))
  intro size _ hle hsize
  exact takes_leaf hT (hsize rfl) hle

/-- A structure, when what is behind its fields is read after it. -/
lemma reading_struct (hT : ReadsWords T) (body : Raw T k) (links : List (Link T κ k))
    (st : Marshaller κ) {f : Raw T k → Decode β} {b : β} {n' : Nat}
    (h : Reading T (st.count + 1) (f (run (fields body links) ⟨st.count + 1, st.refs⟩).1.1)
      (run (fields body links) ⟨st.count + 1, st.refs⟩).1.2 b n') :
    Reading T st.count (readChunkPod T k >>= f) [(run (struct body links) st).1.2] b n' := by
  refine reading_chunk ?_ h
  intro size hsize hle _
  rw [Pod.length_eq] at hsize
  exact takes_readChunkPod hT _ hsize hle

/-- The reader fails on chunks of this format with a protocol error. -/
abbrev Refusing {α : Type} (T : Target) (n : Nat) (d : Decode α) (bs : List (List UInt8)) : Prop :=
  Refuses T.ptrSize T.isizeMax n d bs fun e => ∃ msg, e = protocol msg

/-- A structure is refused when what is behind it is. -/
lemma refusing_struct (hT : ReadsWords T) (body : Raw T k) (links : List (Link T κ k))
    (st : Marshaller κ) {f : Raw T k → Decode β}
    (h : Refusing T (st.count + 1) (f (run (fields body links) ⟨st.count + 1, st.refs⟩).1.1)
      (run (fields body links) ⟨st.count + 1, st.refs⟩).1.2) :
    Refusing T st.count (readChunkPod T k >>= f) [(run (struct body links) st).1.2] := by
  show Refusing T st.count _ [chunk T _ _ _]
  rw [chunk_eq]
  refine .node T.ptrSize_pos (chunkFront_ne_nil _ _ _) (takes_chunkFront ?_) h
  intro size hsize hle _
  rw [Pod.length_eq] at hsize
  exact takes_readChunkPod hT _ hsize hle

/-- A structure and what is behind its fields. -/
lemma behind_struct (hT : ReadsWords T) (body : Raw T k) (links : List (Link T κ k))
    (hnodup : (links.map Link.field).Nodup) {f : Raw T k → Decode β} {b : β}
    (h : ∀ raw, Follows links raw (f raw) b) :
    Behind (struct body links) T (readChunkPod T k >>= f) b := by
  intro st
  obtain ⟨hrefs, hread⟩ := h _ _ (written_fill hnodup body ⟨st.count + 1, st.refs⟩)
  exact ⟨rfl, chunk_ne_nil _ _ _, hrefs, hread.1, reading_struct hT body links st hread⟩

/-- An embedded structure: a marker, and what is behind its fields. -/
lemma Follows.embedded {f : k.Field} {k' : RawType}
    {hf : (layout T k).ty f = (layout T k').ctype} {body : Raw T k'} {links : List (Link T κ k')}
    (hnodup : (links.map Link.field).Nodup) {ls : List (Link T κ k)} {raw : Raw T k}
    {d : Raw T k' → Decode α} {a : α} {e : α → Decode β} {b : β}
    (h : ∀ sub, Follows links sub (d sub) a) (hls : Follows ls raw (e a) b) :
    Follows (.embedded f hf body links :: ls) raw
      ((consumeSubstructMarker T >>= fun _ => d (raw.sub f k' hf)) >>= e) b := by
  intro st hw
  have hsub : raw.sub f k' hf = (run (fields body links) ⟨st.count + 1, st.refs⟩).1.1 :=
    Pod.ext hw.head
  obtain ⟨hrefs, hread⟩ := h _ _ (written_fill hnodup body ⟨st.count + 1, st.refs⟩)
  obtain ⟨hrefs', hread'⟩ := hls _ hw.tail
  refine ⟨hrefs'.trans hrefs, Consumes.bind ?_ hread'⟩
  rw [hsub]
  exact reading_chunk (fun _ _ _ _ => takes_consumeSubstructMarker) hread

/-- A null pointer reads nothing. -/
lemma reads_null {d : Nat → Decode α} {a : α} (h : d 0 = pure a) : Reads (κ := κ) null T d a := by
  intro st
  refine ⟨rfl, ?_⟩
  show Reading T st.count (d (0 % _)) [] a st.count
  rw [Nat.zero_mod, h]
  exact .pure a

/-- A number that was given to a chunk in the buffer stands for a pointer that is not null. -/
lemma Naming.ne_zero_of_holds (nm : Naming T) {self : Cursor} {n : Nat} {b : List UInt8}
    (hb : b ≠ []) (hs : Holds T.isizeMax self (nested T.ptrSize self.pos [b])) (hn : n ≤ self.pos) :
    n + 1 ≤ T.isizeMax ∧ nm.ptr (n + 1) % 256 ^ T.ptrSize ≠ 0 := by
  have hpos := List.length_pos_iff.mpr hb
  have hlen := hs.length_le
  have hbuf := hs.len
  rw [nested_cons, nested_nil, List.append_nil, List.length_append] at hlen
  have hle : n + 1 ≤ T.isizeMax := by omega
  exact ⟨hle, nm.ne_zero _ (Nat.succ_pos n) hle⟩

/-- A pointer to a chunk with the next number is followed. -/
lemma reading_present (nm : Naming T) {n n' : Nat} {bytes : List UInt8} (hne : bytes ≠ [])
    {d : Nat → Decode α} {d' : Decode α} {a : α} (h : ∀ v, v ≠ 0 → d v = d')
    (hread : Reading T n d' [bytes] a n') :
    Reading T n (d (nm.ptr (n + 1) % 256 ^ T.ptrSize)) [bytes] a n' := by
  refine ⟨hread.1, fun s hs hn => ?_⟩
  rw [h _ (nm.ne_zero_of_holds hne hs hn).2]
  exact hread.2 s hs hn

/-- A part that is there is refused when its decoder refuses it. -/
lemma refusing_present (nm : Naming T) {n : Nat} {bytes : List UInt8} (hne : bytes ≠ [])
    {d : Nat → Decode α} {d' : Decode α} (h : ∀ v, v ≠ 0 → d v = d')
    (href : Refusing T n d' [bytes]) :
    Refusing T n (d (nm.ptr (n + 1) % 256 ^ T.ptrSize)) [bytes] := by
  intro s hs hn
  rw [h _ (nm.ne_zero_of_holds hne hs hn).2]
  exact href s hs hn

/-- A part that is there is read by its decoder. -/
lemma reads_present (nm : Naming T) {node : Marshal κ (Nat × List UInt8)} {d : Nat → Decode α}
    (d' : Decode α) {a : α} (h : ∀ v, v ≠ 0 → d v = d') (hnode : Behind node T d' a) :
    Reads (present nm node) T d a := by
  intro st
  obtain ⟨horig, hne, hrefs, -, hread⟩ := hnode st
  refine ⟨hrefs, ?_⟩
  show Reading T st.count (d (nm.ptr (run node st).1.1 % _)) _ a _
  rw [horig]
  exact reading_present nm hne h hread

/-! ## Strings and lists -/

section
variable (hT : ReadsWords T) (nm : Naming T)
include hT

/-- A byte string with a NUL behind it is read lossily, without the NUL. -/
lemma reads_terminated (bs : Option (List UInt8)) :
    Reads (κ := κ) (bstring nm (bs.map (· ++ [0]))) T (readOptCstring T) (bs.map fromUtf8Lossy) := by
  cases bs with
  | none => exact reads_null rfl
  | some bs =>
    refine reads_present nm _ (fun v hv => if_neg hv) ?_
    have h := behind_leaf (κ := κ) hT (bs ++ [0])
      (f := fun body => some (fromUtf8Lossy (stripNul body)))
    have hstrip : stripNul (bs ++ [0]) = bs := by
      rw [stripNul, List.getLast?_concat, if_pos rfl, List.dropLast_concat]
    rw [hstrip] at h
    exact h

/-- A string is read back: its UTF-8 is valid. -/
lemma reads_cstring (s : Option String) : Reads (κ := κ) (cstring nm s) T (readOptCstring T) s := by
  have h := reads_terminated (κ := κ) hT nm (s.map utf8Bytes)
  cases s with
  | none => exact h
  | some s =>
    rw [Option.map_some, Option.map_some, Option.map_some, fromUtf8Lossy_utf8Bytes] at h
    exact h

/-- Optional bytes are read back. -/
lemma reads_bstring (bs : Option (List UInt8)) :
    Reads (κ := κ) (bstring nm bs) T (readOptBytes T) bs := by
  cases bs with
  | none => exact reads_null rfl
  | some bs =>
    refine reads_present nm _ (fun v hv => if_neg hv) ?_
    exact behind_leaf (κ := κ) hT bs (f := fun body => some body)

end

/-- Read a list when the pointer to its first element is not null. -/
def readList {α : Type} (T : Target) (next : k.Field) (finish : Raw T k → Decode α) (v : Nat) :
    Decode (List α) :=
  if v ≠ 0 then elements T next finish else pure []

/-- The induction on lists: an element decodes to `a` when its chunks other than the rest of the list
do. -/
lemma reads_list (hT : ReadsWords T) (nm : Naming T) {ν : Type} (next : k.Field)
    (hnext : (layout T k).ty next = usize T) (body : ν → Raw T k) (links : ν → List (Link T κ k))
    (hnodup : ∀ x, (next :: (links x).map Link.field).Nodup) {finish : Raw T k → Decode α}
    {value : ν → α} (h : ∀ x raw, Follows (links x) raw (finish raw) (value x)) (xs : List ν) :
    Reads (list nm (fun x rest => struct (body x) (.ptr next rest :: links x)) xs) T
      (readList T next finish) (xs.map value) := by
  -- the rest of a list, read by the chain itself
  suffices hchain : ∀ xs : List ν,
      Reads (list nm (fun x rest => struct (body x) (.ptr next rest :: links x)) xs) T
        (fun v => restOf (v != 0) (chain (readChunkPod T k) (fun raw => raw.usize next != 0)
          (fun raw _ => finish raw >>= fun a => pure (a, ())) (advances_readChunkPod k) ()) ())
        (xs.map value, ()) by
    intro st
    obtain ⟨hrefs, hread⟩ := hchain xs st
    refine ⟨hrefs, ?_⟩
    have hmap := reading_pure_map hread Prod.fst
    have heq : ∀ v, (restOf (v != 0) (chain (readChunkPod T k) (fun raw => raw.usize next != 0)
        (fun raw _ => finish raw >>= fun a => pure (a, ())) (advances_readChunkPod k) ()) () >>=
        fun p => pure p.1) = readList T next finish v := by
      intro v
      by_cases hv : v = 0
      · subst hv
        rfl
      · rw [readList, if_pos hv, bne_iff_ne.mpr hv]
        rfl
    rw [heq] at hmap
    exact hmap
  intro xs
  induction xs with
  | nil => exact reads_null rfl
  | cons x xs ih =>
    refine reads_present nm (link (readChunkPod T k) (fun raw => raw.usize next != 0)
      (fun raw _ => finish raw >>= fun a => pure (a, ())) (chain (readChunkPod T k)
        (fun raw => raw.usize next != 0) (fun raw _ => finish raw >>= fun a => pure (a, ()))
        (advances_readChunkPod k) ()) ()) ?_ ?_
    · intro v hv
      have hv' : (v != 0) = true := bne_iff_ne.mpr hv
      rw [hv', ← chain_eq]
      rfl
    · refine behind_struct hT (body x) (.ptr next _ :: links x) (hnodup x) fun raw => ?_
      refine Follows.ptr (d := fun v => restOf (v != 0) _ ()) hnext ih ?_
      exact ((h x raw).map fun a => (a, ())).map fun p => (p.1 :: xs.map value, p.2)

/-! ## Messages -/

/-- A new cursor holds the whole payload. -/
lemma holds_new {bytes : List UInt8} (hlen : bytes.length ≤ T.isizeMax) :
    Holds T.isizeMax (Cursor.new bytes) bytes :=
  ⟨Nat.zero_le _, hlen, List.prefix_rfl⟩

/-- A new cursor holds the message as its only chunk. -/
lemma holds_message {bytes : List UInt8} (hlen : bytes.length ≤ T.isizeMax) :
    Holds T.isizeMax (Cursor.new bytes) (nested T.ptrSize 0 [bytes]) := by
  rw [nested_cons, padding_zero, nested_nil, List.nil_append, List.append_nil]
  exact holds_new hlen

/-- A whole message is decoded to its last byte. -/
lemma decode_message {bytes : List UInt8} {d : Decode α} {a : α} {n' : Nat}
    (h : Reading T 0 d [bytes] a n') (hlen : bytes.length ≤ T.isizeMax) :
    ∃ self : Cursor, d (Cursor.new bytes) = .ok a self ∧ self.buf = bytes ∧
      self.pos = bytes.length := by
  obtain ⟨⟨self, hok, hbuf, hpos⟩, -⟩ := h.2 _ (holds_message hlen) (Nat.le_refl 0)
  refine ⟨self, hok, hbuf, hpos.trans ?_⟩
  show 0 + (nested T.ptrSize 0 [bytes]).length = _
  rw [nested_cons, padding_zero, nested_nil, List.nil_append, List.append_nil, Nat.zero_add]

/-- What is refused from the start is a protocol error. -/
lemma decode_refuses {bytes : List UInt8} {d : Decode α} (h : Refusing T 0 d [bytes])
    (hlen : bytes.length ≤ T.isizeMax) : ∃ msg, decode d bytes = .error (protocol msg) := by
  obtain ⟨e, self, herr, msg, rfl⟩ := h _ (holds_message hlen) (Nat.le_refl 0)
  refine ⟨msg, ?_⟩
  rw [decode, herr]

/-- A message begins with the front of its root. -/
lemma message_struct (body : Raw T k) (links : List (Link T κ k)) :
    ∃ orig size content rest, message (struct body links) = front T orig size content ++ rest :=
  ⟨_, _, _, _, rfl⟩

/-- On a target that does not read words back, no message with a structure at its root is accepted. -/
lemma decode_message_rejects (hT : ¬ ReadsWords T) (body : Raw T k) (links : List (Link T κ k))
    (hlen : (message (struct body links)).length ≤ T.isizeMax) (f : Raw T k → Decode β) :
    ∃ msg, decode (readChunkPod T k >>= f) (message (struct body links)) =
      .error (protocol msg) := by
  obtain ⟨orig, size, content, rest, hroot⟩ := message_struct body links
  rw [hroot] at hlen ⊢
  have hfront : InFront (T := T) (Cursor.new (front T orig size content ++ rest))
      (front T orig size content) := by
    show Holds _ _ (padding T.ptrSize 0 ++ _)
    rw [padding_zero, List.nil_append]
    exact (holds_new hlen).left
  have hrej := readChunkPod_rejects_front hT (k := k) hfront
  cases hx : readChunkPod T k (Cursor.new (front T orig size content ++ rest)) with
  | ok raw self =>
    rw [hx] at hrej
    exact hrej.elim
  | error e self =>
    rw [hx] at hrej
    obtain ⟨⟨msg, rfl⟩, -⟩ := hrej
    refine ⟨msg, ?_⟩
    rw [decode, bind_error hx]

end Rlldpctl.Wire
