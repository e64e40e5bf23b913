import Mathlib.Data.List.Sigma
import Rlldpctl.Lib.Nesting
import Rlldpctl.Lib.Utf8
import Rlldpctl.Wire.Raw

/-!
# The serializer on the other side

What the documentation of `wire/mod.rs` and `wire/cursor.rs` says `lldpd` sends: the reference the
decoders are compared with, not code of the crate. A chunk is a header (its number and its whole size),
its own bytes and the chunks nested in it. Numbers are given in order of appearance. A structure is its
bytes with some of its fields overwritten by `Link`s, which are followed in the order they are listed: a
pointer gets the value that stands for the chunk behind it, or null; an embedded structure adds a chunk
that is only a header. What has been serialized under a key once is not serialized again (`shared`).

`Naming` is how numbers become pointer values: `lldpd` uses the numbers themselves (`Naming.orig`), and
a reader may rely on no more than what the structure states.
-/

namespace Rlldpctl.Wire
open CLayout Nesting NativeBytes Utf8

/-- The state of the serializer: how many chunks have a number, and the keys serialized so far. -/
structure Marshaller (κ : Type) where
  count : Nat
  refs : List (κ × Nat)

/-- Code that serializes. -/
abbrev Marshal (κ α : Type) := StateM (Marshaller κ) α

/-- Serialize from a state on. -/
def run {κ α : Type} (m : Marshal κ α) (st : Marshaller κ) : α × Marshaller κ := m st

/-- The pointer values that stand for chunks: not null, and different for different chunks. -/
structure Naming (T : Target) where
  ptr : Nat → Nat
  ne_zero : ∀ o, 0 < o → o ≤ T.isizeMax → ptr o % 256 ^ T.ptrSize ≠ 0
  inj : ∀ o o', 0 < o → o ≤ T.isizeMax → 0 < o' → o' ≤ T.isizeMax →
    ptr o % 256 ^ T.ptrSize = ptr o' % 256 ^ T.ptrSize → o = o'

/-- A chunk is named by its number. -/
def Naming.orig (T : Target) : Naming T where
  ptr := id
  ne_zero o ho hle := by
    rw [id, T.mod_word_of_le hle]
    omega
  inj o o' _ hle _ hle' h := by
    rwa [id, id, T.mod_word_of_le hle, T.mod_word_of_le hle'] at h

/-- What is behind a pointer: its value, and the chunk when there is one. -/
structure Ref where
  value : Nat
  chunks : List (List UInt8)

variable {T : Target} {κ : Type} {k : RawType}

/-- The header of a chunk and its own bytes. -/
def front (T : Target) (orig size : Nat) (content : List UInt8) : List UInt8 :=
  T.word orig ++ T.word size ++ content

/-- A chunk: its declared size is all of its length. -/
def chunk (T : Target) (orig : Nat) (content : List UInt8) (inner : List (List UInt8)) :
    List UInt8 :=
  let start := 2 * T.ptrSize + content.length
  let bytes := nested T.ptrSize start inner
  front T orig (start + bytes.length) content ++ bytes

/-- The number of the next chunk. -/
def fresh : Marshal κ Nat := do
  let st ← get
  set { st with count := st.count + 1 }
  pure (st.count + 1)

/-- A field that the serializer writes, and the chunks it adds. -/
structure Link (T : Target) (κ : Type) (k : RawType) where
  field : k.Field
  run : Marshal κ (FieldImage (layout T k) field × List (List UInt8))

/-- The images and the chunks of the fields, in order. -/
def runLinks : List (Link T κ k) →
    Marshal κ (List (Sigma (FieldImage (layout T k))) × List (List UInt8))
  | [] => pure ([], [])
  | l :: ls => do
    let (image, chunks) ← l.run
    let (images, rest) ← runLinks ls
    pure (⟨l.field, image⟩ :: images, chunks ++ rest)

/-- A structure with its fields written, and the chunks nested in it. -/
def fields (body : Raw T k) (links : List (Link T κ k)) :
    Marshal κ (Raw T k × List (List UInt8)) := do
  let (images, chunks) ← runLinks links
  pure (body.fill fun f => images.dlookup f, chunks)

/-- The chunk of a structure, and its number. -/
def struct (body : Raw T k) (links : List (Link T κ k)) : Marshal κ (Nat × List UInt8) := do
  let orig ← fresh
  let (raw, inner) ← fields body links
  pure (orig, chunk T orig raw.bytes inner)

/-- The chunk of a byte string, and its number. -/
def leafChunk (T : Target) (content : List UInt8) : Marshal κ (Nat × List UInt8) := do
  let orig ← fresh
  pure (orig, chunk T orig content [])

/-- A null pointer. -/
def null : Marshal κ Ref := pure ⟨0, []⟩

variable (nm : Naming T)

/-- A pointer to a chunk. -/
def present (node : Marshal κ (Nat × List UInt8)) : Marshal κ Ref := do
  let (orig, bytes) ← node
  pure ⟨nm.ptr orig, [bytes]⟩

/-- A pointer to what has the key `key`. -/
def shared [DecidableEq κ] (key : κ) (node : Marshal κ (Nat × List UInt8)) : Marshal κ Ref := do
  let st ← get
  match st.refs.lookup key with
  | some orig => pure ⟨nm.ptr orig, []⟩
  | none => do
    let (orig, bytes) ← node
    modify fun st => { st with refs := st.refs ++ [(key, orig)] }
    pure ⟨nm.ptr orig, [bytes]⟩

/-- A string with its NUL, or null. -/
def cstring : Option String → Marshal κ Ref
  | none => null
  | some s => present nm (leafChunk T (utf8Bytes s ++ [0]))

/-- A byte string, or null. -/
def bstring : Option (List UInt8) → Marshal κ Ref
  | none => null
  | some bs => present nm (leafChunk T bs)

/-- A pointer to the first element of a list: each element carries the pointer to the next. -/
def list {α : Type} (node : α → Marshal κ Ref → Marshal κ (Nat × List UInt8)) :
    List α → Marshal κ Ref
  | [] => null
  | x :: xs => present nm (node x (list node xs))

/-- A pointer field. -/
def Link.ptr (f : k.Field) (ref : Marshal κ Ref) : Link T κ k where
  field := f
  run := do
    let r ← ref
    pure (⟨T.endian.bytes _ r.value, T.endian.length_bytes _ _⟩, r.chunks)

/-- An integer field. -/
def Link.int (f : k.Field) (n : Nat) : Link T κ k where
  field := f
  run := pure (⟨T.endian.bytes _ n, T.endian.length_bytes _ _⟩, [])

/-- A byte array field. -/
def Link.bytes (f : k.Field) (v : FieldImage (layout T k) f) : Link T κ k where
  field := f
  run := pure (v, [])

/-- An embedded structure. -/
def Link.embedded (f : k.Field) {k' : RawType} (h : (layout T k).ty f = (layout T k').ctype)
    (body : Raw T k') (links : List (Link T κ k')) : Link T κ k where
  field := f
  run := do
    let orig ← fresh
    let (raw, inner) ← fields body links
    pure (⟨raw.bytes, by rw [raw.length_eq, h]; rfl⟩, [chunk T orig [] inner])

/-- The bytes of a message. -/
def message (root : Marshal κ (Nat × List UInt8)) : List UInt8 :=
  (run root ⟨0, []⟩).1.2

end Rlldpctl.Wire
