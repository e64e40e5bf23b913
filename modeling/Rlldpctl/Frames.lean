import Rlldpctl.Transport
import Rlldpctl.Wire.Raw

/-!
# Frames

What the peer sends: a native `struct hmsg_header`, with any padding bytes, and the payload. `frame` is the
reference `transport.rs` is compared with; `encode_header` and `decode_header` agree with it on the
targets that read words back.
-/

namespace Rlldpctl
open NativeBytes CLayout

/-- The fields of the header. -/
inductive HmsgField where
  | type | len
  deriving DecidableEq

/-- `struct hmsg_header { enum hmsg_type type; size_t len; }`. -/
def hmsgHeader (T : Target) : Layout HmsgField where
  fields := [.type, .len]
  ty
    | .type => Wire.i32
    | .len => Wire.usize T
  complete f := by cases f <;> simp

/-- A value of the header. -/
abbrev Header (T : Target) := Pod (hmsgHeader T)

variable {T : Target}

/-- A header of zeros. -/
def Header.zeroed (T : Target) : Header T :=
  ⟨List.replicate (hmsgHeader T).size 0, List.length_replicate⟩

/-- The type of a message, natively. -/
def typeImage (T : Target) (ty : Int32) : FieldImage (hmsgHeader T) .type :=
  ⟨T.endian.bytes 4 ty.toUInt32.toNat, T.endian.length_bytes 4 _⟩

/-- The length of a payload, natively. -/
def lenImage (T : Target) (len : Nat) : FieldImage (hmsgHeader T) .len :=
  ⟨T.word len, T.length_word len⟩

/-- The header of a message, with the padding of `body`. -/
def Header.write (body : Header T) (ty : Int32) (len : Nat) : Header T :=
  body.fill fun
    | .type => some (typeImage T ty)
    | .len => some (lenImage T len)

/-- A message: its type, its payload and the padding of its header. -/
structure Frame (T : Target) where
  body : Header T
  ty : Int32
  payload : List UInt8
  length_le : payload.length ≤ T.usizeMax

/-- The header in front of the payload. -/
def Frame.header (f : Frame T) : Header T :=
  f.body.write f.ty f.payload.length

/-- A message as it is on the wire. -/
def Frame.bytes (f : Frame T) : List UInt8 :=
  f.header.bytes ++ f.payload

/-! ## Headers -/

/-- Where the fields of the header are. -/
lemma hmsgHeader_layout (T : Target) :
    (hmsgHeader T).size = headerLen T ∧ (hmsgHeader T).offset .type = 0 ∧
      (hmsgHeader T).offset .len = alignUp 4 T.ptrSize ∧ 8 ≤ headerLen T := by
  obtain ⟨e, rfl | rfl | rfl⟩ := T.cases
  · cases e <;> decide +kernel
  · cases e <;> decide +kernel
  · cases e <;> decide +kernel

/-- `header_len` is the size of the header. -/
lemma size_hmsgHeader (T : Target) : (hmsgHeader T).size = headerLen T :=
  (hmsgHeader_layout T).1

/-- The header has eight bytes at least. -/
lemma headerLen_ge (T : Target) : 8 ≤ headerLen T :=
  (hmsgHeader_layout T).2.2.2

/-- The length of a header. -/
@[simp] lemma Header.length_bytes (h : Header T) : h.bytes.length = headerLen T :=
  h.length_eq.trans (size_hmsgHeader T)

/-- The type is at the front of the header. -/
lemma Header.get_type (body : Header T) (ty : Int32) (len : Nat) :
    slice (body.write ty len).bytes 0 4 = T.endian.bytes 4 ty.toUInt32.toNat := by
  rw [← (hmsgHeader_layout T).2.1]
  exact body.get_fill _ .type

/-- The length is behind the type and its padding. -/
lemma Header.get_len (body : Header T) (ty : Int32) (len : Nat) :
    slice (body.write ty len).bytes (alignUp 4 T.ptrSize) T.ptrSize = T.word len := by
  rw [← (hmsgHeader_layout T).2.2.1]
  exact body.get_fill _ .len

/-- What `decode_header` makes of a native header. -/
lemma decodeHeader_write (body : Header T) (ty : Int32) (len : Nat) :
    decodeHeader T (body.write ty len).bytes =
      .ok (ty, if ReadsWords T then len % 256 ^ T.ptrSize else 0) := by
  have hlen : (body.write ty len).bytes.length = headerLen T := Header.length_bytes _
  have h4 : 4 ≤ (body.write ty len).bytes.length := by
    have h := headerLen_ge T
    omega
  have hend : alignUp 4 T.ptrSize + T.ptrSize ≤ (body.write ty len).bytes.length := hlen.ge
  have hty : (UInt32.ofNat (T.endian.nat (T.endian.bytes 4 ty.toUInt32.toNat))).toInt32 = ty := by
    have hlt : ty.toUInt32.toNat < 256 ^ 4 := ty.toUInt32.toNat_lt
    rw [Endian.nat_bytes_of_lt _ hlt, UInt32.ofNat_toNat]
    rfl
  unfold decodeHeader
  dsimp only
  rw [index_eq (Nat.zero_le 4) h4, index_eq (Nat.le_add_right _ _) hend, Nat.add_sub_cancel_left]
  show Except.ok (_, _) = _
  rw [Header.get_type, Header.get_len, hty, reread_word]

/-- What `encode_header` writes, as a native header. -/
lemma encodeHeader_eq (ty : HmsgType) (n : Nat) :
    encodeHeader T ty n = ((Header.zeroed T).write ty.toI32
      (if ReadsWords T then n else n / 256 ^ (8 - T.ptrSize))).bytes := by
  obtain ⟨hsize, htype, hlen, -⟩ := hmsgHeader_layout T
  unfold encodeHeader
  rw [take_word, ← hsize, ← hlen, ← htype]
  rfl

/-- A message as a native program writes it, with zero padding in its header. -/
def nativeMessage (T : Target) (ty : HmsgType) (payload : List UInt8) : List UInt8 :=
  ((Header.zeroed T).write ty.toI32 payload.length).bytes ++ payload

/-- What the crate writes is a native message on the targets that read words back. -/
lemma encode_nativeMessage (hT : ReadsWords T) (ty : HmsgType) (payload : List UInt8) :
    encodeHeader T ty payload.length ++ payload = nativeMessage T ty payload := by
  rw [encodeHeader_eq, if_pos hT]
  rfl

end Rlldpctl
