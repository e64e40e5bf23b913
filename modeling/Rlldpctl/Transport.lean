import Rlldpctl.Target

/-!
# Framing of the control protocol

Model of `transport.rs`: a message is a native `struct hmsg_header { enum hmsg_type type; size_t len; }`
followed by `len` bytes of payload.

The socket is what the peer sends over the rest of the connection (`input`, ended by EOF) and what was
written to it (`output`). `read_exact` takes the next bytes, or takes what is left and fails with
`UnexpectedEof`; writes succeed.
-/

namespace Rlldpctl
open NativeBytes CLayout

/-- Rust `HmsgType`. -/
inductive HmsgType where
  | none
  | getInterfaces
  | getInterface
  | setPort
  | subscribe
  | notification
  deriving DecidableEq, Repr

/-- `self as i32`. -/
def HmsgType.toI32 : HmsgType → Int32
  | .none => 0
  | .getInterfaces => 3
  | .getInterface => 6
  | .setPort => 8
  | .subscribe => 9
  | .notification => 10

/-- Rust `HmsgType::matches`. -/
def HmsgType.matches (self : HmsgType) (got : Int32) : Bool :=
  self.toI32 == got

/-- Rust `HMSG_MAX_SIZE`. -/
def hmsgMaxSize : Nat := 2 ^ 19

/-- Rust `align_up`. -/
def alignUp (len align : Nat) : Nat :=
  len + (align - len % align) % align

/-- `align_up` is rounding up. -/
lemma alignUp_eq (len align : Nat) : alignUp len align = roundUp len align := rfl

section Codec
variable (T : Target)

/-- Rust `header_len`. -/
def headerLen : Nat :=
  alignUp 4 T.ptrSize + T.ptrSize

/-- Rust `encode_header`. The length goes through a `u64`, of which the first bytes are kept. -/
def encodeHeader (ty : HmsgType) (payloadLen : Nat) : List UInt8 :=
  let buf := List.replicate (headerLen T) 0
  let buf := splice buf 0 (T.endian.bytes 4 ty.toI32.toUInt32.toNat)
  let lenOff := alignUp 4 T.ptrSize
  splice buf lenOff ((T.endian.bytes 8 payloadLen).take T.ptrSize)

/-- Rust `decode_header`. The length goes through a `u64` whose first bytes are filled in. -/
def decodeHeader (buf : List UInt8) : Except Fault (Int32 × Nat) := do
  let tyBytes ← index buf 0 4
  let ty := (UInt32.ofNat (T.endian.nat tyBytes)).toInt32
  let lenOff := alignUp 4 T.ptrSize
  let first ← index buf lenOff (lenOff + T.ptrSize)
  let lenBytes := splice (List.replicate 8 0) 0 first
  pure (ty, T.endian.nat lenBytes % 256 ^ T.ptrSize)

end Codec

/-! ## Words -/

section Words
variable {T : Target}

/-- A word is read back through the first bytes of a `u64`: the target must fill all of them or keep
the low-order bytes first. -/
abbrev ReadsWords (T : Target) : Prop := T.ptrSize = 8 ∨ T.endian = .little

/-- What is copied into an array of zeros stands at its front. -/
lemma splice_zeros (v : List UInt8) :
    splice (List.replicate 8 0) 0 v = v ++ List.replicate (8 - v.length) 0 := by
  have hdrop : (List.replicate 8 (0 : UInt8)).drop v.length = List.replicate (8 - v.length) 0 :=
    List.drop_replicate
  rw [splice, List.take_zero, List.nil_append, Nat.zero_add, hdrop]

/-- The other targets are 32-bit and big-endian. -/
lemma not_readsWords (hT : ¬ ReadsWords T) : T.ptrSize = 4 ∧ T.endian = .big := by
  obtain ⟨hw, hbig⟩ := not_or.mp hT
  refine ⟨T.ptrSize_eq.resolve_right hw, ?_⟩
  cases he : T.endian with
  | little => exact absurd he hbig
  | big => rfl

/-- On those whatever is read back is zero. -/
lemma reread_eq_zero (hT : ¬ ReadsWords T) {v : List UInt8} (hlen : v.length = T.ptrSize) :
    T.endian.nat (splice (List.replicate 8 0) 0 v) % 256 ^ T.ptrSize = 0 := by
  obtain ⟨hw, hb⟩ := not_readsWords hT
  rw [splice_zeros, hb, Endian.nat_big_append_zeros, hlen, hw]
  exact Nat.mul_mod_right _ _

/-- What reading back the word `n` gives. -/
lemma reread_word (T : Target) (n : Nat) :
    T.endian.nat (splice (List.replicate 8 0) 0 (T.word n)) % 256 ^ T.ptrSize =
      if ReadsWords T then n % 256 ^ T.ptrSize else 0 := by
  have hlen : (T.word n).length = T.ptrSize := T.length_word n
  by_cases h : ReadsWords T
  · rw [if_pos h, splice_zeros, hlen]
    rcases h with h | h
    · rw [h, Nat.sub_self, List.replicate_zero, List.append_nil, Target.word, Endian.nat_bytes, h,
        Nat.mod_mod]
    · rw [h, Endian.nat_little_append_zeros, Target.word, h, Endian.nat_bytes, Nat.mod_mod]
  · rw [if_neg h]
    exact reread_eq_zero h hlen

/-- What is written of the length `n`, which goes through a `u64`. -/
lemma take_word (T : Target) (n : Nat) :
    (T.endian.bytes 8 n).take T.ptrSize =
      T.word (if ReadsWords T then n else n / 256 ^ (8 - T.ptrSize)) := by
  have hw := T.ptrSize_le
  by_cases h : ReadsWords T
  · rw [if_pos h, Target.word]
    rcases h with h | h
    · rw [h]
      exact List.take_of_length_le (T.endian.length_bytes 8 n).le
    · rw [h, Endian.take_bytes_little n hw]
  · obtain ⟨-, hb⟩ := not_readsWords h
    rw [if_neg h, Target.word, hb, Endian.take_bytes_big n hw]

end Words

/-! ## Messages -/

/-- A connected socket. -/
structure UnixStream where
  input : List UInt8
  output : List UInt8
  deriving DecidableEq, Repr

/-- Code that reads and writes a socket. -/
abbrev Io := EStateM Fault UnixStream

/-- `read_exact` into a buffer of `n` bytes. -/
def readExact (n : Nat) : Io (List UInt8) := fun s =>
  if n ≤ s.input.length then
    .ok (s.input.take n) { s with input := s.input.drop n }
  else
    .error (.error (.io .unexpectedEof)) { s with input := [] }

/-- `write_all`. -/
def writeAll (bs : List UInt8) : Io Unit := fun s =>
  .ok () { s with output := s.output ++ bs }

/-- The error of `read_message` for a payload that is too large. -/
def oversize (len : Nat) : Fault :=
  protocol s!"reply announces a {len}-byte payload, larger than the {hmsgMaxSize}-byte cap"

variable (T : Target)

/-- Rust `read_message`. -/
def readMessage (expected : HmsgType) : Io (List UInt8) := do
  let header ← readExact (headerLen T)
  let (gotTy, len) ← ofExcept (decodeHeader T header)
  if len > hmsgMaxSize then
    throw (oversize len)
  else
    let payload ← readExact len
    if gotTy = HmsgType.none.toI32 then
      throw (.error .requestRejected)
    else if ¬ expected.matches gotTy then
      throw (.error (.unexpectedMessageType expected.toI32.toUInt32 gotTy.toUInt32))
    else
      pure payload

/-- Rust `request`. -/
def request (ty : HmsgType) (payload : List UInt8) : Io (List UInt8) := do
  writeAll (encodeHeader T ty payload.length ++ payload)
  readMessage T ty

/-- Rust `recv_notification`. -/
def recvNotification : Io (List UInt8) :=
  readMessage T .notification

end Rlldpctl
