import Rlldpctl.Frames
import Rlldpctl.Wire.Reads

/-!
# Requests

Model of the encoders of `wire/mod.rs`, and what reads back the words they and `encode_header` write.
The crate takes words apart and puts them together through the first bytes of a `u64`, so it agrees with
the native image exactly on the targets of `ReadsWords`.
-/

namespace Rlldpctl.Wire
open ByteReader CLayout Nesting NativeBytes Utf8

section
variable (T : Target)

/-- Rust `push_string_chunk`. -/
def pushStringChunk (buf : List UInt8) (orig : Nat) (content : List UInt8) : List UInt8 :=
  let pad := alignUp buf.length T.ptrSize - buf.length
  let headerLen := 2 * T.ptrSize
  buf ++ List.replicate pad 0 ++ T.word orig ++ T.word (headerLen + content.length) ++ content

/-- Rust `encode_interface_name_request`. -/
def encodeInterfaceNameRequest (name : String) : List UInt8 :=
  let body := utf8Bytes name ++ [0]
  let headerLen := 2 * T.ptrSize
  T.word 1 ++ T.word (headerLen + body.length) ++ body

/-- The `RawPortSet` of a `SET_PORT` request. -/
def portSetPod : Raw T .portSet :=
  (Raw.zeroed T .portSet).fill fun
    | .ifname => some ⟨T.word 2, T.length_word 2⟩
    | .localDescr => some ⟨T.word 3, T.length_word 3⟩
    | .vlanTxEnabled => some ⟨T.endian.bytes 4 (-1 : Int32).toUInt32.toNat, T.endian.length_bytes 4 _⟩
    | _ => none

/-- Rust `encode_set_port_description_request`. -/
def encodeSetPortDescriptionRequest (ifname description : String) : List UInt8 :=
  let headerLen := 2 * T.ptrSize
  let ifnameBody := utf8Bytes ifname ++ [0]
  let descrBody := utf8Bytes description ++ [0]
  let body := (portSetPod T).bytes
  let body := pushStringChunk T body 2 ifnameBody
  let body := pushStringChunk T body 3 descrBody
  T.word 1 ++ T.word (headerLen + body.length) ++ body

-- what `lldpcli` was seen to send
example : encodeSetPortDescriptionRequest .lp64le "eth0" "test-desc-XYZ" =
    [
      1, 0, 0, 0, 0, 0, 0, 0, 0x96, 0, 0, 0, 0, 0, 0, 0, 2, 0, 0, 0, 0, 0, 0, 0,
      0, 0, 0, 0, 0, 0, 0, 0, 3, 0, 0, 0, 0, 0, 0, 0, 0, 0, 0, 0, 0, 0, 0, 0,
      0, 0, 0, 0, 0, 0, 0, 0, 0xff, 0xff, 0xff, 0xff, 0, 0, 0, 0, 0, 0, 0, 0, 0, 0, 0, 0,
      0, 0, 0, 0, 0, 0, 0, 0, 0, 0, 0, 0, 0, 0, 0, 0, 0, 0, 0, 0, 0, 0, 0, 0,
      2, 0, 0, 0, 0, 0, 0, 0, 0x15, 0, 0, 0, 0, 0, 0, 0, 0x65, 0x74, 0x68, 0x30, 0, 0, 0, 0,
      3, 0, 0, 0, 0, 0, 0, 0, 0x1e, 0, 0, 0, 0, 0, 0, 0, 0x74, 0x65, 0x73, 0x74, 0x2d, 0x64, 0x65, 0x73,
      0x63, 0x2d, 0x58, 0x59, 0x5a, 0] := by
  decide +kernel

end

variable {T : Target}

/-! ## What is read back -/

/-- The header of the next chunk is read as `orig` and `size`. -/
def ReadsBack (T : Target) (self : Cursor) (orig size : Nat) : Prop :=
  ∃ self', chunkHeader T self = .ok (orig, size) self'

/-- The header of a chunk is read back on the targets that read words back, and as zeros on the
others. -/
lemma readsBack_front {self : Cursor} {orig size : Nat} {content : List UInt8}
    (horig : orig < 256 ^ T.ptrSize) (hsize : 0 < size) (hle : size ≤ T.isizeMax)
    (h : InFront (T := T) self (front T orig size content)) :
    ReadsBack T self orig size ↔ ReadsWords T := by
  have hend := front_end h
  have hok := chunkHeader_ok self ((Nat.le_add_right _ _).trans hend) h.len
  have ho := front_orig h
  have hs := front_declared h
  rw [Cursor.start] at ho
  rw [Cursor.declared, Cursor.start] at hs
  rw [ho, hs, T.mod_word_of_le hle, Nat.mod_eq_of_lt horig] at hok
  by_cases hT : ReadsWords T
  · rw [if_pos hT, if_pos hT] at hok
    exact iff_of_true ⟨_, hok⟩ hT
  · rw [if_neg hT, if_neg hT] at hok
    refine iff_of_false ?_ hT
    rintro ⟨self', h'⟩
    rw [hok] at h'
    cases h'
    exact absurd hsize (lt_irrefl 0)

/-- A new cursor is in front of the only front. -/
lemma inFront_new {orig size : Nat} {content : List UInt8}
    (hlen : (front T orig size content).length ≤ T.isizeMax) :
    InFront (T := T) (Cursor.new (front T orig size content)) (front T orig size content) := by
  show Holds _ _ (padding T.ptrSize 0 ++ _)
  rw [padding_zero, List.nil_append]
  exact holds_new hlen

/-- The request for an interface is one front. -/
lemma encodeInterfaceNameRequest_eq (name : String) :
    encodeInterfaceNameRequest T name =
      front T 1 (2 * T.ptrSize + (utf8Bytes name ++ [0]).length) (utf8Bytes name ++ [0]) := rfl

/-- A string is padded to a word and then one front. -/
lemma pushStringChunk_eq (buf : List UInt8) (orig : Nat) (content : List UInt8) :
    pushStringChunk T buf orig content =
      buf ++ (padding T.ptrSize buf.length ++
        front T orig (2 * T.ptrSize + content.length) content) := by
  simp only [pushStringChunk, front, padding, alignUp_eq, List.append_assoc]

/-- What `push_string_chunk` appends is in front of a cursor that has read the buffer. -/
lemma inFront_pushStringChunk {buf content : List UInt8} {orig : Nat}
    (hlen : (pushStringChunk T buf orig content).length ≤ T.isizeMax) :
    InFront (T := T) ⟨pushStringChunk T buf orig content, buf.length, []⟩
      (front T orig (2 * T.ptrSize + content.length) content) := by
  rw [pushStringChunk_eq] at hlen ⊢
  refine ⟨?_, hlen, ?_⟩
  · rw [List.length_append]
    exact Nat.le_add_right _ _
  · show _ <+: List.drop buf.length _
    rw [List.drop_left]

section
variable (ty : HmsgType) {n : Nat} (hn : n < 256 ^ T.ptrSize)
include hn

/-- A header is native when words are, or when it announces nothing. -/
lemma encodeHeader_native :
    encodeHeader T ty n = ((Header.zeroed T).write ty.toI32 n).bytes ↔ ReadsWords T ∨ n = 0 := by
  rw [encodeHeader_eq]
  by_cases hT : ReadsWords T
  · rw [if_pos hT]
    exact iff_of_true rfl (Or.inl hT)
  · have hlt : n / 256 ^ (8 - T.ptrSize) = 0 := by
      have h4 : T.ptrSize = 4 := T.ptrSize_eq.resolve_right fun h => hT (Or.inl h)
      rw [h4] at hn ⊢
      exact Nat.div_eq_of_lt hn
    rw [if_neg hT, hlt]
    refine ⟨fun h => Or.inr ?_, fun h => ?_⟩
    · -- the length fields of two equal headers are equal
      have hlen := congrArg (slice · (alignUp 4 T.ptrSize) T.ptrSize) h
      rw [Header.get_len, Header.get_len] at hlen
      exact (T.endian.bytes_inj (by positivity) hn hlen).symm
    · rw [h.resolve_left hT]

/-- A header is read back when words are, or when it announces nothing. -/
lemma decodeHeader_encodeHeader :
    decodeHeader T (encodeHeader T ty n) = .ok (ty.toI32, n) ↔ ReadsWords T ∨ n = 0 := by
  rw [encodeHeader_eq, decodeHeader_write]
  by_cases hT : ReadsWords T
  · rw [if_pos hT, if_pos hT, Nat.mod_eq_of_lt hn]
    exact iff_of_true rfl (Or.inl hT)
  · rw [if_neg hT]
    refine ⟨fun h => Or.inr ?_, fun h => ?_⟩
    · cases h
      rfl
    · rw [h.resolve_left hT]

end

/-- The header of the request for an interface is read back when words are. -/
lemma readsBack_encodeInterfaceNameRequest {name : String}
    (hlen : (encodeInterfaceNameRequest T name).length ≤ T.isizeMax) :
    ReadsBack T (Cursor.new (encodeInterfaceNameRequest T name)) 1
      (encodeInterfaceNameRequest T name).length ↔ ReadsWords T := by
  have hw := T.ptrSize_pos
  rw [encodeInterfaceNameRequest_eq] at hlen ⊢
  have hfront := inFront_new hlen
  rw [length_front] at hlen ⊢
  exact readsBack_front (Nat.one_lt_pow hw.ne' (by decide)) (by omega) hlen hfront

/-- The header of a string is read back when words are. -/
lemma readsBack_pushStringChunk {buf content : List UInt8} {orig : Nat}
    (horig : orig < 256 ^ T.ptrSize)
    (hlen : (pushStringChunk T buf orig content).length ≤ T.isizeMax) :
    ReadsBack T ⟨pushStringChunk T buf orig content, buf.length, []⟩ orig
      (2 * T.ptrSize + content.length) ↔ ReadsWords T := by
  have hw := T.ptrSize_pos
  have hfront := inFront_pushStringChunk hlen
  refine readsBack_front horig (by omega) ?_ hfront
  rw [pushStringChunk_eq, List.length_append, List.length_append, length_front] at hlen
  omega

/-- The words of headers and chunks are native, and are read back, exactly on the targets that read
words back. -/
theorem words_agree (T : Target) :
    (∀ ty n, n < 256 ^ T.ptrSize →
      (encodeHeader T ty n = ((Header.zeroed T).write ty.toI32 n).bytes ↔ ReadsWords T ∨ n = 0) ∧
      (decodeHeader T (encodeHeader T ty n) = .ok (ty.toI32, n) ↔ ReadsWords T ∨ n = 0)) ∧
    (∀ name, (encodeInterfaceNameRequest T name).length ≤ T.isizeMax →
      (ReadsBack T (Cursor.new (encodeInterfaceNameRequest T name)) 1
        (encodeInterfaceNameRequest T name).length ↔ ReadsWords T)) ∧
    (∀ buf orig content, orig < 256 ^ T.ptrSize →
      (pushStringChunk T buf orig content).length ≤ T.isizeMax →
      (ReadsBack T ⟨pushStringChunk T buf orig content, buf.length, []⟩ orig
        (2 * T.ptrSize + content.length) ↔ ReadsWords T)) := by
  refine ⟨fun ty n hn => ?_, fun name hlen => ?_, fun buf orig content horig hlen => ?_⟩
  · exact ⟨encodeHeader_native ty hn, decodeHeader_encodeHeader ty hn⟩
  · exact readsBack_encodeInterfaceNameRequest hlen
  · exact readsBack_pushStringChunk horig hlen

/-- The words on a 64-bit little-endian target. -/
theorem words_agree_lp64le :
    (decodeHeader .lp64le (encodeHeader .lp64le .getInterface 21) =
        .ok (HmsgType.getInterface.toI32, 21) ↔ ReadsWords .lp64le ∨ 21 = 0) ∧
    (ReadsBack .lp64le (Cursor.new (encodeInterfaceNameRequest .lp64le "eth0")) 1
        (encodeInterfaceNameRequest .lp64le "eth0").length ↔ ReadsWords .lp64le) ∧
    (ReadsBack .lp64le ⟨pushStringChunk .lp64le [] 2 [120, 0], 0, []⟩ 2 18 ↔
      ReadsWords .lp64le) := by
  obtain ⟨hheader, hname, hpush⟩ := words_agree .lp64le
  refine ⟨(hheader .getInterface 21 (by decide)).2, hname "eth0" (by decide +kernel), ?_⟩
  exact hpush [] 2 [120, 0] (by decide) (by decide +kernel)

/-- On the 32-bit big-endian target the words are lost. -/
theorem words_ilp32be :
    decodeHeader .ilp32be (encodeHeader .ilp32be .getInterface 21) ≠
      .ok (HmsgType.getInterface.toI32, 21) ∧
    ¬ ReadsBack .ilp32be (Cursor.new (encodeInterfaceNameRequest .ilp32be "eth0")) 1
      (encodeInterfaceNameRequest .ilp32be "eth0").length := by
  refine ⟨by decide +kernel, fun h => ?_⟩
  have hT := (readsBack_encodeInterfaceNameRequest (by decide +kernel)).mp h
  exact absurd hT (by decide)

end Rlldpctl.Wire
