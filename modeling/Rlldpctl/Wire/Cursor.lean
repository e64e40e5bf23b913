import Rlldpctl.Lib.ByteReader
import Rlldpctl.Lib.Utf8
import Rlldpctl.Transport
import Rlldpctl.Wire.Raw

/-!
# The chunk reader

Model of `wire/cursor.rs`: a cursor over one received payload, and the readers of the kinds of chunks.
Each reader that consumes a chunk first notes the call in the cursor's trace; the trace is not in the
source and no reader looks at it.

Arithmetic that could leave the range of a `usize` and indexing that could leave the buffer end in
`Fault.panic`, as they do in Rust.
-/

namespace Rlldpctl.Wire
open ByteReader CLayout NativeBytes Utf8

/-- What a call of a reader consumes. -/
inductive ChunkKind where
  | pod (k : RawType)
  | leaf
  | marker
  deriving DecidableEq, Repr

/-- A call of a reader: what it consumes and where the cursor stood. -/
structure Call where
  kind : ChunkKind
  pos : Nat
  deriving DecidableEq, Repr

/-- Rust `Cursor`, with the trace of the calls made on it. -/
abbrev Cursor := State Call

/-- Code that moves a cursor. -/
abbrev Decode := Reader Fault Call

/-- Rust `Cursor::new`. -/
def Cursor.new (buf : List UInt8) : Cursor := ⟨buf, 0, []⟩

/-- Rust `Cursor::is_exhausted`. -/
def Cursor.isExhausted (self : Cursor) : Bool :=
  self.pos == self.buf.length

/-- Note a call in the trace. -/
def record (kind : ChunkKind) : Decode Unit := fun self =>
  .ok () { self with calls := self.calls ++ [⟨kind, self.pos⟩] }

/-- `self.pos = pos`. -/
def setPos (pos : Nat) : Decode Unit := fun self =>
  .ok () { self with pos := pos }

section
variable (T : Target)

/-- A result of `usize` arithmetic. -/
def fits (n : Nat) : Except Fault Nat :=
  if n ≤ T.usizeMax then .ok n else .error .panic

/-- A difference of `usize`s. -/
def minus (m n : Nat) : Except Fault Nat :=
  if n ≤ m then .ok (m - n) else .error .panic

/-- The error of `need`. -/
def truncated (self : Cursor) (n : Nat) : Fault :=
  protocol s!"truncated message: need {n} more bytes at offset {self.pos} (have {self.buf.length})"

/-- Rust `Cursor::need`. -/
def need (n : Nat) : Decode Unit := do
  let self ← get
  if T.usizeMax < self.pos + n ∨ self.buf.length < self.pos + n then
    throw (truncated self n)

/-- Rust `Cursor::read_raw`. -/
def readRaw (n : Nat) : Decode (List UInt8) := do
  need T n
  let self ← get
  let stop ← ofExcept (fits T (self.pos + n))
  let bytes ← ofExcept (index self.buf self.pos stop)
  setPos stop
  pure bytes

/-- Rust `read_native_usize`. The word goes through a `u64` whose first bytes are filled in. -/
def readNativeUsize (bytes : List UInt8) : Except Fault Nat :=
  if bytes.length = T.ptrSize then
    .ok (T.endian.nat (splice (List.replicate 8 0) 0 bytes) % 256 ^ T.ptrSize)
  else
    .error .panic

/-- Rust `Cursor::chunk_header`. -/
def chunkHeader : Decode (Nat × Nat) := do
  let self ← get
  let aligned ← ofExcept (fits T (alignUp self.pos T.ptrSize))
  let pad ← ofExcept (minus aligned self.pos)
  let pos ← ofExcept (fits T (self.pos + pad))
  setPos pos
  let headerLen := 2 * T.ptrSize
  need T headerLen
  let mid ← ofExcept (fits T (pos + T.ptrSize))
  let stop ← ofExcept (fits T (pos + headerLen))
  let origBytes ← ofExcept (index self.buf pos mid)
  let orig ← ofExcept (readNativeUsize T origBytes)
  let sizeBytes ← ofExcept (index self.buf mid stop)
  let size ← ofExcept (readNativeUsize T sizeBytes)
  setPos stop
  pure (orig, size)

/-- Rust `Cursor::leaf`. -/
def leaf : Decode (Nat × List UInt8) := do
  record .leaf
  let (orig, declaredSize) ← chunkHeader T
  let headerLen := 2 * T.ptrSize
  if declaredSize < headerLen then
    throw (protocol
      s!"chunk declares {declaredSize} bytes, smaller than its own {headerLen}-byte header")
  else
    let content ← readRaw T (declaredSize - headerLen)
    pure (orig, content)

/-- Rust `read_pod`. -/
def readPod (k : RawType) (bytes : List UInt8) : Except Fault (Raw T k) :=
  if h : sizeOf T k ≤ bytes.length then
    .ok ⟨bytes.take (sizeOf T k), by simp [h]⟩
  else
    .error (protocol s!"chunk too small: need {sizeOf T k} bytes, got {bytes.length}")

/-- Rust `read_chunk_pod`. -/
def readChunkPod (k : RawType) : Decode (Raw T k) := do
  record (.pod k)
  let (_, declaredSize) ← chunkHeader T
  let headerLen := 2 * T.ptrSize
  let n := sizeOf T k
  let least ← ofExcept (fits T (headerLen + n))
  if declaredSize < least then
    throw (protocol s!"chunk declares {declaredSize} bytes, too small for its own {headerLen}-byte header plus the {n}-byte struct it contains")
  else
    let bytes ← readRaw T n
    ofExcept (readPod T k bytes)

/-- `body.strip_suffix(&[0u8]).unwrap_or(body)`. -/
def stripNul (body : List UInt8) : List UInt8 :=
  if body.getLast? = some 0 then body.dropLast else body

/-- Rust `read_opt_cstring`. -/
def readOptCstring (ptrField : Nat) : Decode (Option String) := do
  if ptrField = 0 then
    pure none
  else
    let (_, body) ← leaf T
    pure (some (fromUtf8Lossy (stripNul body)))

/-- Rust `read_opt_bytes`. -/
def readOptBytes (ptrField : Nat) : Decode (Option (List UInt8)) := do
  if ptrField = 0 then
    pure none
  else
    let (_, body) ← leaf T
    pure (some body)

/-- Rust `consume_substruct_marker`. -/
def consumeSubstructMarker : Decode Unit := do
  record .marker
  let _ ← chunkHeader T

end

end Rlldpctl.Wire
