import Rlldpctl.Lib.CLayout
import Rlldpctl.Lib.NativeBytes

/-!
# Compilation targets and errors

The crate copies native words in and out of memory, so everything on the wire depends on the target
it is built for: the width of a pointer, the byte order and the alignment of `u64` (4 on some 32-bit
ABIs). `Target` collects the three, with the constraints every Rust target meets.

`Error` is the crate's error type (Rust `error.rs`). A run of the crate's code can also end in a panic
(an index out of range, an arithmetic overflow); `Fault` is either.
-/

namespace Rlldpctl
open NativeBytes CLayout

/-- What the wire image of a value depends on. -/
structure Target where
  ptrSize : Nat
  endian : Endian
  u64Align : Nat
  ptrSize_eq : ptrSize = 4 ∨ ptrSize = 8
  u64Align_eq : u64Align = 8 ∨ (u64Align = 4 ∧ ptrSize = 4)

/-- 64-bit little-endian. -/
def Target.lp64le : Target where
  ptrSize := 8
  endian := .little
  u64Align := 8
  ptrSize_eq := Or.inr rfl
  u64Align_eq := Or.inl rfl

/-- 32-bit big-endian. -/
def Target.ilp32be : Target where
  ptrSize := 4
  endian := .big
  u64Align := 8
  ptrSize_eq := Or.inl rfl
  u64Align_eq := Or.inl rfl

namespace Target
variable (T : Target)

/-- `usize::MAX`. -/
def usizeMax : Nat := 256 ^ T.ptrSize - 1

/-- `isize::MAX`, the largest size of a slice. -/
def isizeMax : Nat := 256 ^ T.ptrSize / 2 - 1

/-- The native image of a `usize`. -/
def word (n : Nat) : List UInt8 := T.endian.bytes T.ptrSize n

/-- A word has the length of a pointer. -/
@[simp] lemma length_word (n : Nat) : (T.word n).length = T.ptrSize :=
  T.endian.length_bytes _ _

/-- A pointer has a byte at least. -/
lemma ptrSize_pos : 0 < T.ptrSize := by
  rcases T.ptrSize_eq with h | h <;> omega

/-- A pointer has eight bytes at most. -/
lemma ptrSize_le : T.ptrSize ≤ 8 := by
  rcases T.ptrSize_eq with h | h <;> omega

/-- `isize::MAX` is half of `usize::MAX`. -/
lemma two_mul_isizeMax : 2 * T.isizeMax + 1 = T.usizeMax := by
  rcases T.ptrSize_eq with h | h <;> simp [usizeMax, isizeMax, h]

/-- A slice of two gigabytes fits every target. -/
lemma isizeMax_ge : 2 ^ 31 - 1 ≤ T.isizeMax := by
  rcases T.ptrSize_eq with h | h <;> simp [isizeMax, h]

/-- What a word holds. -/
lemma lt_pow_iff (n : Nat) : n < 256 ^ T.ptrSize ↔ n ≤ T.usizeMax := by
  have h : 0 < 256 ^ T.ptrSize := by positivity
  unfold usizeMax
  omega

/-- The size of a slice fits a word. -/
lemma mod_word_of_le {n : Nat} (h : n ≤ T.isizeMax) : n % 256 ^ T.ptrSize = n := by
  refine Nat.mod_eq_of_lt ((T.lt_pow_iff n).mpr ?_)
  have h' := T.two_mul_isizeMax
  omega

/-- There are three targets in each byte order. -/
lemma cases : ∃ e : Endian, T = ⟨8, e, 8, Or.inr rfl, Or.inl rfl⟩ ∨
    T = ⟨4, e, 8, Or.inl rfl, Or.inl rfl⟩ ∨ T = ⟨4, e, 4, Or.inl rfl, Or.inr ⟨rfl, rfl⟩⟩ := by
  obtain ⟨w, e, a, hw, ha⟩ := T
  refine ⟨e, ?_⟩
  obtain rfl | ⟨rfl, rfl⟩ := ha
  · obtain rfl | rfl := hw
    · exact Or.inr (Or.inl rfl)
    · exact Or.inl rfl
  · exact Or.inr (Or.inr rfl)

end Target

/-- The kinds of `std::io::Error` the crate tells apart. -/
inductive ErrorKind where
  | unexpectedEof
  | other
  deriving DecidableEq, Repr

/-- Rust `Error`. -/
inductive Error where
  | io (kind : ErrorKind)
  | unexpectedMessageType (expected got : UInt32)
  | requestRejected
  | protocol (msg : String)
  deriving DecidableEq, Repr

/-- How a run fails: with an error it returns, or with a panic. -/
inductive Fault where
  | error (e : Error)
  | panic
  deriving DecidableEq, Repr

/-- `Err(Error::Protocol(msg))`. -/
def protocol (msg : String) : Fault := .error (.protocol msg)

/-- `&bs[lo..hi]`, which panics out of range. -/
def index (bs : List UInt8) (lo hi : Nat) : Except Fault (List UInt8) :=
  if lo ≤ hi ∧ hi ≤ bs.length then .ok (slice bs lo (hi - lo)) else .error .panic

/-- `bs[i]`, which panics out of range. -/
def element (bs : List UInt8) (i : Nat) : Except Fault UInt8 :=
  if h : i < bs.length then .ok bs[i] else .error .panic

/-- An index inside the slice does not panic. -/
lemma index_eq {bs : List UInt8} {lo hi : Nat} (hlo : lo ≤ hi) (hhi : hi ≤ bs.length) :
    index bs lo hi = .ok (slice bs lo (hi - lo)) :=
  if_pos ⟨hlo, hhi⟩

end Rlldpctl
