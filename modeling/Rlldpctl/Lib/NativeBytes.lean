import Mathlib.Data.Nat.Digits.Defs

/-!
# Native byte order

Fixed-width words as byte strings, in either byte order. `Endian.bytes e w n` is the `w`-byte image
of `n` (its value modulo `256 ^ w`) and `Endian.nat e bs` is the value of an image; both are written
over `Nat.ofDigits`, so Mathlib's lemmas on digits apply. The last section is about an image that is
widened with zero bytes on its high-address side: that keeps the value of a little-endian image and
multiplies the value of a big-endian one.
-/

namespace NativeBytes

/-- The two byte orders. -/
inductive Endian where
  | little
  | big
  deriving DecidableEq, Repr

/-- The `w` low-order bytes of `n`, least significant first. -/
def leBytes : Nat → Nat → List UInt8
  | 0, _ => []
  | w + 1, n => UInt8.ofNat n :: leBytes w (n / 256)

/-- The value of a byte string, least significant byte first. -/
def leNat (bs : List UInt8) : Nat :=
  Nat.ofDigits 256 (bs.map UInt8.toNat)

/-- The `w`-byte image of `n`. -/
def Endian.bytes (e : Endian) (w n : Nat) : List UInt8 :=
  match e with
  | .little => leBytes w n
  | .big => (leBytes w n).reverse

/-- The value of an image. -/
def Endian.nat (e : Endian) (bs : List UInt8) : Nat :=
  match e with
  | .little => leNat bs
  | .big => leNat bs.reverse

/-- The number of bytes. -/
@[simp] lemma length_leBytes (w n : Nat) : (leBytes w n).length = w := by
  induction w generalizing n with
  | zero => rfl
  | succ w ih => simp [leBytes, ih]

/-- The number of bytes, in either order. -/
@[simp] lemma Endian.length_bytes (e : Endian) (w n : Nat) : (e.bytes w n).length = w := by
  cases e <;> simp [Endian.bytes]

/-- The first byte is the lowest. -/
lemma leNat_cons (b : UInt8) (bs : List UInt8) : leNat (b :: bs) = b.toNat + 256 * leNat bs := by
  simp [leNat, Nat.ofDigits_cons]

/-- The bytes that come later are the higher ones. -/
lemma leNat_append (as bs : List UInt8) :
    leNat (as ++ bs) = leNat as + 256 ^ as.length * leNat bs := by
  simp [leNat, Nat.ofDigits_append]

/-- What is read back, up to the width. -/
lemma leNat_leBytes (w n : Nat) : leNat (leBytes w n) = n % 256 ^ w := by
  induction w generalizing n with
  | zero => simp [leBytes, leNat, Nat.mod_one]
  | succ w ih =>
    rw [leBytes, leNat_cons, ih, UInt8.toNat_ofNat', pow_succ' 256 w, Nat.mod_mul]

/-- Reading a written word gives the word modulo its width. -/
@[simp] lemma Endian.nat_bytes (e : Endian) (w n : Nat) : e.nat (e.bytes w n) = n % 256 ^ w := by
  cases e <;> simp [Endian.nat, Endian.bytes, leNat_leBytes]

/-- A number that fits is read back. -/
lemma Endian.nat_bytes_of_lt (e : Endian) {w n : Nat} (h : n < 256 ^ w) :
    e.nat (e.bytes w n) = n := by
  rw [Endian.nat_bytes, Nat.mod_eq_of_lt h]

/-- A word is determined by its image. -/
lemma Endian.bytes_inj (e : Endian) {w m n : Nat} (hm : m < 256 ^ w) (hn : n < 256 ^ w)
    (h : e.bytes w m = e.bytes w n) : m = n := by
  rw [← e.nat_bytes_of_lt hm, h, e.nat_bytes_of_lt hn]

/-! ## Widening and narrowing at the high-address side -/

/-- Zeros are zero. -/
lemma leNat_replicate_zero (k : Nat) : leNat (List.replicate k 0) = 0 := by
  simp [leNat, Nat.ofDigits_replicate_zero]

/-- Zero bytes after a little-endian image do not change its value. -/
lemma Endian.nat_little_append_zeros (bs : List UInt8) (k : Nat) :
    Endian.little.nat (bs ++ List.replicate k 0) = Endian.little.nat bs := by
  simp [Endian.nat, leNat_append, leNat_replicate_zero]

/-- Zero bytes after a big-endian image shift its value up. -/
lemma Endian.nat_big_append_zeros (bs : List UInt8) (k : Nat) :
    Endian.big.nat (bs ++ List.replicate k 0) = 256 ^ k * Endian.big.nat bs := by
  simp [Endian.nat, leNat_append, leNat_replicate_zero]

/-- The first bytes are those of the smaller width. -/
lemma leBytes_take {v w : Nat} (n : Nat) (h : v ≤ w) : (leBytes w n).take v = leBytes v n := by
  induction v generalizing w n with
  | zero => simp [leBytes]
  | succ v ih =>
    obtain ⟨w, rfl⟩ : ∃ k, w = k + 1 := ⟨w - 1, by omega⟩
    simp [leBytes, ih (n / 256) (by omega : v ≤ w)]

/-- The last bytes are those of the quotient. -/
lemma leBytes_drop {v w : Nat} (n : Nat) (h : v ≤ w) :
    (leBytes w n).drop v = leBytes (w - v) (n / 256 ^ v) := by
  induction v generalizing w n with
  | zero => simp
  | succ v ih =>
    obtain ⟨w, rfl⟩ : ∃ k, w = k + 1 := ⟨w - 1, by omega⟩
    rw [leBytes, List.drop_succ_cons, ih (n / 256) (by omega : v ≤ w), Nat.div_div_eq_div_mul,
      Nat.pow_succ']
    congr 1
    omega

/-- The first bytes of a little-endian image are its low-order bytes. -/
lemma Endian.take_bytes_little {v w : Nat} (n : Nat) (h : v ≤ w) :
    (Endian.little.bytes w n).take v = Endian.little.bytes v n :=
  leBytes_take n h

/-- The first bytes of a big-endian image are its high-order bytes. -/
lemma Endian.take_bytes_big {v w : Nat} (n : Nat) (h : v ≤ w) :
    (Endian.big.bytes w n).take v = Endian.big.bytes v (n / 256 ^ (w - v)) := by
  have hlen : (leBytes w n).length - v = w - v := by simp
  rw [Endian.bytes, List.take_reverse, hlen, leBytes_drop n (Nat.sub_le w v),
    Nat.sub_sub_self h]
  rfl

end NativeBytes
