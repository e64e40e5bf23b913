import Mathlib.Data.List.Basic
import Mathlib.Data.Nat.ModEq

/-!
# C structure layout

The `repr(C)` layout algorithm and plain-old-data values over it. A `CType` is a size and an
alignment; `structOf` lays fields out in declaration order, each at the next multiple of its
alignment, and rounds the end up to the largest alignment. A `Layout F` names the fields of one
structure by the constructors of a type `F`.

A `Pod L` is what is copied in and out of memory: `L.size` bytes, padding included. `Pod.get` reads a
field and `Pod.fill` overwrites some of them, leaving every other byte as it was. Fields occupy
disjoint ranges (`Layout.disjoint`), so each field reads back what was last written to it
(`Pod.get_fill`).
-/

namespace CLayout

/-! ## Rounding up -/

/-- The next multiple of `a` at or after `n`. -/
def roundUp (n a : Nat) : Nat :=
  n + (a - n % a) % a

/-- Rounding up does not make smaller. -/
lemma le_roundUp (n a : Nat) : n ≤ roundUp n a :=
  Nat.le_add_right n _

/-- Rounding up adds less than the multiple. -/
lemma roundUp_lt (n : Nat) {a : Nat} (ha : 0 < a) : roundUp n a < n + a := by
  have h := Nat.mod_lt (a - n % a) ha
  unfold roundUp
  omega

/-- A multiple is not rounded. -/
lemma roundUp_of_mod_eq_zero {n a : Nat} (h : n % a = 0) : roundUp n a = n := by
  simp [roundUp, h]

/-- Rounding up gives a multiple. -/
lemma roundUp_mod (n : Nat) {a : Nat} (ha : 0 < a) : roundUp n a % a = 0 := by
  obtain hz | hz := Nat.eq_zero_or_pos (n % a)
  · rwa [roundUp_of_mod_eq_zero hz]
  · have hlt := Nat.mod_lt n ha
    have hdiv := Nat.div_add_mod n a
    have hp : roundUp n a = a * (n / a + 1) := by
      rw [roundUp, Nat.mod_eq_of_lt (by omega), Nat.mul_add]
      omega
    rw [hp, Nat.mul_mod_right]

/-- The padding in front of a position depends on the position modulo the alignment only. -/
lemma roundUp_sub_congr {m n a : Nat} (h : m % a = n % a) : roundUp m a - m = roundUp n a - n := by
  simp [roundUp, h]

/-! ## Types and structures -/

/-- What layout depends on: how many bytes a type takes and where it may start. -/
structure CType where
  size : Nat
  align : Nat
  deriving DecidableEq, Repr

/-- `[t; n]`. -/
def CType.array (n : Nat) (t : CType) : CType :=
  ⟨n * t.size, t.align⟩

/-- Where the last of some fields ends when the first is placed at or after `off`. -/
def endFrom : Nat → List CType → Nat
  | off, [] => off
  | off, t :: ts => endFrom (roundUp off t.align + t.size) ts

/-- The structure with these fields, in declaration order. -/
def structOf (ts : List CType) : CType :=
  let align := ts.foldr (fun t a => max t.align a) 1
  ⟨roundUp (endFrom 0 ts) align, align⟩

/-- The fields of one structure, in declaration order, with their types. -/
structure Layout (F : Type) [DecidableEq F] where
  fields : List F
  ty : F → CType
  complete : ∀ f, f ∈ fields

variable {F : Type} [DecidableEq F]

/-- The structure as a type. -/
def Layout.ctype (L : Layout F) : CType :=
  structOf (L.fields.map L.ty)

/-- The size of the structure. -/
def Layout.size (L : Layout F) : Nat :=
  L.ctype.size

/-- Where field `f` starts when the first of some fields is placed at or after `off`. -/
def offsetFrom (ty : F → CType) : Nat → List F → F → Nat
  | off, [], _ => off
  | off, g :: gs, f =>
    let start := roundUp off (ty g).align
    if g = f then start else offsetFrom ty (start + (ty g).size) gs f

/-- The offset of a field. -/
def Layout.offset (L : Layout F) (f : F) : Nat :=
  offsetFrom L.ty 0 L.fields f

/-- The end is behind the start. -/
lemma le_endFrom (off : Nat) (ts : List CType) : off ≤ endFrom off ts := by
  induction ts generalizing off with
  | nil => exact le_rfl
  | cons t ts ih =>
    have h := ih (roundUp off t.align + t.size)
    have hr := le_roundUp off t.align
    simp only [endFrom]
    omega

/-- A field is behind the start. -/
lemma le_offsetFrom (ty : F → CType) (off : Nat) (fs : List F) (f : F) :
    off ≤ offsetFrom ty off fs f := by
  induction fs generalizing off with
  | nil => exact le_rfl
  | cons g gs ih =>
    have hr := le_roundUp off (ty g).align
    simp only [offsetFrom]
    split
    · exact hr
    · have h := ih (roundUp off (ty g).align + (ty g).size)
      omega

/-- A field ends inside the structure. -/
lemma offsetFrom_add_size_le (ty : F → CType) (off : Nat) {fs : List F} {f : F} (hf : f ∈ fs) :
    offsetFrom ty off fs f + (ty f).size ≤ endFrom off (fs.map ty) := by
  induction fs generalizing off with
  | nil => cases hf
  | cons g gs ih =>
    simp only [offsetFrom, List.map_cons, endFrom]
    by_cases hg : g = f
    · subst hg
      rw [if_pos rfl]
      exact le_endFrom _ _
    · rw [if_neg hg]
      exact ih _ ((List.mem_cons.mp hf).resolve_left fun h => hg h.symm)

/-- Every field lies inside the structure. -/
lemma Layout.offset_add_size_le (L : Layout F) (f : F) : L.offset f + (L.ty f).size ≤ L.size := by
  have h := offsetFrom_add_size_le L.ty 0 (L.complete f)
  exact h.trans (le_roundUp _ _)

/-- Two different fields do not overlap. -/
lemma offsetFrom_disjoint (ty : F → CType) (off : Nat) {fs : List F} {f g : F} (hf : f ∈ fs)
    (hg : g ∈ fs) (hne : f ≠ g) :
    offsetFrom ty off fs f + (ty f).size ≤ offsetFrom ty off fs g ∨
      offsetFrom ty off fs g + (ty g).size ≤ offsetFrom ty off fs f := by
  induction fs generalizing off with
  | nil => cases hf
  | cons k ks ih =>
    simp only [offsetFrom]
    by_cases hkf : k = f
    · subst hkf
      rw [if_pos rfl, if_neg hne]
      exact Or.inl (le_offsetFrom ty _ ks g)
    · by_cases hkg : k = g
      · subst hkg
        rw [if_pos rfl, if_neg hkf]
        exact Or.inr (le_offsetFrom ty _ ks f)
      · rw [if_neg hkf, if_neg hkg]
        exact ih _ ((List.mem_cons.mp hf).resolve_left fun h => hkf h.symm)
          ((List.mem_cons.mp hg).resolve_left fun h => hkg h.symm)

/-- Two fields do not overlap. -/
lemma Layout.disjoint (L : Layout F) {f g : F} (hne : f ≠ g) :
    L.offset f + (L.ty f).size ≤ L.offset g ∨ L.offset g + (L.ty g).size ≤ L.offset f :=
  offsetFrom_disjoint L.ty 0 (L.complete f) (L.complete g) hne

/-! ## Slices of a byte string -/

/-- The `n` bytes from `start` on. -/
def slice (bs : List UInt8) (start n : Nat) : List UInt8 :=
  (bs.drop start).take n

/-- `bs` with the bytes from `start` on replaced by `v`. -/
def splice (bs : List UInt8) (start : Nat) (v : List UInt8) : List UInt8 :=
  bs.take start ++ v ++ bs.drop (start + v.length)

/-- The length of a slice that is there. -/
lemma length_slice {bs : List UInt8} {start n : Nat} (h : start + n ≤ bs.length) :
    (slice bs start n).length = n := by
  simp only [slice, List.length_take, List.length_drop]
  omega

/-- Replacing bytes keeps the length. -/
lemma length_splice {bs v : List UInt8} {start : Nat} (h : start + v.length ≤ bs.length) :
    (splice bs start v).length = bs.length := by
  simp only [splice, List.length_append, List.length_take, List.length_drop]
  omega

/-- A slice in the middle of a concatenation. -/
lemma slice_append (as v cs : List UInt8) : slice (as ++ v ++ cs) as.length v.length = v := by
  simp [slice, List.append_assoc]

/-- A slice of the first part of a concatenation. -/
lemma slice_append_of_le {as bs : List UInt8} {start n : Nat} (h : start + n ≤ as.length) :
    slice (as ++ bs) start n = slice as start n := by
  have hdrop : n ≤ (as.drop start).length := by
    rw [List.length_drop]
    omega
  rw [slice, slice, List.drop_append_of_le_length ((Nat.le_add_right _ _).trans h),
    List.take_append_of_le_length hdrop]

/-- What was put in is there. -/
lemma slice_splice_self {bs v : List UInt8} {start : Nat} (h : start + v.length ≤ bs.length) :
    slice (splice bs start v) start v.length = v := by
  have htake : (bs.take start).length = start := by simp; omega
  have hs := slice_append (bs.take start) v (bs.drop (start + v.length))
  rwa [htake] at hs

/-- The elements of a slice. -/
lemma getElem?_slice (bs : List UInt8) (start n i : Nat) :
    (slice bs start n)[i]? = if i < n then bs[start + i]? else none := by
  simp only [slice, List.getElem?_take, List.getElem?_drop]

/-- What is beside the replaced bytes is unchanged. -/
lemma getElem?_splice {bs v : List UInt8} {start : Nat} (h : start + v.length ≤ bs.length)
    (i : Nat) (hi : i < start ∨ start + v.length ≤ i) : (splice bs start v)[i]? = bs[i]? := by
  have htake : (bs.take start).length = start := by simp; omega
  rcases hi with hi | hi
  · rw [splice, List.append_assoc, List.getElem?_append_left (by omega), List.getElem?_take,
      if_pos hi]
  · rw [splice, List.getElem?_append_right (by simp; omega), List.getElem?_drop]
    congr 1
    simp only [List.length_append, htake]
    omega

/-- Bytes outside the replaced range are as before. -/
lemma slice_splice_of_disjoint {bs v : List UInt8} {start start' n : Nat}
    (h : start + v.length ≤ bs.length) (hd : start' + n ≤ start ∨ start + v.length ≤ start') :
    slice (splice bs start v) start' n = slice bs start' n := by
  apply List.ext_getElem?
  intro i
  rw [getElem?_slice, getElem?_slice]
  split
  · exact getElem?_splice h _ (by omega)
  · rfl

/-! ## Plain-old-data values -/

/-- A value of a structure, as its bytes in memory. -/
structure Pod (L : Layout F) where
  bytes : List UInt8
  length_eq : bytes.length = L.size

/-- The bytes of one field. -/
def FieldImage (L : Layout F) (f : F) : Type :=
  {v : List UInt8 // v.length = (L.ty f).size}

variable {L : Layout F}

/-- Values with equal bytes are equal. -/
lemma Pod.ext {p q : Pod L} (h : p.bytes = q.bytes) : p = q := by
  cases p
  cases q
  cases h
  rfl

/-- The bytes of field `f`. -/
def Pod.get (p : Pod L) (f : F) : List UInt8 :=
  slice p.bytes (L.offset f) (L.ty f).size

/-- A field has its size. -/
@[simp] lemma Pod.length_get (p : Pod L) (f : F) : (p.get f).length = (L.ty f).size :=
  length_slice (p.length_eq ▸ L.offset_add_size_le f)

/-- Overwrite, among the fields `fs`, those that `a` gives a value. -/
def fillBytes (a : (f : F) → Option (FieldImage L f)) : List F → List UInt8 → List UInt8
  | [], bs => bs
  | f :: fs, bs =>
    match a f with
    | none => fillBytes a fs bs
    | some v => fillBytes a fs (splice bs (L.offset f) v.1)

/-- The bytes of a field fit into the structure. -/
lemma FieldImage.fits {f : F} (v : FieldImage L f) {bs : List UInt8} (h : bs.length = L.size) :
    L.offset f + v.1.length ≤ bs.length := by
  rw [v.2, h]
  exact L.offset_add_size_le f

/-- Filling in fields keeps the length. -/
lemma length_fillBytes (a : (f : F) → Option (FieldImage L f)) (fs : List F) {bs : List UInt8}
    (h : bs.length = L.size) : (fillBytes a fs bs).length = L.size := by
  induction fs generalizing bs with
  | nil => exact h
  | cons f fs ih =>
    simp only [fillBytes]
    cases a f with
    | none => exact ih h
    | some v => exact ih ((length_splice (v.fits h)).trans h)

/-- The value `p` with the fields that `a` names overwritten. -/
def Pod.fill (p : Pod L) (a : (f : F) → Option (FieldImage L f)) : Pod L :=
  ⟨fillBytes a L.fields p.bytes, length_fillBytes a L.fields p.length_eq⟩

/-- A field that is not filled in keeps its bytes. -/
lemma slice_fillBytes_of_none {a : (f : F) → Option (FieldImage L f)} {g : F} (ha : a g = none)
    (fs : List F) {bs : List UInt8} (h : bs.length = L.size) :
    slice (fillBytes a fs bs) (L.offset g) (L.ty g).size = slice bs (L.offset g) (L.ty g).size := by
  induction fs generalizing bs with
  | nil => rfl
  | cons f fs ih =>
    simp only [fillBytes]
    cases hf : a f with
    | none => exact ih h
    | some v =>
      have hne : g ≠ f := by
        intro e
        subst e
        rw [ha] at hf
        cases hf
      have hd := L.disjoint hne
      rw [ih ((length_splice (v.fits h)).trans h)]
      exact slice_splice_of_disjoint (v.fits h) (by rw [v.2]; exact hd)

/-- A field that is filled in has its bytes. -/
lemma slice_fillBytes_of_some {a : (f : F) → Option (FieldImage L f)} {g : F}
    {v : FieldImage L g} (ha : a g = some v) (fs : List F) {bs : List UInt8}
    (h : bs.length = L.size)
    (hg : g ∈ fs ∨ slice bs (L.offset g) (L.ty g).size = v.1) :
    slice (fillBytes a fs bs) (L.offset g) (L.ty g).size = v.1 := by
  induction fs generalizing bs with
  | nil =>
    rcases hg with hg | hg
    · cases hg
    · exact hg
  | cons f fs ih =>
    simp only [fillBytes]
    by_cases hfg : f = g
    · subst hfg
      rw [ha]
      apply ih ((length_splice (v.fits h)).trans h)
      have hs := slice_splice_self (v.fits h)
      rw [v.2] at hs
      exact Or.inr hs
    · have hg' : g ∈ fs ∨ slice bs (L.offset g) (L.ty g).size = v.1 :=
        hg.imp_left fun hm => (List.mem_cons.mp hm).resolve_left fun e => hfg e.symm
      cases hf : a f with
      | none => exact ih h hg'
      | some w =>
        apply ih ((length_splice (w.fits h)).trans h)
        have hd := L.disjoint hfg
        rw [slice_splice_of_disjoint (w.fits h) (by rw [w.2]; exact hd.symm)]
        exact hg'

/-- A field reads back what was written to it, and what it held before when nothing was. -/
lemma Pod.get_fill (p : Pod L) (a : (f : F) → Option (FieldImage L f)) (f : F) :
    (p.fill a).get f = match a f with
      | some v => v.1
      | none => p.get f := by
  cases ha : a f with
  | none => exact slice_fillBytes_of_none ha L.fields p.length_eq
  | some v => exact slice_fillBytes_of_some ha L.fields p.length_eq (Or.inl (L.complete f))

end CLayout
