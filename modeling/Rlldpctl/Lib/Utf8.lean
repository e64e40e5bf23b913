import Mathlib.Data.List.Basic

/-!
# UTF-8 and its lossy reading

A string as its UTF-8 bytes (`utf8Bytes`) and the lossy conversion back (`fromUtf8Lossy`): valid
sequences give their character, and every maximal prefix of an invalid one gives one U+FFFD. One
character is decoded by Lean's own `ByteArray.utf8DecodeChar?`; `invalidLen` is how many bytes are
given up where it fails. On the bytes of a string the lossy reading is exact
(`fromUtf8Lossy_utf8Bytes`).
-/

namespace Utf8

/-- The UTF-8 bytes of a string. -/
def utf8Bytes (s : String) : List UInt8 :=
  s.toList.flatMap String.utf8EncodeChar

/-- The character at the front of a byte string. -/
def decodeChar? (bs : List UInt8) : Option Char :=
  (bs.take 4).toByteArray.utf8DecodeChar? 0

/-- A continuation byte. -/
def isContinuation (b : UInt8) : Bool :=
  b &&& 0xc0 == 0x80

/-- Whether `b` may follow the first byte `b0` of a sequence of three or four bytes. -/
def mayFollow (b0 b : UInt8) : Bool :=
  if b0 == 0xe0 then 0xa0 ≤ b && b ≤ 0xbf
  else if b0 == 0xed then 0x80 ≤ b && b ≤ 0x9f
  else if b0 == 0xf0 then 0x90 ≤ b && b ≤ 0xbf
  else if b0 == 0xf4 then 0x80 ≤ b && b ≤ 0x8f
  else isContinuation b

/-- How many bytes of an invalid sequence are replaced together: its first byte and the bytes
after it that a valid sequence could still continue with. -/
def invalidLen : List UInt8 → Nat
  | b0 :: b1 :: b2 :: _ =>
    if 0xe0 ≤ b0 && b0 ≤ 0xef then
      if mayFollow b0 b1 then 2 else 1
    else if 0xf0 ≤ b0 && b0 ≤ 0xf4 then
      if mayFollow b0 b1 then
        if isContinuation b2 then 3 else 2
      else 1
    else 1
  | b0 :: b1 :: [] =>
    if 0xe0 ≤ b0 && b0 ≤ 0xf4 && mayFollow b0 b1 then 2 else 1
  | _ => 1

/-- The lossy reading of a byte string whose first `skip` bytes are already accounted for. -/
def lossyFrom : Nat → List UInt8 → List Char
  | _, [] => []
  | skip + 1, _ :: bs => lossyFrom skip bs
  | 0, b :: bs =>
    match decodeChar? (b :: bs) with
    | some c => c :: lossyFrom (c.utf8Size - 1) bs
    | none => '\uFFFD' :: lossyFrom (invalidLen (b :: bs) - 1) bs

/-- The lossy reading of a byte string. -/
def fromUtf8Lossy (bs : List UInt8) : String :=
  String.ofList (lossyFrom 0 bs)

/-- A character is decoded at the front of what follows. -/
lemma decodeChar?_append (c : Char) (bs : List UInt8) :
    decodeChar? (String.utf8EncodeChar c ++ bs) = some c := by
  have hlen : (String.utf8EncodeChar c).length ≤ 4 := by
    rw [String.length_utf8EncodeChar]
    exact c.utf8Size_le_four
  rw [decodeChar?, List.take_append, List.take_of_length_le hlen, List.toByteArray_append]
  exact ByteArray.utf8DecodeChar?_utf8EncodeChar_append

/-- The lossy reading goes on behind what was skipped. -/
lemma lossyFrom_append (as bs : List UInt8) : lossyFrom as.length (as ++ bs) = lossyFrom 0 bs := by
  induction as with
  | nil => rfl
  | cons a as ih => exact ih

/-- A character's own bytes give the character. -/
lemma lossyFrom_utf8EncodeChar (c : Char) (bs : List UInt8) :
    lossyFrom 0 (String.utf8EncodeChar c ++ bs) = c :: lossyFrom 0 bs := by
  have hdec := decodeChar?_append c bs
  have hlen := String.length_utf8EncodeChar c
  have hpos := c.utf8Size_pos
  cases henc : String.utf8EncodeChar c with
  | nil =>
    rw [henc, List.length_nil] at hlen
    omega
  | cons b rest =>
    rw [henc] at hdec hlen
    have hrest : c.utf8Size - 1 = rest.length := by
      rw [List.length_cons] at hlen
      omega
    rw [List.cons_append] at hdec ⊢
    simp only [lossyFrom, hdec, hrest, lossyFrom_append]

/-- The lossy reading of a string's bytes is the string. -/
lemma fromUtf8Lossy_utf8Bytes (s : String) : fromUtf8Lossy (utf8Bytes s) = s := by
  have h : ∀ cs : List Char, lossyFrom 0 (cs.flatMap String.utf8EncodeChar) = cs := by
    intro cs
    induction cs with
    | nil => rfl
    | cons c cs ih => rw [List.flatMap_cons, lossyFrom_utf8EncodeChar, ih]
  rw [fromUtf8Lossy, utf8Bytes, h, String.ofList_toList]

/-- Exactly the bytes of a string survive the lossy reading. -/
lemma utf8Bytes_fromUtf8Lossy (bs : List UInt8) :
    utf8Bytes (fromUtf8Lossy bs) = bs ↔ ∃ s, utf8Bytes s = bs := by
  refine ⟨fun h => ⟨_, h⟩, ?_⟩
  rintro ⟨s, rfl⟩
  rw [fromUtf8Lossy_utf8Bytes]

/-- A character that is decoded is at the front. -/
lemma prefix_of_decodeChar? {bs : List UInt8} {c : Char} (h : decodeChar? bs = some c) :
    String.utf8EncodeChar c <+: bs := by
  obtain ⟨rest, hrest⟩ := ByteArray.exists_of_utf8DecodeChar?_eq_some h
  have hlist := congrArg (fun b => b.data.toList) hrest
  simp only [ByteArray.data_append, List.data_toByteArray, Array.toList_append] at hlist
  exact (List.prefix_append _ _).trans (hlist ▸ List.take_prefix 4 bs)

/-- The lossy reading of a byte string is at most three times as long. -/
lemma length_lossy_le (bs : List UInt8) : (utf8Bytes (fromUtf8Lossy bs)).length ≤ 3 * bs.length := by
  have hchars : ∀ skip, ((lossyFrom skip bs).flatMap String.utf8EncodeChar).length ≤
      3 * (bs.length - skip) := by
    induction bs with
    | nil =>
      intro skip
      cases skip <;> exact Nat.zero_le _
    | cons b bs ih =>
      intro skip
      cases skip with
      | succ skip =>
        rw [List.length_cons, Nat.add_sub_add_right]
        exact ih skip
      | zero =>
        rw [lossyFrom]
        cases hd : decodeChar? (b :: bs) with
        | some c =>
          have hrest := ih (c.utf8Size - 1)
          have hle := (prefix_of_decodeChar? hd).length_le
          have hpos := c.utf8Size_pos
          rw [String.length_utf8EncodeChar, List.length_cons] at hle
          dsimp only
          rw [List.flatMap_cons, List.length_append, String.length_utf8EncodeChar, List.length_cons]
          omega
        | none =>
          have hrest := ih (invalidLen (b :: bs) - 1)
          have hreplaced : (String.utf8EncodeChar '\uFFFD').length = 3 := by decide
          dsimp only
          rw [List.flatMap_cons, List.length_append, hreplaced, List.length_cons]
          omega
  rw [utf8Bytes, fromUtf8Lossy, String.toList_ofList]
  exact hchars 0

/-- The lossy reading of a byte string without NULs is one. -/
lemma nul_notMem_lossy {bs : List UInt8} (h : 0 ∉ bs) : 0 ∉ utf8Bytes (fromUtf8Lossy bs) := by
  have hchars : ∀ skip, ∀ c ∈ lossyFrom skip bs, 0 ∉ String.utf8EncodeChar c := by
    induction bs with
    | nil =>
      intro skip c hc
      cases skip <;> cases hc
    | cons b bs ih =>
      have hrest := ih fun hmem => h (List.mem_cons_of_mem b hmem)
      intro skip
      cases skip with
      | succ skip => exact hrest skip
      | zero =>
        rw [lossyFrom]
        cases hd : decodeChar? (b :: bs) with
        | some c =>
          refine List.forall_mem_cons.mpr ⟨fun hmem => h ?_, hrest _⟩
          exact (prefix_of_decodeChar? hd).subset hmem
        | none => exact List.forall_mem_cons.mpr ⟨by decide, hrest _⟩
  rw [utf8Bytes, fromUtf8Lossy, String.toList_ofList]
  intro hmem
  obtain ⟨c, hc, hmem⟩ := List.mem_flatMap.mp hmem
  exact hchars 0 c hc hmem

/-- The strict reading of a byte string. -/
def fromUtf8 (bs : List UInt8) : Option String :=
  String.fromUTF8? bs.toByteArray

/-- The bytes of a string as an array. -/
lemma toByteArray_utf8Bytes (s : String) : (utf8Bytes s).toByteArray = s.toByteArray := by
  rw [← String.utf8Encode_toList]
  rfl

/-- Exactly the bytes of a string can be read strictly. -/
lemma fromUtf8_eq_some {bs : List UInt8} {s : String} : fromUtf8 bs = some s ↔ utf8Bytes s = bs := by
  unfold fromUtf8 String.fromUTF8?
  refine ⟨fun h => ?_, fun h => ?_⟩
  · split at h
    case isFalse => cases h
    case isTrue hvalid =>
      cases h
      have hbytes : (utf8Bytes (.fromUTF8 _ hvalid)).toByteArray = bs.toByteArray :=
        toByteArray_utf8Bytes _
      have hlist := congrArg (fun b => b.data.toList) hbytes
      simpa only [List.data_toByteArray] using hlist
  · have hbytes : bs.toByteArray = s.toByteArray := h ▸ toByteArray_utf8Bytes s
    rw [dif_pos (hbytes ▸ s.isValidUTF8)]
    exact congrArg some (String.toByteArray_inj.mp hbytes)

end Utf8
