import Rlldpctl.Lib.ByteReader
import Rlldpctl.Lib.CLayout

/-!
# Nested chunks

A format in which a chunk is a front (a header and its own content) followed by the chunks nested in
it, each at the next multiple of `w` counted from the start of the enclosing chunk. `nested` lays chunks
out; as every chunk starts at a multiple of `w`, it does not matter from where the multiples are counted
(`nested_congr`).

`Consumes` says that a reader reads some chunks, wherever in a buffer they are, and what it returns. The
two counters number the chunks: a buffer has at least one byte for each, so a number that is read never
exceeds the buffer. The rules are those of the monad, and `Consumes.node` for a chunk with others nested
in it. `Refuses` is its counterpart for readers that fail.
-/

namespace Nesting
open CLayout ByteReader

/-! ## Layout -/

/-- The zero bytes in front of a chunk. -/
def padding (w p : Nat) : List UInt8 :=
  List.replicate (roundUp p w - p) 0

/-- Chunks laid out from position `p` on. -/
def nested (w : Nat) : Nat → List (List UInt8) → List UInt8
  | _, [] => []
  | p, b :: bs => padding w p ++ b ++ nested w (roundUp p w + b.length) bs

/-- The length of the padding. -/
@[simp] lemma length_padding (w p : Nat) : (padding w p).length = roundUp p w - p :=
  List.length_replicate

/-- There is no padding at the start. -/
@[simp] lemma padding_zero (w : Nat) : padding w 0 = [] := by
  simp [padding, roundUp]

/-- Nothing is nested. -/
@[simp] lemma nested_nil (w p : Nat) : nested w p [] = [] := rfl

/-- The first part, padded, and then the others. -/
lemma nested_cons (w p : Nat) (b : List UInt8) (bs : List (List UInt8)) :
    nested w p (b :: bs) = padding w p ++ b ++ nested w (roundUp p w + b.length) bs := rfl

/-- Behind aligned positions the remainders are equal. -/
lemma roundUp_add_mod {w m n : Nat} (hw : 0 < w) (k : Nat) :
    (roundUp m w + k) % w = (roundUp n w + k) % w := by
  rw [Nat.add_mod, Nat.add_mod (roundUp n w), roundUp_mod m hw, roundUp_mod n hw]

/-- The layout depends on the position modulo `w` only. -/
lemma nested_congr {w m n : Nat} (hw : 0 < w) (h : m % w = n % w) (bs : List (List UInt8)) :
    nested w m bs = nested w n bs := by
  cases bs with
  | nil => rfl
  | cons b bs =>
    rw [nested_cons, nested_cons, padding, padding, roundUp_sub_congr h]
    rw [nested_congr hw (roundUp_add_mod hw b.length) bs]

/-- Laying chunks out one after another is laying them out together. -/
lemma nested_append {w : Nat} (p : Nat) (bs cs : List (List UInt8)) :
    nested w p (bs ++ cs) = nested w p bs ++ nested w (p + (nested w p bs).length) cs := by
  induction bs generalizing p with
  | nil => rfl
  | cons b bs ih =>
    have hp := le_roundUp p w
    have hlen : p + (padding w p ++ b ++ nested w (roundUp p w + b.length) bs).length =
        roundUp p w + b.length + (nested w (roundUp p w + b.length) bs).length := by
      simp only [List.length_append, length_padding]
      omega
    rw [List.cons_append, nested_cons, nested_cons, hlen, ih, List.append_assoc _ (nested w _ bs)]

/-! ## Reading chunks -/

variable {ε κ α β ρ τ : Type} {w bound : Nat}

/-- From the position of `s` on, a buffer of at most `bound` bytes holds `bytes`. -/
structure Holds (bound : Nat) (s : State κ) (bytes : List UInt8) : Prop where
  pos : s.pos ≤ s.buf.length
  len : s.buf.length ≤ bound
  front : bytes <+: s.buf.drop s.pos

/-- The reader returns `a` and moves over `n` bytes. -/
def Moves (d : Reader ε κ α) (s : State κ) (a : α) (n : Nat) : Prop :=
  ∃ s', d s = .ok a s' ∧ s'.buf = s.buf ∧ s'.pos = s.pos + n

/-- Wherever in a buffer the chunks `bs` are, with at most as many chunks before them as bytes, the
reader reads them and returns `a`, and `n'` is the number of chunks up to their end. -/
def Consumes (w bound n : Nat) (d : Reader ε κ α) (bs : List (List UInt8)) (a : α) (n' : Nat) :
    Prop :=
  n ≤ n' ∧ ∀ s : State κ, Holds bound s (nested w s.pos bs) → n ≤ s.pos →
    Moves d s a (nested w s.pos bs).length ∧ n' ≤ s.pos + (nested w s.pos bs).length

/-- What is held lies inside the buffer. -/
lemma Holds.length_le {s : State κ} {bytes : List UInt8} (h : Holds bound s bytes) :
    s.pos + bytes.length ≤ s.buf.length := by
  have hle := h.front.length_le
  have hpos := h.pos
  rw [List.length_drop] at hle
  omega

/-- What holds two parts holds the first. -/
lemma Holds.left {s : State κ} {as bs : List UInt8} (h : Holds bound s (as ++ bs)) :
    Holds bound s as :=
  ⟨h.pos, h.len, (List.prefix_append as bs).trans h.front⟩

/-- What is held after the first part has been read. -/
lemma Holds.right {s s' : State κ} {as bs : List UInt8} (h : Holds bound s (as ++ bs))
    (hbuf : s'.buf = s.buf) (hpos : s'.pos = s.pos + as.length) : Holds bound s' bs := by
  have hlen := h.left.length_le
  refine ⟨by rw [hbuf, hpos]; exact hlen, by rw [hbuf]; exact h.len, ?_⟩
  obtain ⟨rest, hrest⟩ := h.front
  refine ⟨rest, ?_⟩
  rw [hbuf, hpos, ← List.drop_drop, ← hrest, List.append_assoc, List.drop_left]

/-- The bytes that are held, as a slice of the buffer. -/
lemma Holds.slice {s : State κ} {as bs cs : List UInt8} (h : Holds bound s (as ++ bs ++ cs)) :
    slice s.buf (s.pos + as.length) bs.length = bs := by
  obtain ⟨rest, hrest⟩ := h.front
  rw [CLayout.slice, ← List.drop_drop, ← hrest]
  simp [List.append_assoc]

namespace Consumes

/-- Returning a value consumes nothing. -/
lemma pure {n : Nat} (a : α) : Consumes w bound n (Pure.pure a : Reader ε κ α) [] a n :=
  ⟨le_rfl, fun s _ hn => ⟨⟨s, rfl, rfl, rfl⟩, hn⟩⟩

/-- Two readers consume their parts, one after the other. -/
lemma bind {n m n' : Nat} {d : Reader ε κ α} {f : α → Reader ε κ β} {bs cs : List (List UInt8)}
    {a : α} {b : β} (hd : Consumes w bound n d bs a m) (hf : Consumes w bound m (f a) cs b n') :
    Consumes w bound n (d >>= f) (bs ++ cs) b n' := by
  refine ⟨hd.1.trans hf.1, fun s hs hn => ?_⟩
  rw [nested_append] at hs ⊢
  obtain ⟨⟨s₁, hx, hbuf, hpos⟩, hm⟩ := hd.2 s hs.left hn
  rw [← hpos] at hs hm ⊢
  obtain ⟨⟨s₂, hy, hbuf', hpos'⟩, hn'⟩ := hf.2 s₁ (hs.right hbuf hpos) hm
  have hlen : s.pos + (nested w s.pos bs ++ nested w s₁.pos cs).length =
      s₁.pos + (nested w s₁.pos cs).length := by
    rw [List.length_append, hpos]
    omega
  rw [hlen]
  refine ⟨⟨s₂, ?_, hbuf'.trans hbuf, ?_⟩, hn'⟩
  · rw [bind_ok hx, hy]
  · rw [hpos', ← hlen]

end Consumes

/-- The reader reads one front, wherever it starts. -/
def Takes (w bound : Nat) (head : Reader ε κ ρ) (front : List UInt8) (r : ρ) : Prop :=
  ∀ s : State κ, Holds bound s (padding w s.pos ++ front) →
    Moves head s r (padding w s.pos ++ front).length

/-- Where the chunks nested in a chunk are, once its front has been read. -/
lemma Takes.inner {n : Nat} (hw : 0 < w) {head : Reader ε κ ρ} {front : List UInt8} {r : ρ}
    {inner : List (List UInt8)} (hfront : front ≠ [])
    (hhead : (front ++ nested w front.length inner).length ≤ bound → Takes w bound head front r)
    {s : State κ} (hs : Holds bound s (nested w s.pos [front ++ nested w front.length inner]))
    (hn : n ≤ s.pos) :
    ∃ s₁, head s = .ok r s₁ ∧ s₁.buf = s.buf ∧ Holds bound s₁ (nested w s₁.pos inner) ∧
      n + 1 ≤ s₁.pos ∧
      s.pos + (nested w s.pos [front ++ nested w front.length inner]).length =
        s₁.pos + (nested w s₁.pos inner).length := by
  have hpos := le_roundUp s.pos w
  have hsplit : nested w s.pos [front ++ nested w front.length inner] =
      padding w s.pos ++ front ++
        nested w (s.pos + (padding w s.pos ++ front).length) inner := by
    have hmod : front.length % w = (s.pos + (padding w s.pos ++ front).length) % w := by
      have hp : s.pos + (padding w s.pos ++ front).length = roundUp s.pos w + front.length := by
        rw [List.length_append, length_padding]
        omega
      rw [hp, Nat.add_mod, roundUp_mod s.pos hw, Nat.zero_add, Nat.mod_mod]
    rw [nested_cons, nested_nil, List.append_nil, nested_congr hw hmod inner, List.append_assoc]
  have hbound : (front ++ nested w front.length inner).length ≤ bound := by
    have h := hs.length_le
    have hl := hs.len
    rw [nested_cons, List.length_append, List.length_append] at h
    omega
  rw [hsplit] at hs ⊢
  obtain ⟨s₁, hx, hbuf, hpos₁⟩ := hhead hbound s hs.left
  have hfl : 0 < front.length := List.length_pos_iff.mpr hfront
  rw [← hpos₁] at hs ⊢
  refine ⟨s₁, hx, hbuf, hs.right hbuf hpos₁, ?_, ?_⟩
  · rw [hpos₁, List.length_append]
    omega
  · rw [List.length_append, hpos₁]
    omega

/-- A chunk with others nested in it: the head reads its front, and what follows reads the others. -/
lemma Consumes.node {n n' : Nat} (hw : 0 < w) {head : Reader ε κ ρ} {front : List UInt8} {r : ρ}
    {inner : List (List UInt8)} {f : ρ → Reader ε κ β} {b : β} (hfront : front ≠ [])
    (hhead : (front ++ nested w front.length inner).length ≤ bound → Takes w bound head front r)
    (hf : Consumes w bound (n + 1) (f r) inner b n') :
    Consumes w bound n (head >>= f) [front ++ nested w front.length inner] b n' := by
  refine ⟨(Nat.le_succ n).trans hf.1, fun s hs hn => ?_⟩
  obtain ⟨s₁, hx, hbuf, hs₁, hn₁, hlen⟩ := Takes.inner hw hfront hhead hs hn
  obtain ⟨⟨s₂, hy, hbuf', hpos'⟩, hn'⟩ := hf.2 s₁ hs₁ hn₁
  rw [hlen]
  refine ⟨⟨s₂, ?_, hbuf'.trans hbuf, ?_⟩, hn'⟩
  · rw [bind_ok hx, hy]
  · rw [hpos', ← hlen]

/-! ## Refusing chunks -/

/-- Wherever in a buffer the chunks `bs` are, the reader fails with an error of the kind `kind`. -/
def Refuses (w bound n : Nat) (d : Reader ε κ α) (bs : List (List UInt8)) (kind : ε → Prop) : Prop :=
  ∀ s : State κ, Holds bound s (nested w s.pos bs) → n ≤ s.pos →
    ∃ e s', d s = .error e s' ∧ kind e

namespace Refuses
variable {n m : Nat} {kind : ε → Prop} {bs cs : List (List UInt8)}

/-- A failure refuses everything. -/
lemma throw {e : ε} (h : kind e) :
    Refuses w bound n (MonadExcept.throw e : Reader ε κ α) bs kind :=
  fun s _ _ => ⟨e, s, rfl, h⟩

/-- A step that is refused is refused whatever comes after it. -/
lemma bind {d : Reader ε κ α} (h : Refuses w bound n d bs kind) (f : α → Reader ε κ β) :
    Refuses w bound n (d >>= f) bs kind := by
  intro s hs hn
  obtain ⟨e, s', he, hk⟩ := h s hs hn
  exact ⟨e, s', bind_error he, hk⟩

/-- What follows a reader that reads its own chunks refuses the ones after them. -/
lemma after {d : Reader ε κ α} {f : α → Reader ε κ β} {a : α} (hd : Consumes w bound n d bs a m)
    (hf : Refuses w bound m (f a) cs kind) : Refuses w bound n (d >>= f) (bs ++ cs) kind := by
  intro s hs hn
  rw [nested_append] at hs
  obtain ⟨⟨s₁, hx, hbuf, hpos⟩, hm⟩ := hd.2 s hs.left hn
  rw [← hpos] at hs hm
  obtain ⟨e, s', he, hk⟩ := hf s₁ (hs.right hbuf hpos) hm
  exact ⟨e, s', by rw [bind_ok hx, he], hk⟩

/-- A head is refused when what is nested in it is. -/
lemma node (hw : 0 < w) {head : Reader ε κ ρ} {front : List UInt8} {r : ρ}
    {inner : List (List UInt8)} {f : ρ → Reader ε κ β} (hfront : front ≠ [])
    (hhead : (front ++ nested w front.length inner).length ≤ bound → Takes w bound head front r)
    (hf : Refuses w bound (n + 1) (f r) inner kind) :
    Refuses w bound n (head >>= f) [front ++ nested w front.length inner] kind := by
  intro s hs hn
  obtain ⟨s₁, hx, -, hs₁, hn₁, -⟩ := Takes.inner hw hfront hhead hs hn
  obtain ⟨e, s', he, hk⟩ := hf s₁ hs₁ hn₁
  exact ⟨e, s', by rw [bind_ok hx, he], hk⟩

end Refuses

end Nesting
