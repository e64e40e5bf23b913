import Mathlib.Algebra.BigOperators.Group.Multiset.Basic
import Rlldpctl.Lib.Chains
import Rlldpctl.Lib.Effects

/-!
# Which call read which part of a result

A `Ledger` says which parts of a result a call can hold, how long such a part is, and which parts need no
call. Parts are `Accounted` for by calls when they can be matched with different ones. `Yields` carries
this through a run: from calls that account for what was read before, the calls of the run account for
what has been read after it.
-/

namespace ByteReader

variable {ε κ α β ρ τ π : Type} {bound : Nat}

/-- Which parts of a result a call holds. -/
structure Ledger (κ π : Type) where
  holds : List UInt8 → π → κ → Nat → Prop
  empty : π → Prop

/-- The parts, the calls they were read by, and how long they are together. -/
inductive Accounted (L : Ledger κ π) (buf : List UInt8) :
    Multiset π → Multiset κ → Nat → Prop where
  | nil :
    Accounted L buf 0 0 0
  | empty {part} :
    L.empty part →
    Accounted L buf {part} 0 0
  | read {part c n} :
    L.holds buf part c n →
    Accounted L buf {part} {c} n
  | unused {c} :
    Accounted L buf 0 {c} 0
  | add {parts cs n parts' cs' n'} :
    Accounted L buf parts cs n →
    Accounted L buf parts' cs' n' →
    Accounted L buf (parts + parts') (cs + cs') (n + n')

variable {L : Ledger κ π} {buf : List UInt8}

/-- Parts are not longer than the calls that read them. -/
lemma Accounted.le_sum {size : κ → Nat} (hsize : ∀ part c n, L.holds buf part c n → n ≤ size c)
    {parts : Multiset π} {cs : Multiset κ} {n : Nat} (h : Accounted L buf parts cs n) :
    n ≤ (cs.map size).sum := by
  induction h with
  | nil => exact Nat.zero_le _
  | empty _ => exact Nat.zero_le _
  | read hholds =>
    rw [Multiset.map_singleton, Multiset.sum_singleton]
    exact hsize _ _ _ hholds
  | unused => exact Nat.zero_le _
  | add _ _ ih ih' =>
    rw [Multiset.map_add, Multiset.sum_add]
    exact Nat.add_le_add ih ih'

/-- Each part was read by a call, or did not have to be. -/
lemma Accounted.exists_holds {parts : Multiset π} {cs : Multiset κ} {n : Nat}
    (h : Accounted L buf parts cs n) {part : π} (hmem : part ∈ parts) :
    L.empty part ∨ ∃ c m, L.holds buf part c m ∧ m ≤ n := by
  induction h with
  | nil => exact absurd hmem (Multiset.notMem_zero part)
  | empty hempty =>
    rw [Multiset.mem_singleton.mp hmem]
    exact .inl hempty
  | read hholds =>
    rw [Multiset.mem_singleton.mp hmem]
    exact .inr ⟨_, _, hholds, Nat.le_refl _⟩
  | unused => exact absurd hmem (Multiset.notMem_zero part)
  | add _ _ ih ih' =>
    obtain hmem | hmem := Multiset.mem_add.mp hmem
    · obtain hempty | ⟨c, m, hholds, hle⟩ := ih hmem
      · exact .inl hempty
      · exact .inr ⟨c, m, hholds, Nat.le_trans hle (Nat.le_add_right _ _)⟩
    · obtain hempty | ⟨c, m, hholds, hle⟩ := ih' hmem
      · exact .inl hempty
      · exact .inr ⟨c, m, hholds, Nat.le_trans hle (Nat.le_add_left _ _)⟩

/-- Nothing of the result has to come from a call. -/
lemma Accounted.more {parts : Multiset π} {ds : Multiset κ} {n : Nat}
    (h : Accounted L buf parts ds n) (cs : List κ) : Accounted L buf parts (ds + cs) n := by
  induction cs with
  | nil => rwa [Multiset.coe_nil, add_zero]
  | cons c cs ih =>
    have hadd := ih.add (.unused (c := c))
    rwa [add_zero, add_zero, add_assoc, add_comm (cs : Multiset κ), Multiset.singleton_add,
      Multiset.cons_coe] at hadd

/-- One more part, read by one more call. -/
lemma Accounted.one {parts : Multiset π} {ds : Multiset κ} {n : Nat}
    (h : Accounted L buf parts ds n) {part : π} {c : κ} {m : Nat} (hholds : L.holds buf part c m) :
    Accounted L buf (parts + {part}) (ds + ([c] : List κ)) (n + m) := by
  rw [Multiset.coe_singleton]
  exact h.add (.read hholds)

/-- Since `s₀`, a state of a buffer of at most `bound` bytes, the calls made account for `acc`. -/
def Accrued (L : Ledger κ π) (bound : Nat) (s₀ s : State κ) (acc : Multiset π) : Prop :=
  s₀.buf.length ≤ bound ∧ ∃ cs n, Reached s₀ s cs ∧ Accounted L s₀.buf acc cs n

/-- At the start nothing has accrued. -/
lemma Accrued.start {s : State κ} (hpos : s.pos ≤ s.buf.length) (hlen : s.buf.length ≤ bound) :
    Accrued L bound s s 0 :=
  ⟨hlen, [], 0, .refl hpos, .nil⟩

/-- Calls that account for more. -/
lemma Accrued.step {s₀ s s' : State κ} {acc acc' : Multiset π} (h : Accrued L bound s₀ s acc)
    {cs : List κ} (hreach : Reached s s' cs)
    (hmore : ∀ (ds : List κ) n, Accounted L s.buf acc ds n →
      ∃ m, Accounted L s.buf acc' (ds + (cs : Multiset κ)) m) : Accrued L bound s₀ s' acc' := by
  obtain ⟨hlen, ds, n, hreach₀, hds⟩ := h
  rw [hreach₀.buf] at hmore
  obtain ⟨m, hm⟩ := hmore ds n hds
  rw [Multiset.coe_add] at hm
  exact ⟨hlen, ds ++ cs, m, hreach₀.trans hreach, hm⟩

/-- A run that succeeds with `a` goes from `acc` to `parts a`. -/
def Yields (L : Ledger κ π) (bound : Nat) (acc : Multiset π) (d : Reader ε κ α)
    (parts : α → Multiset π) : Prop :=
  ∀ s₀ s s' a, d s = .ok a s' → Accrued L bound s₀ s acc → Accrued L bound s₀ s' (parts a)

variable {acc : Multiset π}

/-- A value that yields what is there already. -/
lemma Yields.pure {a : α} {parts : α → Multiset π} (h : acc = parts a) :
    Yields L bound acc (Pure.pure a : Reader ε κ α) parts := by
  intro s₀ s s' a' hok hacc
  cases hok
  rwa [← h]

/-- A failure yields everything. -/
lemma Yields.throw {e : ε} {parts : α → Multiset π} :
    Yields L bound acc (MonadExcept.throw e : Reader ε κ α) parts := by
  intro s₀ s s' a hok _
  cases hok

/-- What two readers yield, one after the other. -/
lemma Yields.bind {d : Reader ε κ α} {f : α → Reader ε κ β} {parts : α → Multiset π}
    {parts' : β → Multiset π} (hd : Yields L bound acc d parts)
    (hf : ∀ a, Yields L bound (parts a) (f a) parts') : Yields L bound acc (d >>= f) parts' := by
  intro s₀ s s'' b hok hacc
  obtain ⟨a, s', hx, hok⟩ := bind_eq_ok hok
  exact hf a s₀ s' s'' b hok (hd s₀ s s' a hx hacc)

/-- A branch yields what both sides do. -/
lemma Yields.ite {c : Prop} [Decidable c] {d d' : Reader ε κ α} {parts : α → Multiset π}
    (hd : c → Yields L bound acc d parts) (hd' : ¬ c → Yields L bound acc d' parts) :
    Yields L bound acc (if c then d else d') parts := by
  split
  case isTrue h => exact hd h
  case isFalse h => exact hd' h

/-- A run whose result is not used. -/
lemma Yields.skip {E : Effect ε κ} {d : Reader ε κ α} (hd : Does E bound d) :
    Yields L bound acc d fun _ => acc := by
  intro s₀ s s' a hok hacc
  obtain ⟨hlen, ds, n, hreach, hds⟩ := hacc
  obtain ⟨cs, hreach', -⟩ := hd.reached hreach.pos (hreach.length_le hlen) hok
  exact .step ⟨hlen, ds, n, hreach, hds⟩ hreach' fun _ n h => ⟨n, h.more cs⟩

/-- The elements of a chain and what is threaded through it. The head of an element accounts for
`first raw`, its end for the rest. -/
lemma yields_chain {head : Reader ε κ ρ} {more : ρ → Bool} {finish : ρ → τ → Reader ε κ (α × τ)}
    {hhead : Advances head} {first : ρ → Multiset π} {item : α → Multiset π}
    {threaded : τ → Multiset π}
    (hd : ∀ acc, Yields L bound acc head fun raw => acc + first raw)
    (hf : ∀ acc raw t, Yields L bound (acc + first raw + threaded t) (finish raw t) fun p =>
      acc + item p.1 + threaded p.2) (t : τ) :
    Yields L bound (acc + threaded t) (chain head more finish hhead t) fun p =>
      acc + (p.1.map item).sum + threaded p.2 := by
  intro s₀ s
  induction s using chain_induction hhead generalizing acc with
  | step s ih =>
    rintro s' ⟨as, t'⟩ hok hacc
    obtain ⟨raw, s₁, rest, t₁, s₂, a, hx, hrest, hfinish, rfl⟩ := chain_ok hok
    have hhead : Accrued L bound s₀ s₁ (acc + first raw + threaded t) := by
      rw [add_right_comm]
      exact hd _ s₀ s s₁ raw hx hacc
    -- the rest of the list is read while the head of this element is already accounted for
    have htail : Accrued L bound s₀ s₂ (acc + (rest.map item).sum + first raw + threaded t₁) := by
      rw [add_right_comm acc]
      cases hmore : more raw with
      | true =>
        rw [hmore] at hrest
        exact ih raw s₁ hx s₂ (rest, t₁) hrest hhead
      | false =>
        rw [hmore] at hrest
        cases hrest
        rwa [List.map_nil, List.sum_nil, add_zero]
    have hend := hf _ raw t₁ s₀ s₂ s' (a, t') hfinish htail
    dsimp only
    rwa [List.map_cons, List.sum_cons, add_comm (item a), ← add_assoc]

end ByteReader
