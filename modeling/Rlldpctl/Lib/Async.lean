import Mathlib.Data.List.Basic

/-!
# Futures over a byte stream

A future is a program that suspends where it awaits bytes of its input or room for its output. A poll
hands some of the bytes to a read (`Fut.take`) or takes some of the bytes of a write (`Fut.put`). What a
read has been given is in the future only, so a future that is dropped loses it.

`Fut.run` drives a future to its end on the rest of its input. Polls do not change what it returns,
however the bytes are split (`run_take`).
-/

namespace Async

/-- A suspended program. The reader gets `none` when the input ends first. -/
inductive Fut (α : Type) where
  | done (a : α)
  | read (n : Nat) (k : Option (List UInt8) → Fut α)
  | write (bs : List UInt8) (k : Fut α)

variable {α β : Type}

namespace Fut

/-- One future after the other. -/
def bind : Fut α → (α → Fut β) → Fut β
  | .done a, f => f a
  | .read n k, f => .read n fun bs => (k bs).bind f
  | .write bs k, f => .write bs (k.bind f)

/-- Futures in a row. -/
instance : Monad Fut where
  pure := .done
  bind := .bind

/-- The monad's bind is this one. -/
lemma bind_eq (x : Fut α) (f : α → Fut β) : x >>= f = x.bind f := rfl

/-- Returning the result changes nothing. -/
lemma bind_done (x : Fut α) : x.bind .done = x := by
  induction x with
  | done a => rfl
  | read n k ih => exact congrArg (Fut.read n) (funext ih)
  | write bs k ih => exact congrArg (Fut.write bs) ih

/-- Futures in a row can be grouped either way. -/
lemma bind_assoc {γ : Type} (x : Fut α) (f : α → Fut β) (g : β → Fut γ) :
    (x.bind f).bind g = x.bind fun a => (f a).bind g := by
  induction x with
  | done a => rfl
  | read n k ih => exact congrArg (Fut.read n) (funext ih)
  | write bs k ih => exact congrArg (Fut.write bs) ih

/-- Futures in a row obey the laws of a monad. -/
instance : LawfulMonad Fut :=
  LawfulMonad.mk' Fut bind_done (fun _ _ => rfl) bind_assoc

/-! ## Running to the end -/

/-- How a run ends: the result, what is left of the input, and what was written. -/
structure Outcome (α : Type) where
  value : α
  rest : List UInt8
  written : List UInt8

/-- Run on all the input there will be. -/
def run : Fut α → List UInt8 → Outcome α
  | .done a, input => ⟨a, input, []⟩
  | .read n k, input =>
    if n ≤ input.length then
      (k (some (input.take n))).run (input.drop n)
    else
      (k none).run []
  | .write bs k, input =>
    let o := k.run input
    { o with written := bs ++ o.written }

/-- The second part of a program runs on what the first has left. -/
lemma run_bind (x : Fut α) (f : α → Fut β) (input : List UInt8) :
    (x >>= f).run input =
      let o := x.run input
      let o' := (f o.value).run o.rest
      { o' with written := o.written ++ o'.written } := by
  rw [bind_eq]
  induction x generalizing input with
  | done a => rfl
  | read n k ih =>
    rw [bind, run, run]
    by_cases hn : n ≤ input.length
    · rw [if_pos hn, if_pos hn, ih]
    · rw [if_neg hn, if_neg hn, ih]
  | write bs k ih =>
    rw [bind, run, run, ih]
    simp only [List.append_assoc]

/-! ## Polling -/

/-- Awaiting nothing does not suspend. -/
def settle : Fut α → Fut α
  | .done a => .done a
  | .read n k =>
    match n with
    | 0 => (k (some [])).settle
    | n + 1 => .read (n + 1) k
  | .write bs k =>
    match bs with
    | [] => k.settle
    | b :: bs => .write (b :: bs) k

/-- Hand `bs` to a read that awaits at least as much. -/
def take (bs : List UInt8) : Fut α → Option (Fut α)
  | .read n k =>
    if bs ≠ [] ∧ bs.length ≤ n then
      some (Fut.read (n - bs.length) fun more => k (more.map (bs ++ ·))).settle
    else
      none
  | _ => none

/-- Take `m` bytes of a write. -/
def put (m : Nat) : Fut α → Option (List UInt8 × Fut α)
  | .write bs k =>
    if 0 < m ∧ m ≤ bs.length then
      some (bs.take m, (Fut.write (bs.drop m) k).settle)
    else
      none
  | _ => none

/-- A write of some bytes waits. -/
lemma settle_write {bs : List UInt8} (h : bs ≠ []) (k : Fut α) :
    (Fut.write bs k).settle = .write bs k := by
  cases bs with
  | nil => exact absurd rfl h
  | cons b bs => rfl

/-- A read of some bytes waits. -/
lemma settle_read {n : Nat} (h : 0 < n) (k : Option (List UInt8) → Fut α) :
    (Fut.read n k).settle = .read n k := by
  cases n with
  | zero => exact absurd h (Nat.lt_irrefl 0)
  | succ n => rfl

/-- Settling does not change the run. -/
lemma run_settle (x : Fut α) (input : List UInt8) : x.settle.run input = x.run input := by
  induction x generalizing input with
  | done a => rfl
  | read n k ih =>
    cases n with
    | zero =>
      rw [settle, ih, run, if_pos (Nat.zero_le _), List.take_zero, List.drop_zero]
    | succ n => rfl
  | write bs k ih =>
    cases bs with
    | nil =>
      rw [settle, ih]
      rfl
    | cons b bs => rfl

/-- Bytes that were handed to a read are read. -/
lemma run_take {x x' : Fut α} {bs : List UInt8} (h : x.take bs = some x') (input : List UInt8) :
    x'.run input = x.run (bs ++ input) := by
  cases x with
  | done a => cases h
  | write cs k => cases h
  | read n k =>
    rw [take] at h
    split at h
    case isFalse => cases h
    case isTrue hbs =>
      obtain ⟨-, hle⟩ := hbs
      cases h
      rw [run_settle, run, run, List.length_append]
      by_cases hn : n ≤ bs.length + input.length
      · have hn' : n - bs.length ≤ input.length := by omega
        have htake : (bs ++ input).take n = bs ++ input.take (n - bs.length) := by
          rw [List.take_append, List.take_of_length_le hle]
        have hdrop : (bs ++ input).drop n = input.drop (n - bs.length) := by
          rw [List.drop_append, List.drop_of_length_le hle, List.nil_append]
        rw [if_pos hn, if_pos hn', htake, hdrop]
        rfl
      · have hn' : ¬ n - bs.length ≤ input.length := by omega
        rw [if_neg hn, if_neg hn']
        rfl

/-- A program that has ended after the bytes `got` has taken what its run takes. -/
lemma done_exact {x : Fut α} {got bs : List UInt8} {r a : α}
    (hdone : ∀ input, x.run (got ++ input) = ⟨r, input, []⟩)
    (hrun : ∀ input, x.run (bs ++ input) = ⟨a, input, []⟩) (h : got <+: bs ∨ bs <+: got) :
    got = bs ∧ r = a := by
  obtain ⟨more, rfl⟩ | ⟨more, rfl⟩ := h
  · have heq := hrun []
    rw [List.append_nil, hdone] at heq
    cases heq
    exact ⟨(List.append_nil _).symm, rfl⟩
  · have heq := hdone []
    rw [List.append_nil, hrun] at heq
    cases heq
    exact ⟨List.append_nil _, rfl⟩

/-- A read takes a byte at least. -/
lemma take_ne_nil {x x' : Fut α} {bs : List UInt8} (h : x.take bs = some x') : bs ≠ [] := by
  cases x with
  | done a => cases h
  | write cs k => cases h
  | read n k =>
    rw [take] at h
    split at h
    case isFalse => cases h
    case isTrue hbs => exact hbs.1

/-! ## Futures that only read -/

/-- The program writes nothing. -/
inductive Reads : Fut α → Prop where
  | done (a : α) : Reads (.done a)
  | read (n : Nat) {k : Option (List UInt8) → Fut α} : (∀ bs, Reads (k bs)) → Reads (.read n k)

/-- Two futures that write nothing, one after the other. -/
lemma Reads.bind {x : Fut α} {f : α → Fut β} (hx : Reads x) (hf : ∀ a, Reads (f a)) :
    Reads (x >>= f) := by
  induction hx with
  | done a => exact hf a
  | read n _ ih => exact .read n ih

/-- Settling writes nothing. -/
lemma Reads.settle {x : Fut α} (h : Reads x) : Reads x.settle := by
  induction h with
  | done a => exact .done a
  | read n hk ih =>
    cases n with
    | zero => exact ih _
    | succ n => exact .read _ hk

/-- What is left after a read writes nothing either. -/
lemma Reads.take {x x' : Fut α} {bs : List UInt8} (h : Reads x) (hx : x.take bs = some x') :
    Reads x' := by
  cases h with
  | done a => cases hx
  | read n hk =>
    rw [Fut.take] at hx
    split at hx
    case isFalse => cases hx
    case isTrue =>
      cases hx
      exact (Reads.read _ fun more => hk _).settle

/-- Such a future has nothing to write. -/
lemma Reads.put {x : Fut α} (h : Reads x) (m : Nat) : x.put m = none := by
  cases h with
  | done a => rfl
  | read n hk => rfl

end Fut

end Async
