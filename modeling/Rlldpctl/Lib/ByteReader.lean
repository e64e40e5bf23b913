import Mathlib.Data.List.Infix
import Mathlib.Order.Basic

/-!
# Byte readers

Programs that read a byte buffer from left to right and may fail. The state is the buffer, the position
and a trace of the calls made so far; it survives a failure, as a `&mut` cursor does. The trace is
written by the primitives of an instance and read by none.

`Safe` packages what holds of every run from a position inside the buffer: the buffer stays, position
and trace only grow, the run never ends in the fault `bad`, and it ends inside the buffer when it
succeeds. It is closed under the monad operations and under `chain`, the shape of a list whose elements
are read inside-out: an element's head, then the rest of the list if the head says there is one, then
what is left of the element. A chain ends because every head consumes bytes.
-/

namespace ByteReader

/-! ## Sequencing -/

section Bind
variable {ε σ α β : Type}

/-- After a step that succeeds comes the next one. -/
lemma bind_ok {x : EStateM ε σ α} {f : α → EStateM ε σ β} {s s' : σ} {a : α}
    (h : x s = .ok a s') : (x >>= f) s = f a s' := by
  show EStateM.bind x f s = _
  rw [EStateM.bind, h]

/-- After a step that fails comes nothing. -/
lemma bind_error {x : EStateM ε σ α} {f : α → EStateM ε σ β} {s s' : σ} {e : ε}
    (h : x s = .error e s') : (x >>= f) s = .error e s' := by
  show EStateM.bind x f s = _
  rw [EStateM.bind, h]

/-- Two steps that succeed together succeed one by one. -/
lemma bind_eq_ok {x : EStateM ε σ α} {f : α → EStateM ε σ β} {s s'' : σ} {b : β}
    (h : (x >>= f) s = .ok b s'') : ∃ a s', x s = .ok a s' ∧ f a s' = .ok b s'' := by
  cases hx : x s with
  | ok a s' =>
    rw [bind_ok hx] at h
    exact ⟨a, s', rfl, h⟩
  | error e s' =>
    rw [bind_error hx] at h
    cases h

/-- The state a run ends in. -/
def final : EStateM.Result ε σ α → σ
  | .ok _ s => s
  | .error _ s => s

end Bind

/-! ## State -/

/-- The buffer, how much of it has been read, and the calls made so far. -/
structure State (κ : Type) where
  buf : List UInt8
  pos : Nat
  calls : List κ

/-- A program that reads a buffer. -/
abbrev Reader (ε κ α : Type) := EStateM ε (State κ) α

variable {ε κ α β ρ τ : Type}

/-- The bytes not read yet. -/
def State.remaining (s : State κ) : Nat := s.buf.length - s.pos

/-- What every step keeps. -/
structure State.Grows (s s' : State κ) : Prop where
  buf : s'.buf = s.buf
  pos : s.pos ≤ s'.pos
  calls : s.calls <+: s'.calls

/-- Growing by nothing. -/
lemma State.Grows.refl (s : State κ) : s.Grows s :=
  ⟨rfl, le_rfl, List.prefix_rfl⟩

/-- Growing twice. -/
lemma State.Grows.trans {s s' s'' : State κ} (h : s.Grows s') (h' : s'.Grows s'') : s.Grows s'' :=
  ⟨h'.buf.trans h.buf, h.pos.trans h'.pos, h.calls.trans h'.calls⟩

/-! ## Safe readers -/

/-- A run from `s` that did not end in `bad`, only moved forward, and is inside the buffer if it
succeeded. -/
def SafeResult (bad : ε) (s : State κ) : EStateM.Result ε (State κ) α → Prop
  | .ok _ s' => s.Grows s' ∧ s'.pos ≤ s'.buf.length
  | .error e s' => s.Grows s' ∧ e ≠ bad

/-- From a position inside a buffer of at most `bound` bytes, every run is safe. -/
def Safe (bound : Nat) (bad : ε) (d : Reader ε κ α) : Prop :=
  ∀ s : State κ, s.pos ≤ s.buf.length → s.buf.length ≤ bound → SafeResult bad s (d s)

section Safe
variable {bound : Nat} {bad : ε}

/-- A safe result has grown. -/
lemma SafeResult.grows {s : State κ} {r : EStateM.Result ε (State κ) α} (h : SafeResult bad s r) :
    s.Grows (final r) := by
  cases r with
  | ok a s' => exact h.1
  | error e s' => exact h.1

/-- A safe result is safe from an earlier state. -/
lemma SafeResult.trans {s s' : State κ} {r : EStateM.Result ε (State κ) α} (h : s.Grows s')
    (h' : SafeResult bad s' r) : SafeResult bad s r := by
  cases r with
  | ok a s'' => exact ⟨h.trans h'.1, h'.2⟩
  | error e s'' => exact ⟨h.trans h'.1, h'.2⟩

/-- Returning a value is safe. -/
lemma Safe.pure (a : α) : Safe bound bad (Pure.pure a : Reader ε κ α) :=
  fun s hpos _ => ⟨.refl s, hpos⟩

/-- Failing is safe, unless it is the bad error. -/
lemma Safe.throw {e : ε} (he : e ≠ bad) : Safe bound bad (MonadExcept.throw e : Reader ε κ α) :=
  fun s _ _ => ⟨.refl s, he⟩

/-- Two steps from a state, one after the other. -/
lemma SafeResult.bind {d : Reader ε κ α} {f : α → Reader ε κ β} {s : State κ}
    (hd : SafeResult bad s (d s)) (hlen : s.buf.length ≤ bound)
    (hf : ∀ a, Safe bound bad (f a)) : SafeResult bad s ((d >>= f) s) := by
  cases hx : d s with
  | ok a s' =>
    rw [hx] at hd
    obtain ⟨hgrow, hpos⟩ := hd
    rw [bind_ok hx]
    exact .trans hgrow (hf a s' hpos (hgrow.buf ▸ hlen))
  | error e s' =>
    rw [hx] at hd
    rw [bind_error hx]
    exact hd

/-- Two safe readers, one after the other. -/
lemma Safe.bind {d : Reader ε κ α} {f : α → Reader ε κ β} (hd : Safe bound bad d)
    (hf : ∀ a, Safe bound bad (f a)) : Safe bound bad (d >>= f) :=
  fun s hpos hlen => (hd s hpos hlen).bind hlen hf

/-- A branch between safe readers. -/
lemma Safe.ite {p : Prop} [Decidable p] {d d' : Reader ε κ α} (hd : Safe bound bad d)
    (hd' : Safe bound bad d') : Safe bound bad (if p then d else d') := by
  split
  · exact hd
  · exact hd'

end Safe

/-! ## Chains -/

/-- When the reader succeeds it has consumed at least one byte of the buffer. -/
def Advances (d : Reader ε κ α) : Prop :=
  ∀ (s : State κ) a s', d s = .ok a s' → s'.buf = s.buf ∧ s.pos < s'.pos ∧ s'.pos ≤ s'.buf.length

/-- A reader that advances leaves less. -/
lemma Advances.remaining_lt {d : Reader ε κ α} (hd : Advances d) {s s' : State κ} {a : α}
    (h : d s = .ok a s') : s'.remaining < s.remaining := by
  obtain ⟨hbuf, hpos, hlen⟩ := hd s a s' h
  rw [hbuf] at hlen
  unfold State.remaining
  rw [hbuf]
  omega

/-- A list read inside-out: the head of an element, the rest of the list when `more` says there is one,
then what is left of the element. `t` is threaded through in the order the elements are finished. -/
def chain (head : Reader ε κ ρ) (more : ρ → Bool) (finish : ρ → τ → Reader ε κ (α × τ))
    (hhead : Advances head) (t : τ) (s : State κ) : EStateM.Result ε (State κ) (List α × τ) :=
  match _h : head s with
  | .error e s₁ => .error e s₁
  | .ok raw s₁ =>
    match (if more raw then chain head more finish hhead t s₁ else .ok ([], t) s₁) with
    | .error e s₂ => .error e s₂
    | .ok (rest, t') s₂ =>
      match finish raw t' s₂ with
      | .error e s₃ => .error e s₃
      | .ok (a, t'') s₃ => .ok (a :: rest, t'') s₃
termination_by s.remaining
decreasing_by exact hhead.remaining_lt _h

section Chain
variable {head : Reader ε κ ρ} {more : ρ → Bool} {finish : ρ → τ → Reader ε κ (α × τ)}
  {hhead : Advances head}

/-- The rest of a chain, when there is one. -/
def restOf (more : Bool) (tail : Reader ε κ (List α × τ)) (t : τ) : Reader ε κ (List α × τ) :=
  match more with
  | true => tail
  | false => pure ([], t)

/-- One element of a chain in front of `tail`. -/
def link (head : Reader ε κ ρ) (more : ρ → Bool) (finish : ρ → τ → Reader ε κ (α × τ))
    (tail : Reader ε κ (List α × τ)) (t : τ) : Reader ε κ (List α × τ) := do
  let raw ← head
  let (rest, t') ← restOf (more raw) tail t
  let (a, t'') ← finish raw t'
  pure (a :: rest, t'')

/-- A chain is one element in front of a chain. -/
lemma chain_eq (t : τ) :
    chain head more finish hhead t = link head more finish (chain head more finish hhead t) t := by
  funext s
  rw [chain]
  unfold link
  cases hx : head s with
  | error e s₁ => rw [bind_error hx]
  | ok raw s₁ =>
    rw [bind_ok hx]
    dsimp only
    have hite : (if more raw then chain head more finish hhead t s₁ else .ok ([], t) s₁) =
        restOf (more raw) (chain head more finish hhead t) t s₁ := by
      unfold restOf
      cases more raw <;> rfl
    rw [hite]
    cases hr : restOf (more raw) (chain head more finish hhead t) t s₁ with
    | error e s₂ => rw [bind_error hr]
    | ok p s₂ =>
      rw [bind_ok hr]
      dsimp only
      cases hf : finish raw p.2 s₂ with
      | error e s₃ => rw [bind_error hf]
      | ok q s₃ =>
        rw [bind_ok hf]
        rfl

/-- A property of runs holds of a chain when it holds of one element, given that it holds of the rest
of the chain from wherever the element's head ends. -/
lemma chain_induction (hhead : Advances head) {P : State κ → Prop}
    (step : ∀ s, (∀ raw s₁, head s = .ok raw s₁ → P s₁) → P s) (s : State κ) : P s := by
  induction hn : s.remaining using Nat.strong_induction_on generalizing s with
  | _ n ih =>
    subst hn
    exact step s fun raw s₁ h => ih _ (hhead.remaining_lt h) s₁ rfl

/-- A list is safe when its elements are. -/
lemma safe_chain {bound : Nat} {bad : ε} (hd : Safe bound bad head)
    (hf : ∀ raw t, Safe bound bad (finish raw t)) (t : τ) :
    Safe bound bad (chain head more finish hhead t) := by
  intro s
  induction s using chain_induction hhead with
  | step s ih =>
    intro hpos hlen
    have h := hd s hpos hlen
    rw [chain_eq]
    unfold link
    cases hx : head s with
    | error e s₁ =>
      rw [hx] at h
      rw [bind_error hx]
      exact h
    | ok raw s₁ =>
      rw [hx] at h
      obtain ⟨hgrow, hpos₁⟩ := h
      have hlen₁ : s₁.buf.length ≤ bound := hgrow.buf ▸ hlen
      rw [bind_ok hx]
      -- the rest of the chain is safe from `s₁` by the induction
      have hrest : SafeResult bad s₁
          (restOf (more raw) (chain head more finish hhead t) t s₁) := by
        unfold restOf
        cases more raw with
        | true => exact ih raw s₁ hx hpos₁ hlen₁
        | false => exact ⟨.refl s₁, hpos₁⟩
      refine .trans hgrow (hrest.bind hlen₁ fun p => ?_)
      exact (hf raw p.2).bind fun q => .pure (q.1 :: p.1, q.2)

end Chain

end ByteReader
