import Mathlib.Data.List.Forall2
import Rlldpctl.Lib.ByteReader

/-!
# Two buffers

A `Mirror` is two buffers of one length and a condition on calls, that a call finds the same in both of
them. Two readers reflect each other when, as long as the condition holds of every call that the first
one makes on the left, both succeed at the same position with related results or both fail. This is
closed under the monad operations and under `chain`.
-/

namespace ByteReader

variable {ε κ α α' β β' ρ τ : Type}

/-- Two buffers, and which calls find the same in both. -/
structure Mirror (ε κ : Type) where
  left : List UInt8
  right : List UInt8
  same : κ → Prop
  bound : Nat
  bad : ε
  length_eq : right.length = left.length
  length_le : left.length ≤ bound

namespace Mirror
variable (M : Mirror ε κ)

/-- The same position in both buffers. -/
structure Twins (s s' : State κ) : Prop where
  left : s.buf = M.left
  right : s'.buf = M.right
  pos : s'.pos = s.pos
  inside : s.pos ≤ M.left.length

/-- Both runs succeeded, at the same position and with results related by `A`, or both failed. -/
def Related (A : α → α' → Prop) :
    EStateM.Result ε (State κ) α → EStateM.Result ε (State κ) α' → Prop
  | .ok a s, .ok a' s' => A a a' ∧ M.Twins s s'
  | .error _ _, .error _ _ => True
  | _, _ => False

/-- The runs from `s` and `s'` are related if every call that the first one has made finds the same. -/
def ReflectsAt (A : α → α' → Prop) (d : Reader ε κ α) (d' : Reader ε κ α') (s s' : State κ) : Prop :=
  (∀ c ∈ (final (d s)).calls, M.same c) → M.Related A (d s) (d' s')

/-- From the same position the runs of `d` and `d'` are related. -/
structure Reflects (A : α → α' → Prop) (d : Reader ε κ α) (d' : Reader ε κ α') : Prop where
  safe : Safe M.bound M.bad d
  related : ∀ s s', M.Twins s s' → M.ReflectsAt A d d' s s'

variable {M} {A : α → α' → Prop} {B : β → β' → Prop}

/-- Results that are related are related more weakly. -/
lemma Related.weaken {A' : α → α' → Prop} (h : ∀ a a', A a a' → A' a a')
    {r : EStateM.Result ε (State κ) α} {r' : EStateM.Result ε (State κ) α'} (hr : M.Related A r r') :
    M.Related A' r r' := by
  cases r with
  | ok a s =>
    cases r' with
    | ok a' s' => exact ⟨h a a' hr.1, hr.2⟩
    | error e' s' => exact hr
  | error e s =>
    cases r' with
    | ok a' s' => exact hr
    | error e' s' => trivial

/-- A safe reader is safe on the left. -/
lemma Twins.safe {d : Reader ε κ α} (hd : Safe M.bound M.bad d) {s s' : State κ}
    (ht : M.Twins s s') : SafeResult M.bad s (d s) :=
  hd s (ht.left ▸ ht.inside) (ht.left ▸ M.length_le)

/-- The first part may return what has no counterpart on the right, so the second part is asked to be
safe whatever it is given. -/
lemma ReflectsAt.bind {d : Reader ε κ α} {d' : Reader ε κ α'} {f : α → Reader ε κ β}
    {f' : α' → Reader ε κ β'} {s s' : State κ} (ht : M.Twins s s') (hd : M.ReflectsAt A d d' s s')
    (hsafe : Safe M.bound M.bad d) (hsafe' : ∀ a, Safe M.bound M.bad (f a))
    (hf : ∀ a a' s₁ s₁', d s = .ok a s₁ → A a a' → M.Twins s₁ s₁' →
      M.ReflectsAt B (f a) (f' a') s₁ s₁') :
    M.ReflectsAt B (d >>= f) (d' >>= f') s s' := by
  intro hsame
  cases hx : d s with
  | ok a s₁ =>
    have hsafe₁ := ht.safe hsafe
    rw [bind_ok hx] at hsame ⊢
    rw [hx] at hsafe₁
    obtain ⟨hgrow, hin⟩ := hsafe₁
    have hlen : s₁.buf.length ≤ M.bound := by
      rw [hgrow.buf, ht.left]
      exact M.length_le
    -- what `d` has called is still there after the rest
    have hsub : s₁.calls ⊆ (final (f a s₁)).calls := (hsafe' a s₁ hin hlen).grows.calls.subset
    have hr : M.Related A (d s) (d' s') := by
      refine hd fun c hc => hsame c (hsub ?_)
      rwa [hx] at hc
    rw [hx] at hr
    cases hx' : d' s' with
    | ok a' s₁' =>
      rw [hx'] at hr
      rw [bind_ok hx']
      exact hf a a' s₁ s₁' hx hr.1 hr.2 hsame
    | error e' s₁' =>
      rw [hx'] at hr
      exact hr.elim
  | error e s₁ =>
    rw [bind_error hx] at hsame ⊢
    have hr : M.Related A (d s) (d' s') := by
      refine hd fun c hc => hsame c ?_
      rwa [hx] at hc
    rw [hx] at hr
    cases hx' : d' s' with
    | ok a' s₁' =>
      rw [hx'] at hr
      exact hr.elim
    | error e' s₁' =>
      rw [bind_error hx']
      trivial

namespace Reflects

/-- A reflection up to a weaker relation. -/
lemma weaken {A' : α → α' → Prop} {d : Reader ε κ α} {d' : Reader ε κ α'}
    (hd : M.Reflects A d d') (h : ∀ a a', A a a' → A' a a') : M.Reflects A' d d' :=
  ⟨hd.safe, fun s s' ht hsame => (hd.related s s' ht hsame).weaken h⟩

/-- Related values reflect each other. -/
lemma pure {a : α} {a' : α'} (h : A a a') :
    M.Reflects A (Pure.pure a : Reader ε κ α) (Pure.pure a' : Reader ε κ α') :=
  ⟨.pure a, fun _ _ ht _ => ⟨h, ht⟩⟩

/-- Errors reflect each other. -/
lemma throw {e e' : ε} (he : e ≠ M.bad) :
    M.Reflects A (MonadExcept.throw e : Reader ε κ α) (MonadExcept.throw e' : Reader ε κ α') :=
  ⟨.throw he, fun _ _ _ _ => trivial⟩

/-- Branches on equivalent conditions reflect each other. -/
lemma ite {c c' : Prop} [Decidable c] [Decidable c'] {d e : Reader ε κ α} {d' e' : Reader ε κ α'}
    (hc : c ↔ c') (hd : M.Reflects A d d') (he : M.Reflects A e e') :
    M.Reflects A (if c then d else e) (if c' then d' else e') := by
  by_cases h : c
  · rw [if_pos h, if_pos (hc.mp h)]
    exact hd
  · rw [if_neg h, if_neg fun h' => h (hc.mpr h')]
    exact he

/-- Two steps reflect each other, one after the other. -/
lemma bind {d : Reader ε κ α} {d' : Reader ε κ α'} {f : α → Reader ε κ β} {f' : α' → Reader ε κ β'}
    (hd : M.Reflects A d d') (hsafe : ∀ a, Safe M.bound M.bad (f a))
    (hf : ∀ a a', A a a' → M.Reflects B (f a) (f' a')) : M.Reflects B (d >>= f) (d' >>= f') :=
  ⟨.bind hd.safe hsafe, fun s s' ht => (hd.related s s' ht).bind ht hd.safe hsafe
    fun a a' s₁ s₁' _ ha ht₁ => (hf a a' ha).related s₁ s₁' ht₁⟩

/-- Everything the first part may return has a counterpart. -/
lemma bind_total {d : Reader ε κ α} {d' : Reader ε κ α'} {f : α → Reader ε κ β}
    {f' : α' → Reader ε κ β'} (hd : M.Reflects A d d') (htotal : ∀ a, ∃ a', A a a')
    (hf : ∀ a a', A a a' → M.Reflects B (f a) (f' a')) : M.Reflects B (d >>= f) (d' >>= f') := by
  refine hd.bind (fun a => ?_) hf
  obtain ⟨a', ha⟩ := htotal a
  exact (hf a a' ha).safe

/-- Both parts go on from the same result. -/
lemma bind_eq {d d' : Reader ε κ α} {f : α → Reader ε κ β} {f' : α → Reader ε κ β'}
    (hd : M.Reflects (· = ·) d d') (hf : ∀ a, M.Reflects B (f a) (f' a)) :
    M.Reflects B (d >>= f) (d' >>= f') :=
  hd.bind_total (fun a => ⟨a, rfl⟩) fun a _ h => h ▸ hf a

/-- The values of a chain are related element by element. -/
lemma chain {head head' : Reader ε κ ρ} {more more' : ρ → Bool}
    {finish finish' : ρ → τ → Reader ε κ (α × τ)} {hhead : Advances head} {hhead' : Advances head'}
    {H : ρ → ρ → Prop} {C : α → α → Prop} {D : τ → τ → Prop} (hd : M.Reflects H head head')
    (hmore : ∀ raw raw', H raw raw' → more raw = more' raw')
    (hsafe : ∀ raw t, Safe M.bound M.bad (finish raw t))
    (hf : ∀ raw raw', H raw raw' → ∀ t t', D t t' →
      M.Reflects (fun r r' => C r.1 r'.1 ∧ D r.2 r'.2) (finish raw t) (finish' raw' t'))
    {t t' : τ} (ht : D t t') :
    M.Reflects (fun r r' => List.Forall₂ C r.1 r'.1 ∧ D r.2 r'.2)
      (ByteReader.chain head more finish hhead t)
      (ByteReader.chain head' more' finish' hhead' t') := by
  have hchain : Safe M.bound M.bad (ByteReader.chain head more finish hhead t) :=
    safe_chain hd.safe hsafe t
  have hrestSafe : ∀ raw, Safe M.bound M.bad
      (restOf (more raw) (ByteReader.chain head more finish hhead t) t) := by
    intro raw
    unfold restOf
    cases more raw with
    | true => exact hchain
    | false => exact .pure _
  have hfinishSafe : ∀ raw (r : List α × τ), Safe M.bound M.bad
      (finish raw r.2 >>= fun q => Pure.pure (q.1 :: r.1, q.2)) :=
    fun raw r => .bind (hsafe raw r.2) fun _ => .pure _
  refine ⟨hchain, fun s => ?_⟩
  induction s using chain_induction hhead with
  | step s ih =>
    intro s' htwins
    rw [chain_eq t, chain_eq t']
    refine (hd.related s s' htwins).bind htwins hd.safe
      (fun raw => .bind (hrestSafe raw) (hfinishSafe raw)) fun raw raw' s₁ s₁' hx hraw ht₁ => ?_
    have hrest : M.ReflectsAt (fun r r' => List.Forall₂ C r.1 r'.1 ∧ D r.2 r'.2)
        (restOf (more raw) (ByteReader.chain head more finish hhead t) t)
        (restOf (more' raw') (ByteReader.chain head' more' finish' hhead' t') t') s₁ s₁' := by
      rw [← hmore raw raw' hraw]
      unfold restOf
      cases more raw with
      | true => exact ih raw s₁ hx s₁' ht₁
      | false => exact fun _ => ⟨⟨.nil, ht⟩, ht₁⟩
    refine hrest.bind ht₁ (hrestSafe raw) (hfinishSafe raw) fun r r' s₂ s₂' _ hr ht₂ => ?_
    have hfinish := hf raw raw' hraw r.2 r'.2 hr.2
    exact (hfinish.bind (fun _ => .pure _) fun q q' hq =>
      .pure ⟨.cons hq.1 hr.1, hq.2⟩).related s₂ s₂' ht₂

end Reflects

end Mirror

end ByteReader
