import Mathlib.Data.Nat.Init
import Mathlib.Tactic.ByContra
import Rlldpctl.Lib.Transitions

/-!
# Fair runs

Infinite runs of a transition system, in which nothing may happen for a while. A run is fair to a class of
events when one of them happens, unless at some time none of them can (`Run.Fair`). `Run.eventually` is the
rule for what a fair run comes to: until then there is always a class of which an event can happen and
brings it closer, and no other event leads away from it.
-/

namespace Transitions

variable {σ ε : Type} {step : σ → ε → Option σ} {allowed : σ → ε → Prop}

/-- An infinite run all of whose steps are allowed. -/
structure Run (step : σ → ε → Option σ) (allowed : σ → ε → Prop) where
  state : Nat → σ
  event : Nat → Option ε
  rests : ∀ t, event t = none → state (t + 1) = state t
  steps : ∀ t e, event t = some e → allowed (state t) e ∧ step (state t) e = some (state (t + 1))

/-- An event of the class `C` can happen. -/
def Enabled (step : σ → ε → Option σ) (allowed : σ → ε → Prop) (C : σ → ε → Prop) (s : σ) : Prop :=
  ∃ e s', C s e ∧ allowed s e ∧ step s e = some s'

namespace Run
variable (r : Run step allowed)

/-- When events of the class `C` can happen from some time on, one happens. -/
def Fair (C : σ → ε → Prop) : Prop :=
  ∀ t, (∀ u, t ≤ u → Enabled step allowed C (r.state u)) →
    ∃ u e, t ≤ u ∧ r.event u = some e ∧ C (r.state u) e

variable {r}

/-- Every state of a run is reached from its first one. -/
lemma reach (t : Nat) : Reach step allowed (r.state 0) (r.state t) := by
  induction t with
  | zero => exact .init
  | succ t ih =>
    cases he : r.event t with
    | none =>
      rw [r.rests t he]
      exact ih
    | some e =>
      obtain ⟨hallowed, hstep⟩ := r.steps t e he
      exact ih.step hallowed hstep

/-- `R a k s` says that `Q` is at most `a` away in the state `s`, and that the events of the class `k` bring
it closer. -/
theorem eventually {κ : Type} {C : κ → σ → ε → Prop} (hfair : ∀ k, r.Fair (C k))
    {R : Nat → κ → σ → Prop} {Q : Nat → Prop}
    (henabled : ∀ {a k t}, R a k (r.state t) → Enabled step allowed (C k) (r.state t))
    (hstep : ∀ {a k t e}, R a k (r.state t) → r.event t = some e →
      Q t ∨ (∃ b k', b < a ∧ R b k' (r.state (t + 1))) ∨
        ¬ C k (r.state t) e ∧ R a k (r.state (t + 1)))
    {a : Nat} {k : κ} {t : Nat} (h : R a k (r.state t)) : ∃ u, t ≤ u ∧ Q u := by
  induction a using Nat.strongRecOn generalizing k t with
  | ind a ih =>
    by_contra hnot
    have hnever : ∀ u, t ≤ u → ¬ Q u := fun u hu hq => hnot ⟨u, hu, hq⟩
    have hcloser : ∀ u, t ≤ u → ∀ b k', b < a → ¬ R b k' (r.state u) := by
      intro u hu b k' hb hR
      obtain ⟨v, hv, hq⟩ := ih b hb hR
      exact hnever v (Nat.le_trans hu hv) hq
    -- if it never came closer, it would stay where it is
    have hstays : ∀ u, t ≤ u → R a k (r.state u) := by
      intro u hu
      induction u, hu using Nat.le_induction with
      | base => exact h
      | succ u hu ihu =>
        cases he : r.event u with
        | none =>
          rw [r.rests u he]
          exact ihu
        | some e =>
          obtain hq | ⟨b, k', hb, hR⟩ | ⟨-, hR⟩ := hstep ihu he
          · exact absurd hq (hnever u hu)
          · exact absurd hR (hcloser (u + 1) (Nat.le_succ_of_le hu) b k' hb)
          · exact hR
    obtain ⟨u, e, hu, he, hC⟩ := hfair k t fun u hu => henabled (hstays u hu)
    obtain hq | ⟨b, k', hb, hR⟩ | ⟨hnot, -⟩ := hstep (hstays u hu) he
    · exact hnever u hu hq
    · exact hcloser (u + 1) (Nat.le_succ_of_le hu) b k' hb hR
    · exact hnot hC

end Run

/-! ## Finite runs -/

section
variable [∀ s e, Decidable (allowed s e)]

/-- Two lists of events, one after the other. -/
lemma run_append (s : σ) (es es' : List ε) :
    run step allowed s (es ++ es') = (run step allowed s es).bind fun s' => run step allowed s' es' := by
  induction es generalizing s with
  | nil => rfl
  | cons e es ih =>
    rw [List.cons_append, run, run]
    split
    · rw [Option.bind_assoc]
      exact congrArg _ (funext ih)
    · rfl

/-- A list of one event is an allowed step. -/
lemma run_singleton {s s' : σ} {e : ε} (h : run step allowed s [e] = some s') :
    allowed s e ∧ step s e = some s' := by
  rw [run] at h
  split at h
  case isFalse => cases h
  case isTrue hallowed =>
    obtain ⟨s₁, hs, hrest⟩ := Option.bind_eq_some_iff.mp h
    cases hrest
    exact ⟨hallowed, hs⟩

variable {s₀ s : σ} {es : List ε} (h : run step allowed s₀ es = some s)
include h

/-- A part of the events leads somewhere. -/
lemma run_take (t : Nat) : ∃ s', run step allowed s₀ (es.take t) = some s' := by
  rw [← List.take_append_drop t es, run_append] at h
  obtain ⟨s', hs', -⟩ := Option.bind_eq_some_iff.mp h
  exact ⟨s', hs'⟩

/-- After the events nothing happens any more. -/
def Run.ofEvents : Run step allowed where
  state t := (run step allowed s₀ (es.take t)).getD s₀
  event t := es[t]?
  rests t he := by
    have hle : es.length ≤ t := List.getElem?_eq_none_iff.mp he
    rw [List.take_of_length_le hle, List.take_of_length_le (Nat.le_succ_of_le hle)]
  steps t e he := by
    obtain ⟨s₁, hs₁⟩ := run_take h t
    obtain ⟨s₂, hs₂⟩ := run_take h (t + 1)
    rw [hs₁, hs₂]
    rw [List.take_add_one, he, Option.toList_some, run_append, hs₁] at hs₂
    exact run_singleton hs₂

/-- The states of a run made of events are those of the events so far. -/
lemma Run.state_ofEvents {t : Nat} {s' : σ} (ht : run step allowed s₀ (es.take t) = some s') :
    (Run.ofEvents h).state t = s' := by
  show (run step allowed s₀ (es.take t)).getD s₀ = s'
  rw [ht]
  rfl

/-- That is fair when nothing can happen. -/
lemma Run.fair_ofEvents {C : σ → ε → Prop} (hdone : ¬ Enabled step allowed C s) :
    (Run.ofEvents h).Fair C := by
  intro t henabled
  have hall : run step allowed s₀ (es.take (max t es.length)) = some s := by
    rw [List.take_of_length_le (Nat.le_max_right _ _)]
    exact h
  have hlast := henabled (max t es.length) (Nat.le_max_left _ _)
  rw [Run.state_ofEvents h hall] at hlast
  exact absurd hlast hdone

end

end Transitions
