import Mathlib.Logic.Relation

/-!
# Transition systems

A system whose steps are a partial function of the state and an event. `Reach` is the states of the runs
all of whose steps are allowed; `Reach.invariant` is the induction on them. `run` executes a list of
events.
-/

namespace Transitions

variable {σ ε : Type}

/-- The states that can be reached from `s₀` with steps that `allowed` permits. -/
inductive Reach (step : σ → ε → Option σ) (allowed : σ → ε → Prop) (s₀ : σ) : σ → Prop where
  | init : Reach step allowed s₀ s₀
  | step {s s' : σ} {e : ε} :
    Reach step allowed s₀ s →
    allowed s e →
    step s e = some s' →
    Reach step allowed s₀ s'

/-- Execute some events, each of which must be allowed. -/
def run (step : σ → ε → Option σ) (allowed : σ → ε → Prop) [∀ s e, Decidable (allowed s e)] :
    σ → List ε → Option σ
  | s, [] => some s
  | s, e :: es =>
    if allowed s e then
      (step s e).bind fun s' => run step allowed s' es
    else
      none

variable {step : σ → ε → Option σ} {allowed : σ → ε → Prop} {s₀ s : σ}

/-- What holds at first and is kept by every allowed step holds in every state that is reached. -/
lemma Reach.invariant {Inv : σ → Prop} (h : Reach step allowed s₀ s) (hinit : Inv s₀)
    (hstep : ∀ s e s', Inv s → allowed s e → step s e = some s' → Inv s') : Inv s := by
  induction h with
  | init => exact hinit
  | step _ hallowed hs ih => exact hstep _ _ _ ih hallowed hs

/-- A run that goes on. -/
lemma Reach.trans {s' : σ} (h : Reach step allowed s₀ s) (h' : Reach step allowed s s') :
    Reach step allowed s₀ s' := by
  induction h' with
  | init => exact h
  | step _ hallowed hs ih => exact ih.step hallowed hs

/-- Executed events are a run. -/
lemma Reach.run [∀ s e, Decidable (allowed s e)] {es : List ε} {s' : σ}
    (h : Reach step allowed s₀ s) (hrun : Transitions.run step allowed s es = some s') :
    Reach step allowed s₀ s' := by
  induction es generalizing s with
  | nil =>
    cases hrun
    exact h
  | cons e es ih =>
    rw [Transitions.run] at hrun
    split at hrun
    case isFalse => cases hrun
    case isTrue hallowed =>
      obtain ⟨s₁, hs, hrest⟩ := Option.bind_eq_some_iff.mp hrun
      exact ih (h.step hallowed hs) hrest

end Transitions
