import Rlldpctl.Lib.ByteReader

/-!
# How deep a chain goes

A chain reads the rest of its list from inside the call that reads an element, so its calls are nested.
`chainTo` is a chain that may nest a given number of calls only, and `depth` is the least number that is
enough. When every head takes at least `step` bytes, the bytes that are there bound the depth.
-/

namespace ByteReader

variable {ε κ α ρ τ : Type} {head : Reader ε κ ρ} {more : ρ → Bool}
  {finish : ρ → τ → Reader ε κ (α × τ)} {hhead : Advances head}

/-- The parts of a chain that succeeded. -/
lemma chain_ok {t t' : τ} {s s' : State κ} {as : List α}
    (h : chain head more finish hhead t s = .ok (as, t') s') :
    ∃ raw s₁ rest t₁ s₂ a, head s = .ok raw s₁ ∧
      restOf (more raw) (chain head more finish hhead t) t s₁ = .ok (rest, t₁) s₂ ∧
      finish raw t₁ s₂ = .ok (a, t') s' ∧ as = a :: rest := by
  rw [chain_eq] at h
  obtain ⟨raw, s₁, hx, h⟩ := bind_eq_ok h
  obtain ⟨⟨rest, t₁⟩, s₂, hrest, h⟩ := bind_eq_ok h
  obtain ⟨⟨a, t''⟩, s₃, hfinish, h⟩ := bind_eq_ok h
  cases h
  exact ⟨raw, s₁, rest, t₁, s₂, a, hx, hrest, hfinish, rfl⟩

/-- The end of an element, after the rest of its list. -/
def finishTo (finish : ρ → τ → Reader ε κ (α × τ)) (raw : ρ) :
    EStateM.Result ε (State κ) (List α × τ) → EStateM.Result ε (State κ) (List α × τ)
  | .error e s => .error e s
  | .ok (rest, t) s =>
    match finish raw t s with
    | .error e s' => .error e s'
    | .ok (a, t') s' => .ok (a :: rest, t') s'

/-- A chain with at most `n` calls nested in each other: `none` when that is not enough. -/
def chainTo (head : Reader ε κ ρ) (more : ρ → Bool) (finish : ρ → τ → Reader ε κ (α × τ)) :
    Nat → τ → State κ → Option (EStateM.Result ε (State κ) (List α × τ))
  | 0, _, _ => none
  | n + 1, t, s =>
    match head s with
    | .error e s₁ => some (.error e s₁)
    | .ok raw s₁ =>
      (if more raw then chainTo head more finish n t s₁ else some (.ok ([], t) s₁)).map
        (finishTo finish raw)

/-- How many calls of a chain are nested in each other. -/
def depth (head : Reader ε κ ρ) (more : ρ → Bool) (hhead : Advances head) (s : State κ) : Nat :=
  match _h : head s with
  | .error _ _ => 1
  | .ok raw s₁ => if more raw then depth head more hhead s₁ + 1 else 1
termination_by s.remaining
decreasing_by exact hhead.remaining_lt _h

/-- A head that fails is the last call. -/
lemma depth_error {s s₁ : State κ} {e : ε} (h : head s = .error e s₁) :
    depth head more hhead s = 1 := by
  rw [depth]
  split
  · rfl
  · next h' =>
    rw [h] at h'
    cases h'

/-- A head that succeeds is one call more than the rest. -/
lemma depth_ok {s s₁ : State κ} {raw : ρ} (h : head s = .ok raw s₁) :
    depth head more hhead s = if more raw then depth head more hhead s₁ + 1 else 1 := by
  rw [depth]
  split
  · next h' =>
    rw [h] at h'
    cases h'
  · next h' =>
    rw [h] at h'
    cases h'
    rfl

/-- A head that fails ends the list. -/
lemma chain_error {t : τ} {s s₁ : State κ} {e : ε} (h : head s = .error e s₁) :
    chain head more finish hhead t s = .error e s₁ := by
  rw [chain_eq]
  exact bind_error h

/-- A head that succeeds is followed by the rest and then finished. -/
lemma chain_head {t : τ} {s s₁ : State κ} {raw : ρ} (h : head s = .ok raw s₁) :
    chain head more finish hhead t s =
      finishTo finish raw (restOf (more raw) (chain head more finish hhead t) t s₁) := by
  have hchain : chain head more finish hhead t s = _ := congrFun (chain_eq t) s
  unfold link at hchain
  rw [hchain, bind_ok h]
  cases hr : restOf (more raw) (chain head more finish hhead t) t s₁ with
  | error e s₂ => exact bind_error hr
  | ok p s₂ =>
    rw [bind_ok hr]
    unfold finishTo
    dsimp only
    cases hf : finish raw p.2 s₂ with
    | error e s₃ => exact bind_error hf
    | ok q s₃ => exact bind_ok hf

/-- As many nested calls as the chain is deep are enough, and fewer are not. -/
lemma chainTo_eq (n : Nat) (t : τ) (s : State κ) :
    chainTo head more finish n t s =
      if depth head more hhead s ≤ n then some (chain head more finish hhead t s) else none := by
  induction s using chain_induction hhead generalizing n with
  | step s ih =>
    cases hx : head s with
    | error e s₁ =>
      rw [depth_error hx, chain_error hx]
      cases n with
      | zero => rfl
      | succ n =>
        rw [chainTo, hx, if_pos (Nat.succ_le_succ (Nat.zero_le n))]
    | ok raw s₁ =>
      rw [depth_ok hx, chain_head hx]
      cases n with
      | zero =>
        have hpos : ¬ (if more raw then depth head more hhead s₁ + 1 else 1) ≤ 0 := by
          split <;> omega
        rw [if_neg hpos, chainTo]
      | succ n =>
        rw [chainTo, hx]
        dsimp only
        cases hm : more raw with
        | false =>
          rw [if_neg Bool.false_ne_true, if_neg Bool.false_ne_true,
            if_pos (Nat.succ_le_succ (Nat.zero_le n))]
          rfl
        | true =>
          rw [if_pos rfl, if_pos rfl, ih raw s₁ hx n]
          by_cases hle : depth head more hhead s₁ ≤ n
          · rw [if_pos hle, if_pos (Nat.succ_le_succ hle)]
            rfl
          · rw [if_neg hle, if_neg fun h => hle (Nat.le_of_succ_le_succ h)]
            rfl

/-- Every nested call but the first starts behind the head of the call it is nested in. -/
lemma depth_mul_le {bound step : Nat}
    (hstep : ∀ (s : State κ) raw s₁, s.pos ≤ s.buf.length → s.buf.length ≤ bound →
      head s = .ok raw s₁ → s₁.buf = s.buf ∧ s.pos + step ≤ s₁.pos ∧ s₁.pos ≤ s₁.buf.length)
    (s : State κ) (hpos : s.pos ≤ s.buf.length) (hlen : s.buf.length ≤ bound) :
    s.pos + depth head more hhead s * step ≤ s.buf.length + step := by
  induction s using chain_induction hhead with
  | step s ih =>
    cases hx : head s with
    | error e s₁ =>
      rw [depth_error hx]
      omega
    | ok raw s₁ =>
      rw [depth_ok hx]
      obtain ⟨hbuf, hle, hpos₁⟩ := hstep s raw s₁ hpos hlen hx
      have hdeep := ih raw s₁ hx hpos₁ (hbuf ▸ hlen)
      rw [hbuf] at hdeep
      split
      · rw [Nat.add_mul]
        omega
      · omega

end ByteReader
