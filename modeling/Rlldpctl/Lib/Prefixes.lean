import Rlldpctl.Lib.ByteReader

/-!
# Readers on prefixes

A reader is `Local` when a successful run depends on the bytes it consumes only: cut the buffer anywhere
behind them and the run is the same, cut it anywhere before their end and the reader fails. This is closed
under the monad operations and under `chain`.
-/

namespace ByteReader

variable {ε κ α β ρ τ : Type} {bound : Nat}

/-- The state with the buffer cut after `n` bytes. -/
def State.cut (s : State κ) (n : Nat) : State κ := { s with buf := s.buf.take n }

/-- The position is inside after the cut. -/
lemma State.cut_in {s : State κ} {n : Nat} (hpos : s.pos ≤ s.buf.length) (hn : s.pos ≤ n) :
    (s.cut n).pos ≤ (s.cut n).buf.length := by
  show s.pos ≤ (s.buf.take n).length
  rw [List.length_take]
  exact le_min hn hpos

/-- The cut makes nothing longer. -/
lemma State.length_cut_le {s : State κ} (h : s.buf.length ≤ bound) (n : Nat) :
    (s.cut n).buf.length ≤ bound := by
  show (s.buf.take n).length ≤ bound
  rw [List.length_take]
  exact (min_le_right _ _).trans h

/-- A run from `s` that succeeds moves forward inside the buffer and depends on the bytes it consumes
only. -/
def LocalAt (d : Reader ε κ α) (s : State κ) : Prop :=
  ∀ a s', d s = .ok a s' →
    s'.buf = s.buf ∧ s.pos ≤ s'.pos ∧ s'.pos ≤ s.buf.length ∧
    ∀ n, s.pos ≤ n →
      (s'.pos ≤ n → d (s.cut n) = .ok a (s'.cut n)) ∧
      (n < s'.pos → ∃ e s'', d (s.cut n) = .error e s'')

/-- Every run from a position inside a buffer of at most `bound` bytes is local. -/
def Local (bound : Nat) (d : Reader ε κ α) : Prop :=
  ∀ s : State κ, s.pos ≤ s.buf.length → s.buf.length ≤ bound → LocalAt d s

/-- Returning a value looks no further. -/
lemma LocalAt.pure (a : α) {s : State κ} (hpos : s.pos ≤ s.buf.length) :
    LocalAt (Pure.pure a : Reader ε κ α) s := by
  intro b s' h
  cases h
  refine ⟨rfl, le_rfl, hpos, fun n hn => ⟨fun _ => rfl, fun hlt => ?_⟩⟩
  exact absurd hlt (not_lt.mpr hn)

/-- Failing looks no further. -/
lemma LocalAt.throw (e : ε) (s : State κ) :
    LocalAt (MonadExcept.throw e : Reader ε κ α) s := by
  intro b s' h
  cases h

/-- Two steps from a state, one after the other. -/
lemma LocalAt.bind {d : Reader ε κ α} {f : α → Reader ε κ β} {s : State κ} (hd : LocalAt d s)
    (hf : ∀ a s', d s = .ok a s' → LocalAt (f a) s') : LocalAt (d >>= f) s := by
  intro b s₂ h
  obtain ⟨a, s₁, hx, hy⟩ := bind_eq_ok h
  obtain ⟨hbuf, hpos, hlen, hcut⟩ := hd a s₁ hx
  obtain ⟨hbuf', hpos', hlen', hcut'⟩ := hf a s₁ hx b s₂ hy
  rw [hbuf] at hlen'
  refine ⟨hbuf'.trans hbuf, hpos.trans hpos', hlen', fun n hn => ⟨fun hle => ?_, fun hlt => ?_⟩⟩
  · rw [bind_ok ((hcut n hn).1 (hpos'.trans hle))]
    exact (hcut' n (hpos'.trans hle)).1 hle
  · -- the cut is in what the second reader consumes, or in what the first one does
    by_cases hmid : s₁.pos ≤ n
    · rw [bind_ok ((hcut n hn).1 hmid)]
      exact (hcut' n hmid).2 hlt
    · obtain ⟨e, s'', he⟩ := (hcut n hn).2 (not_le.mp hmid)
      exact ⟨e, s'', bind_error he⟩

/-- Returning a value looks no further, from everywhere. -/
lemma Local.pure (a : α) : Local bound (Pure.pure a : Reader ε κ α) :=
  fun _ hpos _ => .pure a hpos

/-- Failing looks no further, from everywhere. -/
lemma Local.throw (e : ε) : Local bound (MonadExcept.throw e : Reader ε κ α) :=
  fun s _ _ => .throw e s

/-- After a local reader the position is inside the buffer again. -/
lemma LocalAt.bind_local {d : Reader ε κ α} {f : α → Reader ε κ β} {s : State κ}
    (hd : LocalAt d s) (hlen : s.buf.length ≤ bound) (hf : ∀ a, Local bound (f a)) :
    LocalAt (d >>= f) s := by
  refine hd.bind fun a s' hx => ?_
  obtain ⟨hbuf, -, hpos, -⟩ := hd a s' hx
  rw [← hbuf] at hpos hlen
  exact hf a s' hpos hlen

/-- Two readers, one after the other. -/
lemma Local.bind {d : Reader ε κ α} {f : α → Reader ε κ β} (hd : Local bound d)
    (hf : ∀ a, Local bound (f a)) : Local bound (d >>= f) :=
  fun s hpos hlen => (hd s hpos hlen).bind_local hlen hf

/-- A list looks no further when its elements do not. -/
lemma local_chain {head : Reader ε κ ρ} {more : ρ → Bool}
    {finish : ρ → τ → Reader ε κ (α × τ)} {hhead : Advances head} (hd : Local bound head)
    (hf : ∀ raw t, Local bound (finish raw t)) (t : τ) :
    Local bound (chain head more finish hhead t) := by
  intro s
  induction s using chain_induction hhead with
  | step s ih =>
    intro hpos hlen
    rw [chain_eq]
    refine (hd s hpos hlen).bind fun raw s₁ hx => ?_
    obtain ⟨hbuf, -, hpos₁, -⟩ := hd s hpos hlen raw s₁ hx
    rw [← hbuf] at hpos₁ hlen
    -- the rest of the chain is local from `s₁` by the induction
    have hrest : LocalAt (restOf (more raw) (chain head more finish hhead t) t) s₁ := by
      unfold restOf
      cases more raw with
      | true => exact ih raw s₁ hx hpos₁ hlen
      | false => exact .pure _ hpos₁
    exact hrest.bind_local hlen fun p => (hf raw p.2).bind fun q => .pure (q.1 :: p.1, q.2)

end ByteReader
