import Rlldpctl.Lib.ByteReader

/-!
# What a run does

An `Effect` says what may happen from one position of a buffer on: which calls are made on the way to the
position where a run succeeds (`ok`), and which before it fails (`err`). Its fields say that doing nothing
is allowed and that one part may follow another. A reader `Does` an effect when its runs stay within it;
this is closed under the monad operations and under `chain`.
-/

namespace ByteReader

variable {ε κ α β ρ τ : Type} {bound : Nat}

/-- What may happen in a run. -/
structure Effect (ε κ : Type) where
  ok : List UInt8 → Nat → List κ → Nat → Prop
  err : List UInt8 → Nat → List κ → ε → Prop
  nil : ∀ buf pos, ok buf pos [] pos
  append : ∀ {buf pos mid stop cs cs'},
    ok buf pos cs mid → ok buf mid cs' stop → ok buf pos (cs ++ cs') stop
  fail : ∀ {buf pos mid cs cs' e},
    ok buf pos cs mid → err buf mid cs' e → err buf pos (cs ++ cs') e

/-- A run from `s` that ended in `r` did what the effect allows, and is inside the buffer if it
succeeded. -/
def Effect.Result (E : Effect ε κ) (s : State κ) : EStateM.Result ε (State κ) α → Prop
  | .ok _ s' => s'.buf = s.buf ∧ s'.pos ≤ s'.buf.length ∧
      ∃ cs, s'.calls = s.calls ++ cs ∧ E.ok s.buf s.pos cs s'.pos
  | .error e s' => ∃ cs, s'.calls = s.calls ++ cs ∧ E.err s.buf s.pos cs e

/-- Every run from a position inside a buffer of at most `bound` bytes does what the effect allows. -/
def Does (E : Effect ε κ) (bound : Nat) (d : Reader ε κ α) : Prop :=
  ∀ s : State κ, s.pos ≤ s.buf.length → s.buf.length ≤ bound → E.Result s (d s)

/-- After a run that succeeded the state is inside the same buffer, with the calls `cs` made. -/
structure Reached (s s' : State κ) (cs : List κ) : Prop where
  buf : s'.buf = s.buf
  pos : s'.pos ≤ s'.buf.length
  calls : s'.calls = s.calls ++ cs

/-- A state inside its input is reached from itself by no call. -/
lemma Reached.refl {s : State κ} (hpos : s.pos ≤ s.buf.length) : Reached s s [] :=
  ⟨rfl, hpos, (List.append_nil _).symm⟩

/-- The calls of two runs, one after the other. -/
lemma Reached.trans {s s' s'' : State κ} {cs cs' : List κ} (h : Reached s s' cs)
    (h' : Reached s' s'' cs') : Reached s s'' (cs ++ cs') :=
  ⟨h'.buf.trans h.buf, h'.pos, by rw [h'.calls, h.calls, List.append_assoc]⟩

/-- The bound on the input is kept. -/
lemma Reached.length_le {s s' : State κ} {cs : List κ} (h : Reached s s' cs)
    (hlen : s.buf.length ≤ bound) : s'.buf.length ≤ bound :=
  h.buf ▸ hlen

variable {E : Effect ε κ}

/-- Returning a value has the effect of no call. -/
lemma Does.pure (a : α) : Does E bound (Pure.pure a : Reader ε κ α) :=
  fun _ hpos _ => ⟨rfl, hpos, [], (List.append_nil _).symm, E.nil _ _⟩

/-- Failing has an effect that allows its error after no call. -/
lemma Does.throw {e : ε} (h : ∀ buf pos, E.err buf pos [] e) :
    Does E bound (MonadExcept.throw e : Reader ε κ α) :=
  fun _ _ _ => ⟨[], (List.append_nil _).symm, h _ _⟩

/-- What is done after the calls `cs`. -/
lemma Effect.Result.after {s s' : State κ} {cs : List κ} (hbuf : s'.buf = s.buf)
    (hcalls : s'.calls = s.calls ++ cs) (hok : E.ok s.buf s.pos cs s'.pos)
    {r : EStateM.Result ε (State κ) α} (h : E.Result s' r) : E.Result s r := by
  cases r with
  | ok a s'' =>
    obtain ⟨hbuf', hpos', cs', hcalls', hok'⟩ := h
    rw [hbuf] at hok'
    refine ⟨hbuf'.trans hbuf, hpos', cs ++ cs', ?_, E.append hok hok'⟩
    rw [hcalls', hcalls, List.append_assoc]
  | error e s'' =>
    obtain ⟨cs', hcalls', herr⟩ := h
    rw [hbuf] at herr
    refine ⟨cs ++ cs', ?_, E.fail hok herr⟩
    rw [hcalls', hcalls, List.append_assoc]

/-- The effects of two steps that were run, one after the other. -/
lemma Effect.Result.bind {d : Reader ε κ α} {f : α → Reader ε κ β} {s : State κ}
    (hd : E.Result s (d s))
    (hf : ∀ a s', d s = .ok a s' → s'.buf = s.buf → s'.pos ≤ s'.buf.length → E.Result s' (f a s')) :
    E.Result s ((d >>= f) s) := by
  cases hx : d s with
  | ok a s' =>
    rw [hx] at hd
    obtain ⟨hbuf, hpos, cs, hcalls, hok⟩ := hd
    rw [bind_ok hx]
    exact .after hbuf hcalls hok (hf a s' hx hbuf hpos)
  | error e s' =>
    rw [hx] at hd
    rw [bind_error hx]
    exact hd

/-- The effects of two readers, one after the other. -/
lemma Does.bind {d : Reader ε κ α} {f : α → Reader ε κ β} (hd : Does E bound d)
    (hf : ∀ a, Does E bound (f a)) : Does E bound (d >>= f) :=
  fun s hpos hlen => (hd s hpos hlen).bind fun a s' _ hbuf hpos' => hf a s' hpos' (hbuf ▸ hlen)

/-- The effect of a branch is that of both sides. -/
lemma Does.ite {c : Prop} [Decidable c] {d d' : Reader ε κ α} (hd : Does E bound d)
    (hd' : Does E bound d') : Does E bound (if c then d else d') := by
  split
  case isTrue => exact hd
  case isFalse => exact hd'

/-- A reader that succeeds has made calls with this effect. -/
lemma Does.reached {d : Reader ε κ α} (h : Does E bound d) {s s' : State κ} {a : α}
    (hpos : s.pos ≤ s.buf.length) (hlen : s.buf.length ≤ bound) (hok : d s = .ok a s') :
    ∃ cs, Reached s s' cs ∧ E.ok s.buf s.pos cs s'.pos := by
  have hr := h s hpos hlen
  rw [hok] at hr
  obtain ⟨hbuf, hpos', cs, hcalls, hdone⟩ := hr
  exact ⟨cs, ⟨hbuf, hpos', hcalls⟩, hdone⟩

/-- A list has the effect of its elements, those that follow an element before what finishes it. -/
lemma does_chain {head : Reader ε κ ρ} {more : ρ → Bool} {finish : ρ → τ → Reader ε κ (α × τ)}
    {hhead : Advances head} (hd : Does E bound head) (hf : ∀ raw t, Does E bound (finish raw t))
    (t : τ) : Does E bound (chain head more finish hhead t) := by
  intro s
  induction s using chain_induction hhead with
  | step s ih =>
    intro hpos hlen
    rw [chain_eq]
    refine (hd s hpos hlen).bind fun raw s₁ hx hbuf hpos₁ => ?_
    have hlen₁ : s₁.buf.length ≤ bound := hbuf ▸ hlen
    -- the rest of the chain does so from `s₁` by the induction
    have hrest : E.Result s₁ (restOf (more raw) (chain head more finish hhead t) t s₁) := by
      unfold restOf
      cases more raw with
      | true => exact ih raw s₁ hx hpos₁ hlen₁
      | false => exact Does.pure ([], t) s₁ hpos₁ hlen₁
    refine hrest.bind fun p s₂ _ hbuf₂ hpos₂ => ?_
    have hlen₂ : s₂.buf.length ≤ bound := hbuf₂ ▸ hlen₁
    exact ((hf raw p.2).bind fun q => .pure (q.1 :: p.1, q.2)) s₂ hpos₂ hlen₂

end ByteReader
