import Rlldpctl.Lib.Liveness

/-!
# Programs that return

A program whose operations all have a request never gets stuck on a server that can answer every request: in
every fair run it returns (`eventually_done`). Each operation returns (`op_ends`), and then the program is one
step further in the tree of its script.
-/

namespace Exchange
open Async Transitions

variable {ι μ ρ σ α : Type}

/-- The turn does what has to be done. -/
def Duty.MetIn (d : Duty) (t : Talk μ α σ) : Turn μ σ → Prop
  | .write _ => d = .write
  | .answer _ _ => d = .answer
  | .arrive n => d = .arrive ∧ 0 < n ∧ t.wire ≠ []
  | .poll _ => d = .poll
  | .notify _ _ | .change _ => False

/-- A duty is met in a talk when its event meets it. -/
lemma Duty.metIn_talk {d : Duty} {s : State ι μ ρ σ} {z : Fut α} {e : Turn μ σ} :
    d.MetIn (s.talk z) e ↔ d.Met s e.event := by
  cases e <;> rfl

namespace Protocol
variable {P : Protocol ι μ ρ} {S : Service σ μ} {σ₀ : σ} {s : State ι μ ρ σ}

/-- Every operation of the script has a request. -/
def Asks (P : Protocol ι μ ρ) : Script ι ρ α → Prop
  | .done _ => True
  | .call i k => P.request i ≠ [] ∧ ∀ m, Asks P (k (P.outcome i m))

/-- What the pending operation can do the program can do. -/
lemma enabled_talk {d : Duty} {p : Pending ι ρ} (hpending : s.pending = some p)
    (hsuspended : p.fut.Suspended) (k' : ρ → Fut α)
    (h : Enabled P.step (P.Allowed S) d.Met s) :
    Enabled P.turn (P.Fair S) d.MetIn (s.talk (p.fut >>= k')) := by
  obtain ⟨e, s', hmet, hallowed, hstep⟩ := h
  cases e with
  | call i => exact absurd hmet id
  | notify m after => exact absurd hmet id
  | change after => exact absurd hmet id
  | drop => exact absurd hmet id
  | arrive n => exact ⟨.arrive n, _, hmet, trivial, rfl⟩
  | answer m after =>
    rw [step] at hstep
    split at hstep
    case h_1 => cases hstep
    case h_2 n hfront =>
      exact ⟨.answer m after, _, hmet, hallowed, Option.map_eq_some_iff.mpr ⟨n, hfront, rfl⟩⟩
  | write n =>
    rw [step, hpending] at hstep
    dsimp only at hstep
    split at hstep
    case h_1 => cases hstep
    case h_2 bs fut hput =>
      have hput' := hsuspended.put k' n
      rw [hput, Option.map_some] at hput'
      exact ⟨.write n, _, hmet, trivial, Option.map_eq_some_iff.mpr ⟨_, hput', rfl⟩⟩
  | poll n =>
    rw [step, hpending] at hstep
    dsimp only at hstep
    split at hstep
    case h_1 => cases hstep
    case h_2 fut htake =>
      have htake' := hsuspended.take k' (s.arrived.take n)
      rw [htake, Option.map_some] at htake'
      exact ⟨.poll n, _, hmet, trivial, Option.map_eq_some_iff.mpr ⟨_, htake', rfl⟩⟩

/-! ## Fair runs -/

/-- The client has come to `s` in the script. -/
structure At (P : Protocol ι μ ρ) (S : Service σ μ) (σ₀ : σ) (x : Script ι ρ α) (t : Talk μ α σ)
    (s : State ι μ ρ σ) : Prop where
  reach : Reach P.step (P.Allowed S) (.init σ₀) s
  follows : ∃ z, t = s.talk z ∧ P.Follows x s z

section
variable {x : Script ι ρ α} {i : ι} {began : Nat} {cs : List (Completed ι ρ)} {T : Talk μ α σ}

/-- The invariant of the session holds. -/
lemma At.inv (h : P.At S σ₀ x T s) : P.Inv s := (linearizes h.reach).2

/-- A duty that is enabled in the session is enabled in the talk. -/
lemma At.enabled {d : Duty} (h : P.At S σ₀ x T s) (hpends : Pends i began cs s)
    (henabled : Enabled P.step (P.Allowed S) d.Met s) : Enabled P.turn (P.Fair S) d.MetIn T := by
  obtain ⟨fut, hpending⟩ := hpends.pending
  obtain ⟨z, rfl, hfollows⟩ := h.follows
  unfold Follows at hfollows
  rw [hpending] at hfollows
  obtain ⟨k, k', -, rfl, hsuspended, -⟩ := hfollows
  exact enabled_talk hpending hsuspended k' henabled

/-- A turn is a step, after which the next operation may have been called. -/
lemma At.turn (h : P.At S σ₀ x T s) {T' : Talk μ α σ} {e : Turn μ σ} (hfair : P.Fair S T e)
    (hturn : P.turn T e = some T') :
    ∃ s₁ s', P.Allowed S s e.event ∧ P.step s e.event = some s₁ ∧ P.At S σ₀ x T' s' ∧
      s'.completed = s₁.completed ∧ (Pends i began cs s₁ → s' = s₁) := by
  obtain ⟨z, rfl, hfollows⟩ := h.follows
  obtain ⟨s₁, s', z', hallowed, hstep, htalk, hon⟩ := simulates_turn h.reach hfollows hfair hturn
  refine ⟨s₁, s', hallowed, hstep, ⟨hon.reach, z', htalk, hon.follows⟩, hon.completed, fun hpends => ?_⟩
  obtain ⟨fut, hpending⟩ := hpends.pending
  refine hon.same fun hnone => ?_
  rw [hnone] at hpending
  cases hpending

/-- A duty that is met in the talk is met in the session. -/
lemma At.met {d : Duty} {e : Turn μ σ} (h : P.At S σ₀ x T s) (hmet : d.MetIn T e) :
    d.Met s e.event := by
  obtain ⟨z, rfl, -⟩ := h.follows
  exact Duty.metIn_talk.mp hmet

variable {r : Run P.turn (P.Fair S)} (hfair : ∀ d : Duty, r.Fair d.MetIn) {t : Nat}
include hfair

/-- What leads on in the session does so in the talk. -/
lemma Leads.eventually_at {R : Nat → Duty → State ι μ ρ σ → Prop} {Q : State ι μ ρ σ → Prop}
    (hleads : P.Leads S σ₀ i began cs R Q) {a : Nat} {d : Duty} (h : P.At S σ₀ x (r.state t) s)
    (hR : R a d s) :
    ∃ u s₁ s', Q s₁ ∧ P.At S σ₀ x (r.state u) s' ∧ s'.completed = s₁.completed ∧
      (Pends i began cs s₁ → s' = s₁) := by
  obtain ⟨u, -, hends⟩ := Run.eventually hfair
    (R := fun a d T => ∃ s, P.At S σ₀ x T s ∧ R a d s)
    (Q := fun u => ∃ s₁ s', Q s₁ ∧ P.At S σ₀ x (r.state (u + 1)) s' ∧ s'.completed = s₁.completed ∧
      (Pends i began cs s₁ → s' = s₁))
    (fun {_ _ _} ⟨s, hat, hR⟩ => hat.enabled (hleads.pends hR) (hleads.enabled hat.reach hR))
    (fun {_ _ u y} ⟨s, hat, hR⟩ hy => by
      obtain ⟨hturns, hturn⟩ := r.steps u y hy
      obtain ⟨s₁, s', hallowed, hstep, hat', hcompleted, hsame⟩ := hat.turn hturns hturn
      obtain hends | ⟨b, d', hb, hcloser⟩ | ⟨hnot, hstays⟩ := hleads.step hat.reach hR hallowed hstep
      · exact .inl ⟨s₁, s', hends.resolve_left y.event_ne_drop, hat', hcompleted, hsame⟩
      · obtain rfl := hsame (hleads.pends hcloser)
        exact .inr (.inl ⟨b, d', hb, s', hat', hcloser⟩)
      · obtain rfl := hsame (hleads.pends hstays)
        exact .inr (.inr ⟨fun hmet => hnot (hat.met hmet), s', hat', hstays⟩))
    ⟨s, h, hR⟩
  exact ⟨u + 1, hends⟩

/-- The operation for which there is a message returns. -/
lemma told_ends (h : P.At S σ₀ x (r.state t) s) (hpends : Pends i began cs s)
    (hout : s.outstanding ≠ []) :
    ∃ u s' result, P.At S σ₀ x (r.state u) s' ∧ s'.completed = cs ++ [⟨i, began, result⟩] := by
  obtain ⟨e, rest, hcons⟩ := List.exists_cons_of_ne_nil hout
  obtain ⟨a, d, htold⟩ := h.inv.told (fun _ => suspended h.reach) hpends hcons
  obtain ⟨u, s₁, s', ⟨result, hresult⟩, hat, hcompleted, -⟩ := told_leads.eventually_at hfair h htold
  exact ⟨u, s', result, hat, hcompleted.trans hresult⟩

/-- An operation that has a request returns. -/
lemma op_ends (htotal : P.Answering S) (hne : P.request i ≠ []) (h : P.At S σ₀ x (r.state t) s)
    (hpends : Pends i began cs s) :
    ∃ u s' result, P.At S σ₀ x (r.state u) s' ∧ s'.completed = cs ++ [⟨i, began, result⟩] := by
  by_cases hout : s.outstanding = []
  · obtain ⟨a, d, hasked⟩ := h.inv.asked hpends hne hout
    obtain ⟨u, s₁, s', ⟨hpends', hout'⟩, hat, -, hsame⟩ :=
      (asked_leads htotal hne).eventually_at hfair h hasked
    obtain rfl := hsame hpends'
    exact told_ends hfair hat hpends' hout'
  · exact told_ends hfair h hpends hout

/-- What is left of the script is played to its end. -/
lemma done_from (htotal : P.Answering S) {y : Script ι ρ α} (hasks : P.Asks y)
    (h : P.At S σ₀ x (r.state t) s) (hplayed : Played x s.completed y) :
    ∃ u a, (r.state u).fut = .done a := by
  induction y generalizing t s with
  | done a =>
    obtain ⟨z, htalk, hfollows⟩ := h.follows
    refine ⟨t, ?_⟩
    rw [htalk]
    by_contra hnot
    obtain ⟨p, k, k', -, hcall, -⟩ := hfollows.pending fun a hz => hnot ⟨a, hz⟩
    cases hplayed.unique hcall
  | call i k ih =>
    obtain ⟨z, htalk, hfollows⟩ := h.follows
    obtain ⟨hne, hasks⟩ := hasks
    obtain ⟨p, k₁, k', hpending, hcall, -⟩ := hfollows.pending fun a hz => by
      obtain ⟨-, hdone, -⟩ := (hz ▸ hfollows).returned
      cases hplayed.unique hdone
    cases hplayed.unique hcall
    obtain ⟨u, s', result, hat, hcompleted⟩ :=
      op_ends hfair htotal hne h ⟨⟨p.fut, hpending⟩, rfl⟩
    -- what it returned was made of a message
    obtain ⟨e, -, -, hresult⟩ := exists_explains hat.inv.paired (c := ⟨p.op, p.began, result⟩) (by
      rw [hcompleted]
      exact List.mem_append_right _ (List.mem_singleton_self _))
    obtain rfl : result = P.outcome p.op e.1.message := hresult
    have hnext := hplayed.snoc (c := ⟨p.op, p.began, P.outcome p.op e.1.message⟩) rfl
    exact ih _ (hasks e.1.message) hat (hcompleted ▸ hnext)

/-- In a fair run a program all of whose operations have a request returns. -/
theorem eventually_done (htotal : P.Answering S) (hasks : P.Asks x) {z : Fut α}
    (hruns : P.Runs False x z) (hstart : r.state 0 = .start σ₀ z) :
    ∃ t a, (r.state t).fut = .done a := by
  obtain ⟨s, htalk, hon⟩ := Follows.start S σ₀ hruns
  have hat : P.At S σ₀ x (r.state 0) s := ⟨hon.reach, _, hstart.trans htalk.symm, hon.follows⟩
  refine done_from hfair htotal hasks hat ?_
  rw [hon.completed]
  exact .nil

end

/-! ## Finite runs -/

/-- Nothing has to be done when the program has returned and nothing is on its way. -/
lemma not_enabled_talk {d : Duty} {t : Talk μ α σ} {a : α} (hdone : t.fut = .done a)
    (hwire : t.wire = []) (hparsed : t.parsed = t.sent.length) :
    ¬ Enabled P.turn (P.Fair S) d.MetIn t := by
  rintro ⟨e, t', hmet, -, hturn⟩
  cases e with
  | notify m after => exact hmet
  | change after => exact hmet
  | arrive n =>
    obtain ⟨-, -, hne⟩ := hmet
    exact hne hwire
  | answer m after =>
    rw [turn, hparsed, List.drop_length, P.front_nil] at hturn
    cases hturn
  | write n =>
    rw [turn, hdone] at hturn
    cases hturn
  | poll n =>
    rw [turn, hdone] at hturn
    cases hturn

end Protocol

end Exchange
