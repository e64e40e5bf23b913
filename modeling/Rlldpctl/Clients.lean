import Rlldpctl.Lib.Connections
import Rlldpctl.Linearization

/-!
# Several clients and the daemon

A connection that has subscribed takes no further calls, so a program that needs both has another client. Any
number of async clients, each on its own connection to the daemon, are one history of the daemon: what one of
them sets the others see from then on, and a call that has returned is before every call made after it.
-/

namespace Rlldpctl

variable {T : Target} {κ σ χ : Type}

/-- However the bytes on all connections are split, whenever pending calls are dropped and in whatever order the
clients go on: there is one history of the daemon, and each call of each client that has returned is one
operation on what the daemon keeps, at a moment of this history that is after the call was made and before it
returned. What `next_change` returns was sent before it returned, and perhaps before it was called. This is on
targets that read words back, with the messages and the strings of `sees_daemon`. -/
theorem clients_see_daemon [DecidableEq χ] [DecidableEq κ] (hT : ReadsWords T) (D : Lldpd T κ σ)
    {server : σ} {g : Exchange.System χ (Operation T) (Message T) Returned σ}
    (h : Transitions.Reach (session hT).steps ((session hT).Admits D.service)
      (Exchange.System.init server) g) :
    Exchange.Legal D.service server (g.log.map Prod.snd) g.server ∧
      ∀ c, ∃ es : List (Exchange.Sent σ (Message T) × Nat),
        (∀ e ∈ es, g.log[e.2]? = some (c, .sent e.1)) ∧ es.Pairwise (fun e e' => e.2 < e'.2) ∧
        List.Forall₂ D.Saw (g.conns c).completed es ∧
        List.Forall₂ (fun e t => e.2 < t) es (g.returned c) := by
  obtain ⟨hlegal, hall⟩ := Exchange.Protocol.linearizes_all h
  refine ⟨hlegal, fun c => ?_⟩
  obtain ⟨es, hlog, hordered, hexplains, hreturned⟩ := hall c
  have hpermits : ∀ e ∈ es, D.service.Permits (.sent e.1) := fun e he =>
    hlegal.permits (List.mem_map_of_mem (List.mem_of_getElem? (hlog e he)))
  exact ⟨es, hlog, hordered, Lldpd.saw_all hT hpermits hexplains, hreturned⟩

/-- While one client sets a description, another lists the interfaces, and sees the description before the first
has returned. -/
def overlapping :
    List (Bool × Exchange.Event (Operation .lp64le) (Message .lp64le) (Option (List UInt8))) :=
  let described := some [0x75, 0x70]
  [(true, .call ⟨_, fits_describe⟩), (true, .write 100), (false, .call ⟨_, fits_list⟩),
    (false, .write 16), (true, .write 55),
    (true, .answer ⟨ack .setPort, small_ack .setPort⟩ described),
    (false, .answer ⟨_, small_aliased⟩ described), (false, .arrive 200), (false, .poll 16),
    (false, .poll 123), (true, .arrive 20), (true, .poll 16)]

/-- What the two clients of this run saw. -/
theorem clients_see_daemon_overlapping :
    ∃ g, Transitions.run (session readsWords_lp64le).steps
        ((session readsWords_lp64le).Admits aliasOnly.service)
        (Exchange.System.init none : Exchange.System Bool _ _ _ _) overlapping = some g ∧
      g.returned true = [2] ∧ g.returned false = [2] ∧
      Exchange.Legal aliasOnly.service none (g.log.map Prod.snd) g.server ∧
      ∀ c, ∃ es : List (Exchange.Sent _ (Message .lp64le) × Nat),
        (∀ e ∈ es, g.log[e.2]? = some (c, .sent e.1)) ∧ es.Pairwise (fun e e' => e.2 < e'.2) ∧
        List.Forall₂ aliasOnly.Saw (g.conns c).completed es ∧
        List.Forall₂ (fun e t => e.2 < t) es (g.returned c) := by
  have hrun : (Transitions.run (session readsWords_lp64le).steps
      ((session readsWords_lp64le).Admits aliasOnly.service)
      (Exchange.System.init none : Exchange.System Bool _ _ _ _) overlapping).any
      fun g => g.returned true = [2] ∧ g.returned false = [2] := by decide +kernel
  obtain ⟨g, hg, hboth⟩ := (Option.any_eq_true _ _).mp hrun
  obtain ⟨htrue, hfalse⟩ := of_decide_eq_true hboth
  exact ⟨g, hg, htrue, hfalse,
    clients_see_daemon readsWords_lp64le aliasOnly (Transitions.Reach.run .init hg)⟩

end Rlldpctl
