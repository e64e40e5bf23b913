import Rlldpctl.Methods
import Rlldpctl.Wire.Calls

/-!
# No method panics

Decoders do not panic on a payload that fits in memory, and `read_message` hands them none that is larger than
`HMSG_MAX_SIZE`. So no bytes on the socket make a method panic, however many methods have gone before.
-/

namespace Rlldpctl
open Async ByteReader
open AsyncClient (block)

variable {T : Target} {α : Type}

/-- A method has panicked. -/
def Returned.Panics : Returned → Prop
  | .reply r => r = .error .panic
  | .subscribed r => r = .error .panic
  | .change r => r = .error .panic

/-- What returns a value or a protocol error does not panic. -/
lemma returns_ne_panic {r : Except Fault α} (h : Wire.Returns r) : r ≠ .error .panic := by
  obtain ⟨v, rfl⟩ | ⟨msg, rfl⟩ := h
  · nofun
  · nofun

/-- A result that is mapped does not panic. -/
lemma map_ne_panic {β : Type} {r : Except Fault α} (h : r ≠ .error .panic) (f : α → β) :
    r.map f ≠ .error .panic := by
  cases r with
  | ok a => nofun
  | error e =>
    intro he
    cases he
    exact h rfl

section
variable {payload : List UInt8} (hsmall : payload.length ≤ hmsgMaxSize)
include hsmall

/-- `decode_interfaces` does not panic. -/
lemma decodeInterfaces_ne_panic : Wire.decodeInterfaces T payload ≠ .error .panic :=
  returns_ne_panic (Wire.contained ((Wire.allows_inside T).rules.interfaces Wire.all_anyKind)
    (small_le_isizeMax hsmall)).returns

/-- `decode_hardware` does not panic. -/
lemma decodeHardware_ne_panic : Wire.decodeHardware T payload ≠ .error .panic :=
  returns_ne_panic (Wire.returns_decodeHardware (small_le_isizeMax hsmall))

/-- `decode_neighbor_change` does not panic. -/
lemma decodeNeighborChange_ne_panic : Wire.decodeNeighborChange T payload ≠ .error .panic :=
  returns_ne_panic (Wire.contained ((Wire.allows_inside T).rules.neighborChange Wire.all_anyKind)
    (small_le_isizeMax hsmall)).returns

/-- What a call decodes does not panic. -/
lemma decode_ne_panic (c : Call) : c.decode T payload ≠ .error .panic := by
  cases c with
  | interfaces => exact map_ne_panic (decodeInterfaces_ne_panic hsmall) _
  | interface ifname => exact map_ne_panic (decodeHardware_ne_panic hsmall) _
  | setPortDescription ifname description => nofun

end

/-! ## Messages -/

/-- Whatever the next message is, it is refused with an error or its payload is not too large. -/
lemma verdict_cases (expected : HmsgType) (input : List UInt8) :
    (∃ e, (nextSegment T input).1.verdict expected = .error (.error e)) ∨
      ∃ payload, (nextSegment T input).1.verdict expected = .ok payload ∧
        payload.length ≤ hmsgMaxSize := by
  have hsmall : ∀ ty payload, (nextSegment T input).1 = .frame ty payload →
      payload.length ≤ hmsgMaxSize := by
    intro ty payload hframe
    by_cases hlen : headerLen T ≤ input.length
    · obtain ⟨ty', len, hheader⟩ := decodeHeader_ok (T := T) (List.length_take_of_le hlen)
      rw [nextSegment_header hlen hheader] at hframe
      split at hframe
      case isTrue => cases hframe
      case isFalse hlarge =>
        split at hframe
        case isFalse => cases hframe
        case isTrue hle =>
          cases hframe
          rw [List.length_take_of_le hle]
          exact Nat.not_lt.mp hlarge
    · rw [nextSegment_short (Nat.not_le.mp hlen)] at hframe
      cases hframe
  -- only a frame of the right type has a payload to decode
  cases hsegment : (nextSegment T input).1 with
  | large len => exact .inl ⟨_, rfl⟩
  | ended => exact .inl ⟨_, rfl⟩
  | frame ty payload =>
    rw [Segment.verdict_frame]
    split
    · exact .inl ⟨_, rfl⟩
    · split
      · exact .inl ⟨_, rfl⟩
      · exact .inr ⟨payload, rfl, hsmall ty payload hsegment⟩

/-- What is made of the next message is no panic. -/
lemma verdict_bind_ne_panic {expected : HmsgType} {decode : List UInt8 → Except Fault α}
    (h : ∀ payload : List UInt8, payload.length ≤ hmsgMaxSize → decode payload ≠ .error .panic)
    (input : List UInt8) :
    (nextSegment T input).1.verdict expected >>= decode ≠ .error .panic := by
  obtain ⟨e, he⟩ | ⟨payload, hpayload, hsmall⟩ := verdict_cases (T := T) expected input
  · rw [he]
    nofun
  · rw [hpayload]
    exact h payload hsmall

/-- The next message itself is none. -/
lemma verdict_ne_panic (expected : HmsgType) (input : List UInt8) :
    (nextSegment T input).1.verdict expected ≠ .error .panic := by
  obtain ⟨e, he⟩ | ⟨payload, hpayload, -⟩ := verdict_cases (T := T) expected input
  · rw [he]
    nofun
  · rw [hpayload]
    nofun

/-- No method panics on its segment. -/
lemma Method.judge_not_panics (m : Method) (input : List UInt8) :
    ¬ (m.judge T (nextSegment T input).1).Panics := by
  cases m with
  | call c => exact verdict_bind_ne_panic (fun payload hsmall => decode_ne_panic hsmall c) input
  | subscribe => exact map_ne_panic (verdict_ne_panic .subscribe input) _
  | nextChange =>
    show AsyncClient.changeOf (itemOf T ((nextSegment T input).1.verdict .notification)) ≠ _
    obtain ⟨e, he⟩ | ⟨payload, hpayload, hsmall⟩ := verdict_cases (T := T) .notification input
    · rw [he]
      -- an end of the stream is an item too, and so are the errors
      cases e with
      | io kind =>
        cases kind with
        | unexpectedEof => nofun
        | other => nofun
      | unexpectedMessageType expected got => nofun
      | requestRejected => nofun
      | protocol msg => nofun
    · rw [hpayload]
      show AsyncClient.changeOf (some (Wire.decodeNeighborChange T payload)) ≠ _
      have hne := decodeNeighborChange_ne_panic (T := T) hsmall
      cases hchange : Wire.decodeNeighborChange T payload with
      | ok change => nofun
      | error e =>
        intro he
        cases he
        exact hne hchange

/-! ## Programs -/

/-- A program on the socket does not panic, whatever there is to read. -/
def NeverPanics (x : Io α) : Prop := ∀ s, (resultOf (x s)).1 ≠ .error .panic

/-- Returning a value does not panic. -/
lemma neverPanics_pure (a : α) : NeverPanics (pure a : Io α) := by
  intro s hpanic
  cases hpanic

/-- Returning an error does not panic. -/
lemma neverPanics_throw {e : Error} : NeverPanics (throw (.error e) : Io α) := by
  intro s hpanic
  cases hpanic

/-- Two steps that do not panic, one after the other. -/
lemma NeverPanics.bind {β : Type} {x : Io α} {f : α → Io β} (hx : NeverPanics x)
    (hf : ∀ a, NeverPanics (f a)) : NeverPanics (x >>= f) := by
  intro s
  have hs := hx s
  cases h : x s with
  | ok a s' =>
    rw [bind_ok h]
    exact hf a s'
  | error e s' =>
    rw [h] at hs
    rw [bind_error h]
    intro he
    cases he
    exact hs rfl

/-- A request and what is made of its reply. -/
lemma neverPanics_exchange {ty : HmsgType} {payload : List UInt8}
    {decode : List UInt8 → Except Fault α}
    (h : ∀ payload : List UInt8, payload.length ≤ hmsgMaxSize → decode payload ≠ .error .panic) :
    NeverPanics (request T ty payload >>= fun p => ofExcept (decode p) : Io α) := by
  rintro ⟨input, out⟩
  rw [exchange_of (readMessage_segment ty input _), resultOf_ofExcept]
  exact verdict_bind_ne_panic h input

/-- The loop of `all_interfaces` does not panic. -/
lemma neverPanics_details (ifaces : List Interface) : NeverPanics (Client.details T ifaces) := by
  induction ifaces with
  | nil => exact neverPanics_pure []
  | cons iface rest ih =>
    have hinterface : NeverPanics (Client.interface T iface.name) :=
      neverPanics_exchange fun payload hsmall => decodeHardware_ne_panic hsmall
    intro s
    have hs := hinterface s
    rw [Client.details]
    cases h : Client.interface T iface.name s with
    | ok details s' =>
      have hattempt : attempt (Client.interface T iface.name) s = .ok (.ok details) s' := by
        rw [attempt, h]
      rw [bind_ok hattempt]
      exact ih.bind (fun out => neverPanics_pure (details :: out)) s'
    | error e s' =>
      have hattempt : attempt (Client.interface T iface.name) s = .ok (.error e) s' := by
        rw [attempt, h]
      rw [bind_ok hattempt]
      rw [h] at hs
      cases e with
      | panic => exact absurd rfl hs
      | error e =>
        cases e with
        -- the interface is gone, and the loop goes on
        | requestRejected => exact ih s'
        | io kind => exact neverPanics_throw s'
        | unexpectedMessageType expected got => exact neverPanics_throw s'
        | protocol msg => exact neverPanics_throw s'

/-- `all_interfaces` does not panic. -/
lemma neverPanics_allInterfaces : NeverPanics (Client.allInterfaces T) :=
  (neverPanics_exchange fun _ hsmall => decodeInterfaces_ne_panic hsmall).bind neverPanics_details

/-- No result of any of the methods is a panic. -/
lemma judged_not_panics (ms : List Method) (input : List UInt8) :
    ∀ r ∈ List.zipWith (Method.judge T) (segments T ms.length input).1 ms, ¬ r.Panics := by
  induction ms generalizing input with
  | nil => exact List.forall_mem_nil _
  | cons m ms ih => exact List.forall_mem_cons.mpr ⟨m.judge_not_panics input, ih _⟩

/-- Whatever bytes the peer sends and wherever it hangs up, no method panics, blocking or async, on its own, after
others or in `all_interfaces`: each returns a value or an error. -/
theorem methods_never_panic (T : Target) (ms : List Method) (input out : List UInt8) :
    (∀ r ∈ (runIo T ms ⟨input, out⟩).1, ¬ r.Panics) ∧
      (∀ r ∈ ((runFut T ms).run input).value, ¬ r.Panics) ∧
      (resultOf (Client.allInterfaces T ⟨input, out⟩)).1 ≠ .error .panic ∧
      (Fut.run (AsyncClient.allInterfaces T).run input).value ≠ .error .panic := by
  refine ⟨?_, ?_, neverPanics_allInterfaces _, fun hpanic => ?_⟩
  · rw [runIo_segments]
    exact judged_not_panics ms input
  · rw [runFut_segments]
    exact judged_not_panics ms input
  · have hblock : block (AsyncClient.allInterfaces T) ⟨input, out⟩ =
        Client.allInterfaces T ⟨input, out⟩ := congrFun AsyncClient.block_allInterfaces _
    have hne := neverPanics_allInterfaces (T := T) ⟨input, out⟩
    rw [← hblock, block, AsyncClient.ended, hpanic] at hne
    exact hne rfl

end Rlldpctl
