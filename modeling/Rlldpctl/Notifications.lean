import Rlldpctl.Lib.Transitions
import Rlldpctl.Sessions

/-!
# Dropping calls of `next_change`

A subscription whose caller may drop a pending call of `next_change` and make another. The daemon pushes
frames, their bytes arrive in any portions, and a poll hands some of what has arrived to the pending call;
dropping the call forgets what it was given. As long as no call follows one that was given something and
dropped, the calls return the notifications in order; after that the stream is no longer at the start of
a frame.
-/

namespace Rlldpctl.AsyncSubscription
open Async Transitions ByteReader

variable {T : Target}

/-- A pending or completed call of `next_change`. -/
abbrev Change := Except Fault (Option NeighborChange)

/-- The connection, the pending call and what calls have returned. `pushed` is what the daemon has sent
so far, `wire` what of it has not arrived, `arrived` what has not been read. `taken` is how many bytes
calls were given since the last that returned. -/
structure State (T : Target) where
  pushed : List (Frame T)
  wire : List UInt8
  arrived : List UInt8
  pending : Option (Fut Change)
  taken : Nat
  returned : List Change

/-- What can happen. -/
inductive Event (T : Target) where
  | push (f : Frame T)
  | arrive (n : Nat)
  | call
  | poll (n : Nat)
  | drop

/-- Nothing was pushed. -/
def State.init (T : Target) : State T := ⟨[], [], [], none, 0, []⟩

/-- The call after a poll that has changed it to `fut`. -/
def State.resume (s : State T) (fut : Fut Change) : State T :=
  match fut with
  | .done r => { s with pending := none, taken := 0, returned := s.returned ++ [r] }
  | fut => { s with pending := some fut }

/-- A frame the daemon pushes to a subscriber. -/
def WellFormed (f : Frame T) : Prop :=
  f.ty = HmsgType.notification.toI32 ∧ f.Small

/-- The size and the length of a frame are compared. -/
instance (f : Frame T) : Decidable (WellFormed f) :=
  inferInstanceAs (Decidable (_ ∧ _))

/-- What an event does, when it can happen. -/
def step (s : State T) : Event T → Option (State T)
  | .push f =>
    if WellFormed f then
      some { s with pushed := s.pushed ++ [f], wire := s.wire ++ f.bytes }
    else
      none
  | .arrive n =>
    some { s with arrived := s.arrived ++ s.wire.take n, wire := s.wire.drop n }
  | .call =>
    match s.pending with
    | some _ => none
    | none => some { s with pending := some (AsyncClient.nextChange T).run.settle }
  | .poll n =>
    match s.pending with
    | none => none
    | some fut =>
      match fut.take (s.arrived.take n) with
      | none => none
      | some fut' =>
        some ({ s with arrived := s.arrived.drop n, taken := s.taken + (s.arrived.take n).length }.resume
          fut')
  | .drop =>
    match s.pending with
    | none => none
    | some _ => some { s with pending := none }

/-- Every pushed frame can be read, and a call is made only when no call was given something and
dropped. -/
def Allowed (s : State T) : Event T → Prop
  | .push f => f.Readable
  | .call => s.taken = 0
  | _ => True

/-- What is allowed is looked up in the state. -/
instance (s : State T) (e : Event T) : Decidable (Allowed s e) :=
  match e with
  | .push f => inferInstanceAs (Decidable f.Readable)
  | .call => inferInstanceAs (Decidable (s.taken = 0))
  | .arrive _ | .poll _ | .drop => instDecidableTrue

/-- What a call returns for a frame. -/
def changeFor (f : Frame T) : Change :=
  (Wire.decodeNeighborChange T f.payload).map some

/-- The frames pushed so far are `done`, which were returned, and `rest`. Calls were given `got` since
then, which with what was not read is the bytes of `rest`. A pending call was given all of it. -/
structure Aligned (s : State T) (done rest : List (Frame T)) (got : List UInt8) : Prop where
  frames : ∀ f ∈ rest, f.Readable ∧ WellFormed f
  pushed : s.pushed = done ++ rest
  returned : s.returned = done.map changeFor
  stream : got ++ (s.arrived ++ s.wire) = rest.flatMap Frame.bytes
  taken : got.length = s.taken
  pending : ∀ fut, s.pending = some fut →
    ∀ input, fut.run input = (AsyncClient.nextChange T).run.run (got ++ input)

/-! ## One call -/

/-- Run on a frame, a call takes the frame. -/
lemma run_nextChange {f : Frame T} (hread : f.Readable) (hf : WellFormed f) (rest : List UInt8) :
    (AsyncClient.nextChange T).run.run (f.bytes ++ rest) = ⟨changeFor f, rest, []⟩ := by
  have hitem : f.verdict .notification = .ok f.payload := by
    rw [Frame.verdict, hf.1]
    rfl
  have hnext := next_of (readMessage_frame hread hf.2 .notification rest [])
  rw [itemOf_verdict] at hnext
  have hchange : changeFor f = AsyncClient.changeOf (some f.item) := by
    rw [changeOf_item, Frame.item, hitem]
    rfl
  refine AsyncClient.run_of_block ?_
  rw [AsyncClient.block_nextChange, bind_ok hnext, hchange]

/-- A call that ends has been given a whole frame, the first that was not returned. -/
lemma ends_with_frame {fs : List (Frame T)} (hfs : ∀ f ∈ fs, f.Readable ∧ WellFormed f)
    {got rest : List UInt8} {r : Change} (hne : got ≠ [])
    (hstream : got ++ rest = fs.flatMap Frame.bytes)
    (hrun : ∀ input, (AsyncClient.nextChange T).run.run (got ++ input) = ⟨r, input, []⟩) :
    ∃ f fs', fs = f :: fs' ∧ r = changeFor f ∧ rest = fs'.flatMap Frame.bytes := by
  cases fs with
  | nil =>
    rw [List.flatMap_nil] at hstream
    exact absurd (List.append_eq_nil_iff.mp hstream).1 hne
  | cons f fs =>
    obtain ⟨hread, hf⟩ := hfs f List.mem_cons_self
    rw [List.flatMap_cons] at hstream
    have hprefix : got <+: f.bytes ∨ f.bytes <+: got :=
      List.prefix_or_prefix_of_prefix ⟨rest, hstream⟩ (List.prefix_append _ _)
    obtain ⟨rfl, rfl⟩ := Fut.done_exact hrun (run_nextChange hread hf) hprefix
    exact ⟨f, fs, rfl, rfl, List.append_cancel_left hstream⟩

/-! ## Runs -/

/-- A poll hands bytes to the pending call, which returns the next notification if it ends. -/
lemma aligned_poll {s : State T} {done rest : List (Frame T)} {got : List UInt8}
    (hs : Aligned s done rest got) {fut fut' : Fut Change} (hpending : s.pending = some fut)
    {n : Nat} (htake : fut.take (s.arrived.take n) = some fut') :
    ∃ done rest got, Aligned (State.resume
      { s with arrived := s.arrived.drop n, taken := s.taken + (s.arrived.take n).length } fut')
      done rest got := by
  have hrun : ∀ input, fut'.run input =
      (AsyncClient.nextChange T).run.run (got ++ s.arrived.take n ++ input) := by
    intro input
    rw [Fut.run_take htake, hs.pending fut hpending, List.append_assoc]
  have hstream : got ++ s.arrived.take n ++ (s.arrived.drop n ++ s.wire) =
      rest.flatMap Frame.bytes := by
    rw [← hs.stream, List.append_assoc, ← List.append_assoc (s.arrived.take n),
      List.take_append_drop]
  have hlen : (got ++ s.arrived.take n).length = s.taken + (s.arrived.take n).length := by
    rw [List.length_append, hs.taken]
  have hpending' : ∀ fut, some fut' = some fut →
      ∀ input, fut.run input =
        (AsyncClient.nextChange T).run.run (got ++ s.arrived.take n ++ input) := by
    intro fut heq
    cases heq
    exact hrun
  cases fut' with
  | read m k =>
    exact ⟨done, rest, _, hs.frames, hs.pushed, hs.returned, hstream, hlen, hpending'⟩
  | write bs k =>
    exact ⟨done, rest, _, hs.frames, hs.pushed, hs.returned, hstream, hlen, hpending'⟩
  | done r =>
    have hne : got ++ s.arrived.take n ≠ [] :=
      List.append_ne_nil_of_right_ne_nil _ (Fut.take_ne_nil htake)
    obtain ⟨f, rest', rfl, rfl, hrest⟩ :=
      ends_with_frame hs.frames hne hstream fun input => (hrun input).symm
    refine ⟨done ++ [f], rest', [], ?_, ?_, ?_, hrest, rfl, nofun⟩
    · exact fun g hg => hs.frames g (List.mem_cons_of_mem _ hg)
    · exact hs.pushed.trans (List.append_cons done f rest')
    · show s.returned ++ [changeFor f] = _
      rw [hs.returned, List.map_append]
      rfl

/-- What is allowed keeps the calls and the frames aligned. -/
lemma aligned_step {s s' : State T} {e : Event T} (h : ∃ done rest got, Aligned s done rest got)
    (hallowed : Allowed s e) (hstep : step s e = some s') :
    ∃ done rest got, Aligned s' done rest got := by
  obtain ⟨done, rest, got, hs⟩ := h
  cases e with
  | push f =>
    rw [step] at hstep
    split at hstep
    case isFalse => cases hstep
    case isTrue hf =>
      cases hstep
      refine ⟨done, rest ++ [f], got, ?_, ?_, hs.returned, ?_, hs.taken, hs.pending⟩
      · intro g hg
        obtain hg | hg := List.mem_append.mp hg
        · exact hs.frames g hg
        · rw [List.mem_singleton.mp hg]
          exact ⟨hallowed, hf⟩
      · show s.pushed ++ [f] = _
        rw [hs.pushed, List.append_assoc]
      · show got ++ (s.arrived ++ (s.wire ++ f.bytes)) = _
        rw [List.flatMap_append, List.flatMap_singleton, ← hs.stream]
        simp only [List.append_assoc]
  | arrive n =>
    cases hstep
    refine ⟨done, rest, got, hs.frames, hs.pushed, hs.returned, ?_, hs.taken, hs.pending⟩
    show got ++ (s.arrived ++ s.wire.take n ++ s.wire.drop n) = _
    rw [List.append_assoc, List.take_append_drop]
    exact hs.stream
  | call =>
    rw [step] at hstep
    split at hstep
    case h_1 => cases hstep
    case h_2 hpending =>
      cases hstep
      -- nothing is lost, so the call starts where a frame does
      obtain rfl : got = [] := List.length_eq_zero_iff.mp (hs.taken.trans hallowed)
      refine ⟨done, rest, [], hs.frames, hs.pushed, hs.returned, hs.stream, hs.taken, ?_⟩
      intro fut heq input
      cases heq
      exact Fut.run_settle _ input
  | poll n =>
    rw [step] at hstep
    split at hstep
    case h_1 => cases hstep
    case h_2 fut hpending =>
      split at hstep
      case h_1 => cases hstep
      case h_2 fut' htake =>
        cases hstep
        exact aligned_poll hs hpending htake
  | drop =>
    rw [step] at hstep
    split at hstep
    case h_1 => cases hstep
    case h_2 =>
      cases hstep
      exact ⟨done, rest, got, hs.frames, hs.pushed, hs.returned, hs.stream, hs.taken, nofun⟩

/-- In every run that makes no call after one that was given something and dropped, the calls return the
notifications in order, none skipped and none twice. -/
theorem returned_in_order {s : State T} (h : Reach step Allowed (State.init T) s) :
    s.returned <+: s.pushed.map changeFor := by
  have hinit : ∃ done rest got, Aligned (State.init T) done rest got :=
    ⟨[], [], [], fun f hf => absurd hf List.not_mem_nil, rfl, rfl, rfl, rfl, nofun⟩
  obtain ⟨done, rest, got, hs⟩ := h.invariant hinit fun s e s' => aligned_step
  rw [hs.returned, hs.pushed, List.map_append]
  exact List.prefix_append _ _

/-- One notification, read in two portions. -/
def wholeRun : List (Event .lp64le) :=
  [.push addedChange, .arrive 200, .call, .poll 10, .poll 6, .poll 200]

/-- The notification is returned. -/
theorem returned_in_order_wholeRun :
    ∃ s, run step Allowed (State.init .lp64le) wholeRun = some s ∧
      s.returned <+: s.pushed.map changeFor := by
  have hsome : (run step Allowed (State.init .lp64le) wholeRun).isSome := by decide +kernel
  obtain ⟨s, hs⟩ := Option.isSome_iff_exists.mp hsome
  exact ⟨s, hs, returned_in_order (Reach.run .init hs)⟩

/-- The first notification is skipped: one call is dropped with its header, another with its payload. -/
def skippingRun : List (Event .lp64le) :=
  [.push (.of .lp64le .notification (plainChange none 1) (by decide +kernel)),
    .push (.of .lp64le .notification (plainChange none 0) (by decide +kernel)),
    .arrive 128, .call, .poll 16, .drop, .call, .poll 16, .poll 32, .drop, .call, .poll 16, .poll 48]

/-- What is returned first is the second notification. -/
theorem skippingRun_skips :
    ∃ s, Reach step (fun _ _ => True) (State.init .lp64le) s ∧
      ¬ s.returned <+: s.pushed.map changeFor := by
  have hskip : (run step (fun _ _ => True) (State.init .lp64le) skippingRun).any
      fun s => ¬ s.returned <+: s.pushed.map changeFor := by decide +kernel
  obtain ⟨s, hs, hs'⟩ := (Option.any_eq_true _ _).mp hskip
  exact ⟨s, Reach.run .init hs, of_decide_eq_true hs'⟩

end Rlldpctl.AsyncSubscription
