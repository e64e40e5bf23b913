import Rlldpctl.Lib.Async
import Rlldpctl.Lib.Transitions

/-!
# Schedules

A future on a connection of which all the input is known, polled in any way: bytes of the input are handed
to a read in any portions, and the end of the input once there are no more; bytes of a write are taken in
any portions. No schedule changes how the future ends (`Agrees.run`), and none gets stuck (`completes`).
-/

namespace Async
open Transitions

variable {α : Type}

namespace Fut

/-- A read that awaits something learns that the input has ended. -/
def eof : Fut α → Option (Fut α)
  | .read (_ + 1) k => some (k none).settle
  | _ => none

/-- Settling twice is settling once. -/
lemma settle_settle (x : Fut α) : x.settle.settle = x.settle := by
  induction x with
  | done a => rfl
  | read n k ih =>
    cases n with
    | zero => exact ih _
    | succ n => rfl
  | write bs k ih =>
    cases bs with
    | nil => exact ih
    | cons b bs => rfl

/-- What is left after a read has settled. -/
lemma settled_take {x x' : Fut α} {bs : List UInt8} (h : x.take bs = some x') :
    x'.settle = x' := by
  cases x with
  | done a => cases h
  | write cs k => cases h
  | read n k =>
    rw [take] at h
    split at h
    case isFalse => cases h
    case isTrue =>
      cases h
      exact settle_settle _

/-- What is left after a write has settled. -/
lemma settled_put {x x' : Fut α} {m : Nat} {bs : List UInt8} (h : x.put m = some (bs, x')) :
    x'.settle = x' := by
  cases x with
  | done a => cases h
  | read n k => cases h
  | write cs k =>
    rw [put] at h
    split at h
    case isFalse => cases h
    case isTrue =>
      cases h
      exact settle_settle _

/-- What is left at the end of the stream has settled. -/
lemma settled_eof {x x' : Fut α} (h : x.eof = some x') : x'.settle = x' := by
  cases x with
  | done a => cases h
  | write bs k => cases h
  | read n k =>
    cases n with
    | zero => cases h
    | succ n =>
      cases h
      exact settle_settle _

/-- The end of the input is the end of it for a read. -/
lemma run_eof {x x' : Fut α} (h : x.eof = some x') : x'.run [] = x.run [] := by
  cases x with
  | done a => cases h
  | write bs k => cases h
  | read n k =>
    cases n with
    | zero => cases h
    | succ n =>
      cases h
      exact run_settle _ _

/-- Bytes that were taken of a write are written. -/
lemma run_put {x x' : Fut α} {m : Nat} {bs : List UInt8} (h : x.put m = some (bs, x'))
    (input : List UInt8) :
    x.run input = { x'.run input with written := bs ++ (x'.run input).written } := by
  cases x with
  | done a => cases h
  | read n k => cases h
  | write cs k =>
    rw [put] at h
    split at h
    case isFalse => cases h
    case isTrue =>
      cases h
      rw [run_settle, run, run]
      dsimp only
      rw [← List.append_assoc, List.take_append_drop]

end Fut

/-! ## Polls -/

/-- A future, the input it has not been given and what it has written. -/
structure Conn (α : Type) where
  fut : Fut α
  input : List UInt8
  output : List UInt8

/-- What a poll makes happen. -/
inductive Poll where
  | read (n : Nat)
  | eof
  | write (n : Nat)

/-- A future before its first poll. -/
def Conn.start (x : Fut α) (input output : List UInt8) : Conn α := ⟨x.settle, input, output⟩

/-- What a poll does, when it does anything. -/
def Conn.poll (s : Conn α) : Poll → Option (Conn α)
  | .read n => (s.fut.take (s.input.take n)).map fun fut => { s with fut, input := s.input.drop n }
  | .eof => if s.input = [] then s.fut.eof.map fun fut => { s with fut } else none
  | .write n => (s.fut.put n).map fun p => { s with fut := p.2, output := s.output ++ p.1 }

/-- What some polls lead to. -/
abbrev Polled (s s' : Conn α) : Prop := Reach Conn.poll (fun _ _ => True) s s'

/-- A poll is a schedule of one. -/
lemma Polled.one {s s' : Conn α} {p : Poll} (h : s.poll p = some s') : Polled s s' :=
  .step .init trivial h

/-- How the future of a connection would end if it were run now. -/
def Conn.ending (s : Conn α) : Fut.Outcome α :=
  let o := s.fut.run s.input
  { o with written := s.output ++ o.written }

/-- A poll does not change what the stream will bring. -/
lemma ending_poll {s s' : Conn α} {p : Poll} (h : s.poll p = some s') : s'.ending = s.ending := by
  cases p with
  | read n =>
    obtain ⟨fut, htake, rfl⟩ := Option.map_eq_some_iff.mp h
    have hrun := Fut.run_take htake (s.input.drop n)
    rw [List.take_append_drop] at hrun
    unfold Conn.ending
    rw [hrun]
  | eof =>
    rw [Conn.poll] at h
    split at h
    case isFalse => cases h
    case isTrue hinput =>
      obtain ⟨fut, heof, rfl⟩ := Option.map_eq_some_iff.mp h
      unfold Conn.ending
      rw [hinput, Fut.run_eof heof]
  | write n =>
    obtain ⟨⟨bs, fut⟩, hput, rfl⟩ := Option.map_eq_some_iff.mp h
    unfold Conn.ending
    rw [Fut.run_put hput]
    simp only [List.append_assoc]

/-- No poll changes how the future ends. -/
lemma Polled.ending {s s' : Conn α} (h : Polled s s') : s'.ending = s.ending := by
  induction h with
  | init => rfl
  | step _ _ hstep ih => exact (ending_poll hstep).trans ih

/-- After a poll the future has settled. -/
lemma settled_poll {s s' : Conn α} {p : Poll} (h : s.poll p = some s') : s'.fut.settle = s'.fut := by
  cases p with
  | read n =>
    obtain ⟨fut, htake, rfl⟩ := Option.map_eq_some_iff.mp h
    exact Fut.settled_take htake
  | eof =>
    rw [Conn.poll] at h
    split at h
    case isFalse => cases h
    case isTrue hinput =>
      obtain ⟨fut, heof, rfl⟩ := Option.map_eq_some_iff.mp h
      exact Fut.settled_eof heof
  | write n =>
    obtain ⟨⟨bs, fut⟩, hput, rfl⟩ := Option.map_eq_some_iff.mp h
    exact Fut.settled_put hput

/-- After a schedule the future is still settled. -/
lemma Polled.settled {s s' : Conn α} (h : Polled s s') (hs : s.fut.settle = s.fut) :
    s'.fut.settle = s'.fut := by
  cases h with
  | init => exact hs
  | step _ _ hstep => exact settled_poll hstep

section
variable {n : Nat} {k : Option (List UInt8) → Fut α} {input output : List UInt8}

/-- A read is given all that it awaits. -/
lemma polled_whole (hle : n + 1 ≤ input.length) :
    Polled (.start (.read (n + 1) k) input output)
      (.start (k (some (input.take (n + 1)))) (input.drop (n + 1)) output) := by
  have hlen : (input.take (n + 1)).length = n + 1 := List.length_take_of_le hle
  have hne : input.take (n + 1) ≠ [] := by
    intro h
    rw [h] at hlen
    cases hlen
  refine .one (p := .read (n + 1)) ?_
  show ((Fut.read (n + 1) k).take (input.take (n + 1))).map _ = _
  rw [Fut.take, if_pos ⟨hne, Nat.le_of_eq hlen⟩, hlen, Nat.sub_self, Option.map_some, Fut.settle,
    Option.map_some, List.append_nil]
  rfl

/-- A read is given all there is, and then the end. -/
lemma polled_short (hlt : input.length < n + 1) :
    Polled (.start (.read (n + 1) k) input output) (.start (k none) [] output) := by
  by_cases hinput : input = []
  · subst hinput
    exact .one (p := .eof) rfl
  · obtain ⟨m, hm⟩ : ∃ m, n + 1 - input.length = m + 1 := ⟨n - input.length, by omega⟩
    have hfirst : (Conn.start (.read (n + 1) k) input output).poll (.read input.length) =
        some ⟨.read (m + 1) fun more => k (more.map (input ++ ·)), [], output⟩ := by
      show ((Fut.read (n + 1) k).take (input.take input.length)).map _ = _
      rw [List.take_length, Fut.take, if_pos ⟨hinput, Nat.le_of_lt hlt⟩, hm, Option.map_some, Conn.start,
        List.drop_length]
      rfl
    exact (Polled.one hfirst).trans (Polled.one (p := .eof) rfl)

/-- All of a write is taken. -/
lemma polled_write (b : UInt8) (bs : List UInt8) (k : Fut α) :
    Polled (.start (.write (b :: bs) k) input output) (.start k input (output ++ (b :: bs))) := by
  refine .one (p := .write (b :: bs).length) ?_
  show ((Fut.write (b :: bs) k).put (b :: bs).length).map _ = _
  rw [Fut.put, if_pos ⟨Nat.zero_lt_succ _, Nat.le_refl _⟩, List.take_length, List.drop_length]
  rfl

end

/-- A future can always be polled to its end. -/
lemma completes (x : Fut α) (input output : List UInt8) :
    ∃ s, Polled (.start x input output) s ∧ ∃ a, s.fut = .done a := by
  induction x generalizing input output with
  | done a => exact ⟨_, .init, a, rfl⟩
  | write bs k ih =>
    cases bs with
    | nil => exact ih input output
    | cons b bs =>
      obtain ⟨s, hs, hdone⟩ := ih input (output ++ (b :: bs))
      exact ⟨s, (polled_write b bs k).trans hs, hdone⟩
  | read n k ih =>
    cases n with
    | zero => exact ih (some []) input output
    | succ n =>
      by_cases hle : n + 1 ≤ input.length
      · obtain ⟨s, hs, hdone⟩ := ih (some (input.take (n + 1))) (input.drop (n + 1)) output
        exact ⟨s, (polled_whole hle).trans hs, hdone⟩
      · obtain ⟨s, hs, hdone⟩ := ih none [] output
        exact ⟨s, (polled_short (Nat.not_le.mp hle)).trans hs, hdone⟩

/-- However a future is polled, it can be polled to its end, where it has returned, left and written what
it does when it is run. -/
theorem schedules {x : Fut α} {input output : List UInt8} {s : Conn α}
    (h : Polled (.start x input output) s) :
    (∃ s', Polled s s' ∧ ∃ a, s'.fut = .done a) ∧
      ∀ a, s.fut = .done a → (⟨a, s.input, s.output⟩ : Fut.Outcome α) =
        { x.run input with written := output ++ (x.run input).written } := by
  have hending := h.ending
  refine ⟨?_, fun a ha => ?_⟩
  · have hsettled : s.fut.settle = s.fut := h.settled (Fut.settle_settle x)
    have hstart : Conn.start s.fut s.input s.output = s := by
      rw [Conn.start, hsettled]
    obtain ⟨s', hs', hdone⟩ := completes s.fut s.input s.output
    exact ⟨s', hstart ▸ hs', hdone⟩
  · have hstart : (Conn.start x input output).ending =
        { x.run input with written := output ++ (x.run input).written } := by
      unfold Conn.ending Conn.start
      rw [Fut.run_settle]
    rw [← hstart, ← hending]
    unfold Conn.ending
    rw [ha, Fut.run]
    simp only [List.append_nil]

end Async
