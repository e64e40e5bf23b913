import Rlldpctl.Listing
import Rlldpctl.Replies
import Rlldpctl.Segments

/-!
# Methods

The methods of a connection as one type: the calls that can be repeated, `subscribe`, which gives the socket
to a subscription, and the subscription's own. A method writes its request, if it has one, and takes the
next message of the stream, in the blocking client and in the async client alike.
-/

namespace Rlldpctl
open Async ByteReader
open AsyncClient (sentBy block)

variable {T : Target} {α : Type}

/-- A method of a client or of its subscription. -/
inductive Method where
  | call (c : Call)
  | subscribe
  | nextChange

/-- What a method returns. -/
inductive Returned where
  | reply (r : Except Fault Reply)
  | subscribed (r : Except Fault Unit)
  | change (r : Except Fault (Option NeighborChange))

/-- The result of a program and the socket it leaves. -/
def resultOf : EStateM.Result Fault UnixStream α → Except Fault α × UnixStream
  | .ok a s => (.ok a, s)
  | .error e s => (.error e, s)

section
variable (T : Target)

/-- A method of the blocking client. -/
def Method.io (m : Method) (s : UnixStream) : Returned × UnixStream :=
  match m with
  | .call c => (resultOf (Client.call T c s)).map .reply id
  | .subscribe => (resultOf (Client.subscribe T s)).map .subscribed id
  | .nextChange =>
    (resultOf (Subscription.next T s)).map (fun r => .change (r >>= AsyncClient.changeOf)) id

/-- The future of a method of the async client. -/
def Method.fut : Method → Fut Returned
  | .call c => (AsyncClient.call T c).run >>= fun r => .done (.reply r)
  | .subscribe => (AsyncClient.subscribe T).run >>= fun r => .done (.subscribed r)
  | .nextChange => (AsyncClient.nextChange T).run >>= fun r => .done (.change r)

/-- What a method writes. -/
def Method.request : Method → List UInt8
  | .call c => sentBy T c
  | .subscribe => encodeHeader T .subscribe ([] : List UInt8).length ++ []
  | .nextChange => []

/-- A method after its request has been written. -/
def Method.reading : Method → Fut Returned
  | .call c => AsyncClient.reading T c >>= fun r => .done (.reply r)
  | .subscribe =>
    ExceptT.run (AsyncClient.readMessage T .subscribe >>= fun _ => pure ()) >>= fun r =>
      .done (.subscribed r)
  | .nextChange => (AsyncClient.nextChange T).run >>= fun r => .done (.change r)

/-- What a method makes of a message. -/
def Method.judge (seg : Segment) : Method → Returned
  | .call c => .reply (seg.verdict c.ty >>= c.decode T)
  | .subscribe => .subscribed ((seg.verdict .subscribe).map fun _ => ())
  | .nextChange => .change (AsyncClient.changeOf (itemOf T (seg.verdict .notification)))

/-- Methods of the blocking client, one after another. -/
def runIo : List Method → UnixStream → List Returned × UnixStream
  | [], s => ([], s)
  | m :: ms, s =>
    let p := m.io T s
    let q := runIo ms p.2
    (p.1 :: q.1, q.2)

/-- Methods of the async client, one after another. -/
def runFut : List Method → Fut (List Returned)
  | [] => .done []
  | m :: ms => m.fut T >>= fun r => runFut ms >>= fun rs => .done (r :: rs)

end

/-! ## A frame -/

section
variable (f : Frame T)

/-- What a call makes of a frame. -/
lemma Frame.judge_call (c : Call) :
    (Method.call c).judge T (.frame f.ty f.payload) = .reply (f.outcome c) := rfl

/-- What `subscribe` makes of a frame. -/
lemma Frame.judge_subscribe :
    Method.subscribe.judge T (.frame f.ty f.payload) =
      .subscribed ((f.verdict .subscribe).map fun _ => ()) := rfl

/-- What `next_change` makes of a frame. -/
lemma Frame.judge_nextChange :
    Method.nextChange.judge T (.frame f.ty f.payload) = .change (f.item.map some) := by
  show Returned.change (AsyncClient.changeOf (itemOf T (f.verdict .notification))) = _
  rw [itemOf_verdict, changeOf_item]

end

/-! ## Blocking -/

/-- The result of a pure step. -/
lemma resultOf_ofExcept (r : Except Fault α) (s : UnixStream) :
    resultOf ((ofExcept r : Io α) s) = (r, s) := by
  cases r with
  | ok a => rfl
  | error e => rfl

section
variable (input out : List UInt8)

/-- A call writes its request and takes one segment. -/
lemma call_segment (c : Call) :
    Client.call T c ⟨input, out⟩ =
      (ofExcept ((nextSegment T input).1.verdict c.ty >>= c.decode T) : Io _)
        ⟨(nextSegment T input).2, out ++ sentBy T c⟩ := by
  rw [Client.call_eq]
  exact exchange_of (readMessage_segment c.ty input _)

/-- `subscribe` writes its request and takes one segment. -/
lemma subscribe_segment :
    Client.subscribe T ⟨input, out⟩ =
      (ofExcept (((nextSegment T input).1.verdict .subscribe).map fun _ => ()) : Io _)
        ⟨(nextSegment T input).2, out ++ Method.request T .subscribe⟩ := by
  have h : Client.subscribe T ⟨input, out⟩ =
      (ofExcept ((nextSegment T input).1.verdict .subscribe >>= fun _ => .ok ()) : Io _)
        ⟨(nextSegment T input).2, out ++ Method.request T .subscribe⟩ :=
    @exchange_of T Unit .subscribe [] (fun _ => .ok ()) _ _ _ _
      (readMessage_segment .subscribe input _)
  rw [h]
  cases (nextSegment T input).1.verdict .subscribe with
  | ok payload => rfl
  | error e => rfl

/-- A method takes the next message. -/
lemma Method.io_segment (m : Method) :
    m.io T ⟨input, out⟩ =
      (m.judge T (nextSegment T input).1, ⟨(nextSegment T input).2, out ++ m.request T⟩) := by
  cases m with
  | call c =>
    rw [io, call_segment, resultOf_ofExcept]
    rfl
  | subscribe =>
    rw [io, subscribe_segment, resultOf_ofExcept]
    rfl
  | nextChange =>
    rw [io, next_of (readMessage_segment .notification input out)]
    show _ = (_, UnixStream.mk _ (out ++ []))
    rw [List.append_nil]
    rfl

end

/-! ## Async -/

/-- A run of a future whose blocking version is known. -/
lemma run_of_blocks {x : AsyncClient.AsyncIo α} {input rest written : List UInt8} {r : Except Fault α}
    (h : block x ⟨input, []⟩ = (ofExcept r : Io α) ⟨rest, written⟩) :
    Fut.run x.run input = ⟨r, rest, written⟩ := by
  change AsyncClient.ended (Fut.run x.run input) [] = _ at h
  have hresult := congrArg resultOf h
  rw [resultOf_ofExcept] at hresult
  generalize Fut.run x.run input = o at hresult ⊢
  obtain ⟨value, rest', written'⟩ := o
  cases value with
  | ok a =>
    cases hresult
    rfl
  | error e =>
    cases hresult
    rfl

/-- A method writes its request and takes one segment. -/
lemma Method.run_fut (m : Method) (input : List UInt8) :
    (m.fut T).run input =
      ⟨m.judge T (nextSegment T input).1, (nextSegment T input).2, m.request T⟩ := by
  cases m with
  | call c =>
    have hrun := run_of_blocks ((congrFun (AsyncClient.block_call (T := T) c) ⟨input, []⟩).trans
      (call_segment input [] c))
    rw [fut, Fut.run_bind, hrun]
    show Fut.Outcome.mk _ _ (_ ++ []) = _
    rw [List.append_nil]
    rfl
  | subscribe =>
    have hrun := run_of_blocks ((congrFun (AsyncClient.block_subscribe (T := T)) ⟨input, []⟩).trans
      (subscribe_segment input []))
    rw [fut, Fut.run_bind, hrun]
    show Fut.Outcome.mk _ _ (_ ++ []) = _
    rw [List.append_nil]
    rfl
  | nextChange =>
    have hnext := next_of (readMessage_segment (T := T) .notification input [])
    have hrun := run_of_blocks ((congrFun (AsyncClient.block_nextChange (T := T)) ⟨input, []⟩).trans
      (bind_ok hnext))
    rw [fut, Fut.run_bind, hrun]
    rfl

/-- A method settles as its request followed by its reading. -/
lemma Method.settle_fut (m : Method) :
    (m.fut T).settle = (Fut.write (m.request T) (m.reading T)).settle := by
  cases m with
  | call c =>
    rw [fut, AsyncClient.run_call]
    rfl
  | subscribe => rfl
  | nextChange => rfl

/-- After its request a method takes the next message and writes nothing. -/
lemma Method.run_reading (m : Method) (input : List UInt8) :
    (m.reading T).run input = ⟨m.judge T (nextSegment T input).1, (nextSegment T input).2, []⟩ := by
  have hrun : (Fut.write (m.request T) (m.reading T)).run input = (m.fut T).run input := by
    rw [← Fut.run_settle, ← m.settle_fut, Fut.run_settle]
  rw [m.run_fut, Fut.run] at hrun
  -- what the whole method has written is the request, so the rest of it has written nothing
  generalize (m.reading T).run input = o at hrun ⊢
  obtain ⟨value, rest, written⟩ := o
  obtain ⟨rfl, rfl, hwritten⟩ := Fut.Outcome.mk.inj hrun
  exact congrArg _ (List.append_right_eq_self.mp hwritten)

/-- A message that can be read is taken as it is. -/
lemma Method.takes (m : Method) {f : Frame T} (hf : f.Readable) (hsmall : f.Small)
    (rest : List UInt8) :
    (m.reading T).run (f.bytes ++ rest) = ⟨m.judge T (.frame f.ty f.payload), rest, []⟩ := by
  rw [m.run_reading, nextSegment_frame hf hsmall rest]

/-- Reading a message writes nothing. -/
lemma reads_readMessage (expected : HmsgType) :
    Fut.Reads (AsyncClient.readMessage T expected).run := by
  refine AsyncClient.reads_bind (AsyncClient.reads_readExact _) fun header =>
    AsyncClient.reads_bind (AsyncClient.reads_ofExcept _) fun p => ?_
  dsimp only
  split
  · exact .done _
  · refine AsyncClient.reads_bind (AsyncClient.reads_readExact _) fun payload => ?_
    split
    · exact .done _
    · split
      · exact .done _
      · exact .done _

/-- `next_change` writes nothing. -/
lemma reads_nextChange : Fut.Reads (AsyncClient.nextChange T).run := by
  refine AsyncClient.reads_bind ((reads_readMessage .notification).bind fun r => .done _) fun r => ?_
  match r with
  | .ok payload => exact AsyncClient.reads_bind (AsyncClient.reads_ofExcept _) fun change => .done _
  | .error .panic => exact .done _
  | .error (.error .requestRejected) => exact .done _
  | .error (.error (.io .unexpectedEof)) => exact .done _
  | .error (.error (.io .other)) => exact .done _
  | .error (.error (.unexpectedMessageType _ _)) => exact .done _
  | .error (.error (.protocol _)) => exact .done _

/-- After its request a method only reads. -/
lemma Method.reads (m : Method) : Fut.Reads (m.reading T) := by
  cases m with
  | call c => exact (AsyncClient.reads_reading c).bind fun r => .done _
  | subscribe =>
    exact (AsyncClient.reads_bind (reads_readMessage _) fun payload => .done _).bind fun r => .done _
  | nextChange => exact reads_nextChange.bind fun r => .done _

/-- What it awaits first is a header. -/
lemma Method.awaits (m : Method) : ∃ n k, m.reading T = .read (n + 1) k := by
  obtain ⟨n, hn⟩ : ∃ n, headerLen T = n + 1 :=
    Nat.exists_eq_succ_of_ne_zero (Nat.ne_of_gt (Nat.lt_of_lt_of_le (by decide) (headerLen_ge T)))
  have hread : ∃ k, m.reading T = .read (headerLen T) k := by
    cases m with
    | call c => exact ⟨_, rfl⟩
    | subscribe => exact ⟨_, rfl⟩
    | nextChange => exact ⟨_, rfl⟩
  rw [hn] at hread
  exact ⟨n, hread⟩

/-! ## Any stream -/

/-- Each method of the blocking client takes one segment. -/
lemma runIo_segments (ms : List Method) (input out : List UInt8) :
    runIo T ms ⟨input, out⟩ =
      (List.zipWith (Method.judge T) (segments T ms.length input).1 ms,
        ⟨(segments T ms.length input).2, out ++ ms.flatMap (Method.request T)⟩) := by
  induction ms generalizing input out with
  | nil =>
    show ([], UnixStream.mk input out) = ([], UnixStream.mk input (out ++ []))
    rw [List.append_nil]
  | cons m ms ih =>
    rw [runIo, m.io_segment]
    dsimp only
    rw [ih, List.flatMap_cons, List.append_assoc]
    rfl

/-- Each method of the async client takes one segment. -/
lemma runFut_segments (ms : List Method) (input : List UInt8) :
    (runFut T ms).run input =
      ⟨List.zipWith (Method.judge T) (segments T ms.length input).1 ms,
        (segments T ms.length input).2, ms.flatMap (Method.request T)⟩ := by
  induction ms generalizing input with
  | nil => rfl
  | cons m ms ih =>
    rw [runFut, Fut.run_bind, m.run_fut]
    dsimp only
    rw [Fut.run_bind, ih]
    dsimp only
    rw [List.flatMap_cons]
    show Fut.Outcome.mk _ _ (_ ++ (_ ++ [])) = _
    rw [List.append_nil]
    rfl

/-- What is left is the end of the stream. -/
lemma segments_suffix (n : Nat) (input : List UInt8) : (segments T n input).2 <:+ input := by
  induction n generalizing input with
  | zero => exact List.suffix_rfl
  | succ n ih => exact (ih _).trans (nextSegment_suffix input)

/-- Whatever bytes the peer sends, and whichever methods are called: the stream alone says which messages
there are, each method takes one of them, and what it returns depends on this one only. What is written are
the requests, whatever is read. The async client does the same. -/
theorem segments_decide (T : Target) (ms : List Method) (input out : List UInt8) :
    let p := segments T ms.length input
    runIo T ms ⟨input, out⟩ =
        (List.zipWith (Method.judge T) p.1 ms, ⟨p.2, out ++ ms.flatMap (Method.request T)⟩) ∧
      (runFut T ms).run input =
        ⟨List.zipWith (Method.judge T) p.1 ms, p.2, ms.flatMap (Method.request T)⟩ ∧
      p.2 <:+ input :=
  ⟨runIo_segments ms input out, runFut_segments ms input, segments_suffix _ input⟩

end Rlldpctl
