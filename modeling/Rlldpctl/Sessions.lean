import Rlldpctl.AsyncClient
import Rlldpctl.Frames
import Rlldpctl.Wire.RoundTrip

/-!
# Runs of calls on one connection

Calls are made one after another on a socket, whatever each returns (`results`). When every frame on the
socket can be read (`Frame.Readable`) each call takes exactly one frame, so the calls and the frames stay
paired; after the frames every call sees the end of the stream. A frame that announces more than
`HMSG_MAX_SIZE` bytes is the exception: its payload stays in the socket.
-/

namespace Rlldpctl
open ByteReader CLayout NativeBytes

variable {T : Target} {α : Type}

/-! ## One frame -/

/-- The length in the header is read back. -/
def Frame.Readable (f : Frame T) : Prop :=
  ReadsWords T ∨ f.payload = []

/-- The payload and the target are looked at. -/
instance (f : Frame T) : Decidable f.Readable :=
  inferInstanceAs (Decidable (_ ∨ _))

/-- The payload is not larger than the crate accepts. -/
def Frame.Small (f : Frame T) : Prop :=
  f.payload.length ≤ hmsgMaxSize

/-- The length is compared. -/
instance (f : Frame T) : Decidable f.Small :=
  inferInstanceAs (Decidable (_ ≤ _))

/-- What the type of a frame makes of its payload. -/
def Frame.verdict (f : Frame T) (expected : HmsgType) : Except Fault (List UInt8) :=
  if f.ty = HmsgType.none.toI32 then
    .error (.error .requestRejected)
  else if ¬ expected.matches f.ty then
    .error (.error (.unexpectedMessageType expected.toI32.toUInt32 f.ty.toUInt32))
  else
    .ok f.payload

/-- What a subscription makes of a frame. -/
def Frame.item (f : Frame T) : Except Fault NeighborChange :=
  f.verdict .notification >>= Wire.decodeNeighborChange T

/-- What a call makes of a frame. -/
def Frame.outcome (f : Frame T) (c : Call) : Except Fault Reply :=
  f.verdict c.ty >>= c.decode T

/-- A read of bytes that are there. -/
lemma readExact_ok (bs rest out : List UInt8) :
    readExact bs.length ⟨bs ++ rest, out⟩ = .ok bs ⟨rest, out⟩ := by
  have hle : bs.length ≤ (bs ++ rest).length := by
    rw [List.length_append]
    exact Nat.le_add_right _ _
  unfold readExact
  dsimp only
  rw [if_pos hle, List.take_left, List.drop_left]

/-- A read of more bytes than there are. -/
lemma readExact_eof {n : Nat} {bs : List UInt8} (h : bs.length < n) (out : List UInt8) :
    readExact n ⟨bs, out⟩ = .error (.error (.io .unexpectedEof)) ⟨[], out⟩ :=
  if_neg (Nat.not_le.mpr h)

/-- `read_message` after the header. -/
def readBody (expected : HmsgType) (gotTy : Int32) (len : Nat) : Io (List UInt8) :=
  if len > hmsgMaxSize then
    throw (oversize len)
  else do
    let payload ← readExact len
    if gotTy = HmsgType.none.toI32 then
      throw (.error .requestRejected)
    else if ¬ expected.matches gotTy then
      throw (.error (.unexpectedMessageType expected.toI32.toUInt32 gotTy.toUInt32))
    else
      pure payload

/-- After the header the body is read, with the length that was read back. -/
lemma readMessage_header (h : Header T) (ty : Int32) (len : Nat) (expected : HmsgType)
    (rest out : List UInt8) :
    readMessage T expected ⟨(h.write ty len).bytes ++ rest, out⟩ =
      readBody expected ty (if ReadsWords T then len % 256 ^ T.ptrSize else 0) ⟨rest, out⟩ := by
  have hread := readExact_ok (h.write ty len).bytes rest out
  rw [Header.length_bytes] at hread
  unfold readMessage
  rw [bind_ok hread, decodeHeader_write]
  rfl

/-- The length that is read from a frame's header. -/
lemma Frame.length_read {f : Frame T} (hf : f.Readable) :
    (if ReadsWords T then f.payload.length % 256 ^ T.ptrSize else 0) = f.payload.length := by
  by_cases hT : ReadsWords T
  · rw [if_pos hT, Nat.mod_eq_of_lt ((T.lt_pow_iff _).mpr f.length_le)]
  · rw [if_neg hT, hf.resolve_left hT]
    rfl

/-- A frame is taken whole, and judged by its type. -/
lemma readMessage_frame {f : Frame T} (hf : f.Readable) (hsmall : f.Small) (expected : HmsgType)
    (rest out : List UInt8) :
    readMessage T expected ⟨f.bytes ++ rest, out⟩ =
      (ofExcept (f.verdict expected) : Io _) ⟨rest, out⟩ := by
  have hread := readExact_ok f.payload rest out
  rw [Frame.bytes, Frame.header, List.append_assoc, readMessage_header, f.length_read hf, readBody,
    if_neg (Nat.not_lt.mpr hsmall), bind_ok hread, Frame.verdict]
  split
  · rfl
  · split
    · rfl
    · rfl

/-- Of a frame that is too large only the header is taken. -/
lemma readMessage_large {f : Frame T} (hf : f.Readable) (hlarge : ¬ f.Small) (expected : HmsgType)
    (rest out : List UInt8) :
    readMessage T expected ⟨f.bytes ++ rest, out⟩ =
      .error (oversize f.payload.length) ⟨f.payload ++ rest, out⟩ := by
  rw [Frame.bytes, Frame.header, List.append_assoc, readMessage_header, f.length_read hf, readBody,
    if_pos (Nat.not_le.mp hlarge)]
  rfl

/-- With `tail` left in the stream the next message is its end. -/
def Ended (T : Target) (tail : List UInt8) : Prop :=
  ∀ expected out,
    readMessage T expected ⟨tail, out⟩ = .error (.error (.io .unexpectedEof)) ⟨[], out⟩

/-- The empty stream has ended. -/
lemma ended_nil : Ended T [] := by
  intro expected out
  have hpos : 0 < headerLen T := (Nat.succ_pos 7).trans_le (headerLen_ge T)
  exact bind_error (readExact_eof hpos out)

/-- A frame that is cut off is the end of the stream. Its length has to be read when its header is there. -/
lemma ended_cut {f : Frame T} {tail : List UInt8} (hf : headerLen T ≤ tail.length → f.Readable)
    (hsmall : f.Small) (htail : tail <+: f.bytes) (hne : tail ≠ f.bytes) : Ended T tail := by
  intro expected out
  have hlt : tail.length < f.bytes.length :=
    lt_of_le_of_ne htail.length_le fun h => hne (htail.eq_of_length h)
  have hlen : f.bytes.length = headerLen T + f.payload.length := by
    rw [Frame.bytes, List.length_append, Header.length_bytes]
  by_cases hheader : tail.length < headerLen T
  · exact bind_error (readExact_eof hheader out)
  · obtain ⟨more, hmore⟩ := htail
    have hread := hf (Nat.not_lt.mp hheader)
    have hle : f.header.bytes.length ≤ tail.length := by
      rw [Header.length_bytes]
      exact Nat.not_lt.mp hheader
    -- the header is there, some of the payload is not
    obtain ⟨part, rfl⟩ : f.header.bytes <+: tail := by
      refine List.prefix_of_prefix_length_le (List.prefix_append _ f.payload) ⟨more, hmore⟩ hle
    have hpart : part.length < f.payload.length := by
      rw [List.length_append, Header.length_bytes] at hlt
      omega
    rw [Frame.header, readMessage_header, f.length_read hread, readBody,
      if_neg (Nat.not_lt.mpr hsmall)]
    exact bind_error (readExact_eof hpart out)

/-! ## Runs -/

/-- The results of calls made one after another. -/
def results : List (Io α) → UnixStream → List (Except Fault α)
  | [], _ => []
  | x :: xs, s =>
    match x s with
    | .ok a s' => .ok a :: results xs s'
    | .error e s' => .error e :: results xs s'

/-- The first result and the others. -/
lemma results_cons {x : Io α} {s s' : UnixStream} {r : Except Fault α}
    (h : x s = (ofExcept r : Io α) s') (xs : List (Io α)) :
    results (x :: xs) s = r :: results xs s' := by
  rw [results, h]
  cases r with
  | ok a => rfl
  | error e => rfl

/-- The program takes one frame, with the result `r`. -/
def TakesFrame (x : Io α) (f : Frame T) (r : Except Fault α) : Prop :=
  ∀ rest out, ∃ out', x ⟨f.bytes ++ rest, out⟩ = (ofExcept r : Io α) ⟨rest, out'⟩

/-- The program takes what is left of the stream, with the result `r`. -/
def TakesEnd (x : Io α) (tail : List UInt8) (r : Except Fault α) : Prop :=
  ∀ out, ∃ out', x ⟨tail, out⟩ = (ofExcept r : Io α) ⟨[], out'⟩

section
variable {ι : Type} (prog : ι → Io α) (res : ι → Frame T → Except Fault α) {r : Except Fault α}

/-- At the end of the stream every call returns the same. -/
lemma results_end (hend : ∀ i, TakesEnd (prog i) [] r) {tail : List UInt8}
    (htail : ∀ i, TakesEnd (prog i) tail r) (xs : List ι) (out : List UInt8) :
    results (xs.map prog) ⟨tail, out⟩ = List.replicate xs.length r := by
  induction xs generalizing tail out with
  | nil => rfl
  | cons x xs ih =>
    obtain ⟨out', hx⟩ := htail x out
    rw [List.map_cons, results_cons hx, ih hend]
    rfl

/-- The results of a run on whole frames and what is left of the stream after them. -/
lemma results_run {fs : List (Frame T)} {tail : List UInt8}
    (h : ∀ i, ∀ f ∈ fs, TakesFrame (prog i) f (res i f)) (hend : ∀ i, TakesEnd (prog i) [] r)
    (htail : ∀ i, TakesEnd (prog i) tail r) (xs : List ι) (out : List UInt8) :
    results (xs.map prog) ⟨fs.flatMap Frame.bytes ++ tail, out⟩ =
      List.zipWith res xs fs ++ List.replicate (xs.length - fs.length) r := by
  induction fs generalizing xs out with
  | nil =>
    rw [List.zipWith_nil_right]
    exact results_end prog hend htail xs out
  | cons f fs ih =>
    cases xs with
    | nil =>
      rw [List.length_nil, Nat.zero_sub]
      rfl
    | cons x xs =>
      obtain ⟨out', hx⟩ := h x f List.mem_cons_self (fs.flatMap Frame.bytes ++ tail) out
      have hxs := ih (fun i g hg => h i g (List.mem_cons_of_mem _ hg)) xs out'
      rw [List.flatMap_cons, List.append_assoc, List.map_cons, results_cons hx, hxs,
        List.length_cons, List.length_cons, Nat.add_sub_add_right]
      rfl

end

/-! ## Subscriptions and clients -/

/-- What `Subscription::next` makes of what `recv_notification` returns. -/
def itemOf (T : Target) : Except Fault (List UInt8) → Option (Except Fault NeighborChange)
  | .ok payload => some (Wire.decodeNeighborChange T payload)
  | .error (.error (.io .unexpectedEof)) => none
  | .error e => some (.error e)

/-- What `next` makes of a message. -/
lemma next_of {s s' : UnixStream} {r : Except Fault (List UInt8)}
    (h : readMessage T .notification s = (ofExcept r : Io _) s') :
    Subscription.next T s = .ok (itemOf T r) s' := by
  have hattempt : attempt (recvNotification T) s = .ok r s' := by
    unfold attempt recvNotification
    rw [h]
    cases r with
    | ok payload => rfl
    | error e => rfl
  unfold Subscription.next
  rw [bind_ok hattempt]
  match r with
  | .ok payload => rfl
  | .error .panic => rfl
  | .error (.error .requestRejected) => rfl
  | .error (.error (.io .unexpectedEof)) => rfl
  | .error (.error (.io .other)) => rfl
  | .error (.error (.unexpectedMessageType _ _)) => rfl
  | .error (.error (.protocol _)) => rfl

/-- What `next` makes of a frame. -/
lemma itemOf_verdict (f : Frame T) : itemOf T (f.verdict .notification) = some f.item := by
  unfold Frame.item Frame.verdict
  split
  · rfl
  · split
    · rfl
    · rfl

/-- A call on a socket where the reply is read as `r`. -/
lemma call_of {c : Call} {input rest out : List UInt8} {r : Except Fault (List UInt8)}
    (h : ∀ out, readMessage T c.ty ⟨input, out⟩ = (ofExcept r : Io _) ⟨rest, out⟩) :
    ∃ out', Client.call T c ⟨input, out⟩ =
      (ofExcept (r >>= c.decode T) : Io _) ⟨rest, out'⟩ := by
  let sent := encodeHeader T c.ty (c.payload T).length ++ c.payload T
  have hwrite : writeAll sent ⟨input, out⟩ = .ok () ⟨input, out ++ sent⟩ := rfl
  have hread := h (out ++ sent)
  refine ⟨out ++ sent, ?_⟩
  rw [Client.call_eq, request, bind_assoc, bind_ok hwrite]
  cases r with
  | ok payload => exact bind_ok hread
  | error e => exact bind_error hread

section
variable {f : Frame T} (hf : f.Readable) (hsmall : f.Small)
include hf hsmall

/-- `next` takes one frame. -/
lemma next_takesFrame : TakesFrame (Subscription.next T) f (.ok (some f.item)) := by
  intro rest out
  have hnext := next_of (readMessage_frame hf hsmall .notification rest out)
  rw [itemOf_verdict] at hnext
  exact ⟨out, hnext⟩

/-- A call takes one frame. -/
lemma call_takesFrame (c : Call) : TakesFrame (Client.call T c) f (f.outcome c) := by
  intro rest out
  exact call_of (readMessage_frame hf hsmall c.ty rest)

end

section
variable {tail : List UInt8} (h : Ended T tail)
include h

/-- `next` at the end. -/
lemma next_takesEnd : TakesEnd (Subscription.next T) tail (.ok none) :=
  fun out => ⟨out, next_of (r := .error _) (h .notification out)⟩

/-- A call at the end. -/
lemma call_takesEnd (c : Call) :
    TakesEnd (Client.call T c) tail (.error (.error (.io .unexpectedEof))) :=
  fun _ => call_of (r := .error _) (h c.ty)

end

/-- A list of the same call, paired with frames. -/
lemma zipWith_replicate_unit {β γ : Type} (g : β → γ) (n : Nat) (bs : List β) :
    List.zipWith (fun _ b => g b) (List.replicate n ()) bs = (bs.take n).map g := by
  induction n generalizing bs with
  | zero => rfl
  | succ n ih =>
    cases bs with
    | nil => rfl
    | cons b bs => exact congrArg (g b :: ·) (ih bs)

/-- The results of one call that is repeated. -/
lemma results_replicate {x : Io α} {res : Frame T → Except Fault α} {r : Except Fault α}
    {fs : List (Frame T)} {tail : List UInt8} (h : ∀ f ∈ fs, TakesFrame x f (res f))
    (hend : TakesEnd x [] r) (htail : TakesEnd x tail r) (n : Nat) (out : List UInt8) :
    results (List.replicate n x) ⟨fs.flatMap Frame.bytes ++ tail, out⟩ =
      (fs.take n).map res ++ List.replicate (n - fs.length) r := by
  have hrun := results_run (fun _ : Unit => x) (fun _ => res) (fun _ => h)
    (fun _ => hend) (fun _ => htail) (List.replicate n ()) out
  rw [List.map_replicate, List.length_replicate, zipWith_replicate_unit] at hrun
  exact hrun

/-! ## The async client -/

/-- A frame that is taken, with its result mapped. -/
lemma TakesFrame.bind {β : Type} {x : Io α} {f : Frame T} {a : α} (h : TakesFrame x f (.ok a))
    (g : α → Except Fault β) : TakesFrame (x >>= fun a => ofExcept (g a)) f (g a) := by
  intro rest out
  obtain ⟨out', hx⟩ := h rest out
  exact ⟨out', bind_ok hx⟩

/-- The end that is met, with its result mapped. -/
lemma TakesEnd.bind {β : Type} {x : Io α} {tail : List UInt8} {a : α} (h : TakesEnd x tail (.ok a))
    (g : α → Except Fault β) : TakesEnd (x >>= fun a => ofExcept (g a)) tail (g a) := by
  intro out
  obtain ⟨out', hx⟩ := h out
  exact ⟨out', bind_ok hx⟩

/-- `next_change` turns the option round. -/
lemma changeOf_item (f : Frame T) : AsyncClient.changeOf (some f.item) = f.item.map some := by
  cases f.item with
  | ok change => rfl
  | error e => rfl

/-! ## Framing -/

open AsyncClient (block)

/-- Calls and frames stay paired over a whole run, as long as every frame whose header is there can be read:
repeated calls of `next` return one item for each frame and then the end, and the result of a call of a
client depends on its own frame only. The async client does the same. -/
theorem framing_never_drifts (fs : List (Frame T)) (cut : Frame T) {tail : List UInt8}
    (hread : ∀ f ∈ fs, f.Readable) (hreadCut : headerLen T ≤ tail.length → cut.Readable)
    (hsmall : ∀ f ∈ cut :: fs, f.Small) (htail : tail <+: cut.bytes) (hne : tail ≠ cut.bytes)
    (out : List UInt8) :
    (∀ n, results (List.replicate n (Subscription.next T)) ⟨fs.flatMap Frame.bytes ++ tail, out⟩ =
      (fs.take n).map (fun f => .ok (some f.item)) ++ List.replicate (n - fs.length) (.ok none)) ∧
    (∀ calls : List Call,
      results (calls.map (Client.call T)) ⟨fs.flatMap Frame.bytes ++ tail, out⟩ =
        List.zipWith (fun c f => f.outcome c) calls fs ++
          List.replicate (calls.length - fs.length) (.error (.error (.io .unexpectedEof)))) ∧
    (∀ n, results (List.replicate n (block (AsyncClient.nextChange T)))
        ⟨fs.flatMap Frame.bytes ++ tail, out⟩ =
      (fs.take n).map (fun f => f.item.map some) ++ List.replicate (n - fs.length) (.ok none)) ∧
    (∀ calls : List Call,
      results (calls.map fun c => block (AsyncClient.call T c))
          ⟨fs.flatMap Frame.bytes ++ tail, out⟩ =
        List.zipWith (fun c f => f.outcome c) calls fs ++
          List.replicate (calls.length - fs.length) (.error (.error (.io .unexpectedEof)))) := by
  obtain ⟨hsmallCut, hsmall⟩ := List.forall_mem_cons.mp hsmall
  have hcut : Ended T tail := ended_cut hreadCut hsmallCut htail hne
  -- what one call does, at a frame, at the end and at what is left before the end
  have hnext : ∀ f ∈ fs, TakesFrame (Subscription.next T) f (.ok (some f.item)) :=
    fun f hf => next_takesFrame (hread f hf) (hsmall f hf)
  have hcalls : ∀ calls : List Call,
      results (calls.map (Client.call T)) ⟨fs.flatMap Frame.bytes ++ tail, out⟩ =
        List.zipWith (fun c f => f.outcome c) calls fs ++
          List.replicate (calls.length - fs.length) (.error (.error (.io .unexpectedEof))) :=
    fun calls => results_run (Client.call T) _ (fun c f hf => call_takesFrame (hread f hf) (hsmall f hf) c)
      (call_takesEnd ended_nil) (call_takesEnd hcut) calls out
  refine ⟨fun n => ?_, hcalls, fun n => ?_, fun calls => ?_⟩
  · exact results_replicate hnext (next_takesEnd ended_nil) (next_takesEnd hcut) n out
  · rw [AsyncClient.block_nextChange]
    refine results_replicate (fun f hf => ?_)
      ((next_takesEnd ended_nil).bind AsyncClient.changeOf)
      ((next_takesEnd hcut).bind AsyncClient.changeOf) n out
    rw [← changeOf_item]
    exact (hnext f hf).bind AsyncClient.changeOf
  · have hblock : (fun c => block (AsyncClient.call T c)) = Client.call T :=
      funext AsyncClient.block_call
    rw [hblock]
    exact hcalls calls

/-- A frame with a header whose padding is zero. -/
def Frame.of (T : Target) (ty : HmsgType) (payload : List UInt8)
    (h : payload.length ≤ T.usizeMax) : Frame T :=
  ⟨.zeroed T, ty.toI32, payload, h⟩

/-- A rejection with a payload, and then a byte of a header. -/
theorem framing_never_drifts_rejected :
    results (List.replicate 2 (Subscription.next .lp64le))
      ⟨[Frame.of .lp64le .none [1, 2] (by decide)].flatMap Frame.bytes ++ [10], []⟩ =
      [.ok (some (.error (.error .requestRejected))), .ok none] :=
  (framing_never_drifts [Frame.of .lp64le .none [1, 2] (by decide)]
    (Frame.of .lp64le .notification [] (by decide)) (fun _ _ => Or.inl (Or.inl rfl))
    (fun _ => Or.inl (Or.inl rfl)) (by decide) (by decide +kernel) (by decide +kernel) []).1 2

/-- On the other targets the payload of a frame is taken for the next frame. -/
theorem framing_drifts_ilp32be :
    results (List.replicate 2 (Subscription.next .ilp32be))
      ⟨[Frame.of .ilp32be .none (List.replicate 8 0) (by decide)].flatMap Frame.bytes, []⟩ ≠
      [.ok (some (.error (.error .requestRejected))), .ok none] := by
  decide +kernel

/-! ## Frames that are too large -/

/-- None of `n` calls comes after the one that meets the first frame that is too large. -/
def StopsAtLarge (fs : List (Frame T)) (n : Nat) : Prop :=
  ∀ i, ∀ h : i < fs.length, ¬ fs[i].Small → n ≤ i + 1

/-- What stops at a large frame does so after the first call. -/
lemma StopsAtLarge.tail {f : Frame T} {fs : List (Frame T)} {n : Nat}
    (h : StopsAtLarge (f :: fs) (n + 1)) : StopsAtLarge fs n :=
  fun i hi hlarge => Nat.le_of_succ_le_succ (h (i + 1) (Nat.succ_lt_succ hi) hlarge)

/-- A run that stops at the first frame that is too large: what a call returns is what it makes of a
frame, or one of the results in `bad`. -/
lemma results_stops {ι : Type} (prog : ι → Io α) (res : ι → Frame T → Except Fault α)
    (bad : Except Fault α → Prop) {fs : List (Frame T)}
    (hsmall : ∀ i, ∀ f ∈ fs, f.Small → TakesFrame (prog i) f (res i f))
    (hlarge : ∀ i, ∀ f ∈ fs, ¬ f.Small → ∀ rest out, ∃ r s',
      bad r ∧ prog i ⟨f.bytes ++ rest, out⟩ = (ofExcept r : Io α) s')
    {r : Except Fault α} (hend : ∀ i, TakesEnd (prog i) [] r) (hbad : bad r) (xs : List ι)
    (hstop : StopsAtLarge fs xs.length) (out : List UInt8) :
    List.Forall₂ (fun i r => bad r ∨ ∃ f ∈ fs, r = res i f) xs
      (results (xs.map prog) ⟨fs.flatMap Frame.bytes, out⟩) := by
  induction fs generalizing xs out with
  | nil =>
    rw [List.flatMap_nil, results_end prog hend hend xs out]
    clear hstop
    induction xs with
    | nil => exact .nil
    | cons x xs ih => exact .cons (Or.inl hbad) ih
  | cons f fs ih =>
    cases xs with
    | nil => exact .nil
    | cons x xs =>
      rw [List.flatMap_cons, List.map_cons]
      by_cases hf : f.Small
      · obtain ⟨out', hx⟩ := hsmall x f List.mem_cons_self hf (fs.flatMap Frame.bytes) out
        have hrest := ih (fun i g hg => hsmall i g (List.mem_cons_of_mem _ hg))
          (fun i g hg => hlarge i g (List.mem_cons_of_mem _ hg)) xs hstop.tail out'
        rw [results_cons hx]
        refine .cons (Or.inr ⟨f, List.mem_cons_self, rfl⟩) (hrest.imp fun i r => ?_)
        refine Or.imp_right ?_
        rintro ⟨g, hg, heq⟩
        exact ⟨g, List.mem_cons_of_mem _ hg, heq⟩
      · -- this is the last call
        obtain rfl : xs = [] := by
          have hle := hstop 0 (Nat.zero_lt_succ _) hf
          exact List.length_eq_zero_iff.mp (Nat.le_zero.mp (Nat.le_of_succ_le_succ hle))
        obtain ⟨r', s', hbad', hx⟩ := hlarge x f List.mem_cons_self hf (fs.flatMap Frame.bytes) out
        rw [results_cons hx]
        exact .cons (Or.inl hbad') .nil

/-- The results of one call that is repeated until the first frame that is too large. -/
lemma results_replicate_stops {x : Io α} (res : Frame T → Except Fault α)
    (bad : Except Fault α → Prop) {fs : List (Frame T)}
    (hsmall : ∀ f ∈ fs, f.Small → TakesFrame x f (res f))
    (hlarge : ∀ f ∈ fs, ¬ f.Small → ∀ rest out, ∃ r s',
      bad r ∧ x ⟨f.bytes ++ rest, out⟩ = (ofExcept r : Io α) s')
    {r : Except Fault α} (hend : TakesEnd x [] r) (hbad : bad r) {n : Nat}
    (hstop : StopsAtLarge fs n) (out : List UInt8) :
    ∀ r ∈ results (List.replicate n x) ⟨fs.flatMap Frame.bytes, out⟩,
      bad r ∨ ∃ f ∈ fs, r = res f := by
  have hall := results_stops (fun _ : Unit => x) (fun _ => res) bad (fun _ => hsmall)
    (fun _ => hlarge) (fun _ => hend) hbad (List.replicate n ())
    (by rwa [List.length_replicate]) out
  rw [List.map_replicate] at hall
  intro r hr
  obtain ⟨i, hi, hget⟩ := List.getElem_of_mem hr
  have hpair := (List.forall₂_iff_get.mp hall).2 i (hall.length_eq ▸ hi) hi
  rwa [List.get_eq_getElem, hget] at hpair

section
variable {f : Frame T} (hf : f.Readable) (hlarge : ¬ f.Small) (rest out : List UInt8)
include hf hlarge

/-- `next` reports a frame that is too large. -/
lemma next_large : ∃ s', Subscription.next T ⟨f.bytes ++ rest, out⟩ =
    .ok (some (.error (oversize f.payload.length))) s' :=
  ⟨_, next_of (r := .error _) (readMessage_large hf hlarge .notification rest out)⟩

/-- A call reports a frame that is too large. -/
lemma call_large (c : Call) : ∃ s', Client.call T c ⟨f.bytes ++ rest, out⟩ =
    .error (oversize f.payload.length) s' := by
  obtain ⟨out', hcall⟩ : ∃ out', Client.call T c ⟨f.bytes ++ rest, out⟩ =
      .error (oversize f.payload.length) ⟨f.payload ++ rest, out'⟩ :=
    call_of (r := .error _) (readMessage_large hf hlarge c.ty rest)
  exact ⟨_, hcall⟩

end

section
variable {fs : List (Frame T)} (hread : ∀ f ∈ fs, f.Readable) (out : List UInt8)
include hread

/-- A change that `next` returns is that of a frame. -/
lemma next_injects_nothing {n : Nat} (hstop : StopsAtLarge fs n)
    {r : Except Fault (Option (Except Fault NeighborChange))}
    (hr : r ∈ results (List.replicate n (Subscription.next T)) ⟨fs.flatMap Frame.bytes, out⟩)
    {change : NeighborChange} (heq : r = .ok (some (.ok change))) :
    ∃ f ∈ fs, f.item = .ok change := by
  have hall := results_replicate_stops (fun f => .ok (some f.item))
    (fun r => ∀ change, r ≠ .ok (some (.ok change)))
    (fun f hf hs => next_takesFrame (hread f hf) hs) (fun f hf hlarge rest out => ?_)
    (next_takesEnd ended_nil) (fun change => nofun) hstop out r hr
  · subst heq
    obtain hbad | ⟨f, hf, heq⟩ := hall
    · exact absurd rfl (hbad change)
    · exact ⟨f, hf, (Option.some.inj (Except.ok.inj heq)).symm⟩
  · obtain ⟨s', hnext⟩ := next_large (hread f hf) hlarge rest out
    exact ⟨.ok (some (.error (oversize f.payload.length))), s', fun change => nofun, hnext⟩

/-- A change that `next_change` returns is that of a frame. -/
lemma nextChange_injects_nothing {n : Nat} (hstop : StopsAtLarge fs n)
    {r : Except Fault (Option NeighborChange)}
    (hr : r ∈ results (List.replicate n (block (AsyncClient.nextChange T)))
      ⟨fs.flatMap Frame.bytes, out⟩)
    {change : NeighborChange} (heq : r = .ok (some change)) : ∃ f ∈ fs, f.item = .ok change := by
  rw [AsyncClient.block_nextChange] at hr
  have hall := results_replicate_stops (fun f => f.item.map some)
    (fun r => ∀ change, r ≠ .ok (some change))
    (fun f hf hs => ?_) (fun f hf hlarge rest out => ?_)
    ((next_takesEnd ended_nil).bind AsyncClient.changeOf) (fun change => nofun) hstop out r hr
  · subst heq
    obtain hbad | ⟨f, hf, heq⟩ := hall
    · exact absurd rfl (hbad change)
    · refine ⟨f, hf, ?_⟩
      cases hitem : f.item with
      | ok change' =>
        rw [hitem] at heq
        cases heq
        rfl
      | error e =>
        rw [hitem] at heq
        cases heq
  · rw [← changeOf_item]
    exact (next_takesFrame (hread f hf) hs).bind AsyncClient.changeOf
  · obtain ⟨s', hnext⟩ := next_large (hread f hf) hlarge rest out
    exact ⟨.error (oversize f.payload.length), s', fun change => nofun, bind_ok hnext⟩

/-- A value that a call returns is that of a frame. -/
lemma calls_inject_nothing (calls : List Call) (hstop : StopsAtLarge fs calls.length) :
    List.Forall₂ (fun c r => ∀ reply, r = .ok reply → ∃ f ∈ fs, f.outcome c = .ok reply) calls
      (results (calls.map (Client.call T)) ⟨fs.flatMap Frame.bytes, out⟩) := by
  have hall := results_stops (Client.call T) (fun c f => f.outcome c) (fun r => ∃ e, r = .error e)
    (fun c f hf hs => call_takesFrame (hread f hf) hs c)
    (fun c f hf hlarge rest out => ?_)
    (fun c => call_takesEnd ended_nil c) ⟨_, rfl⟩ calls hstop out
  · refine hall.imp fun c r hr reply heq => ?_
    subst heq
    obtain ⟨e, he⟩ | ⟨f, hf, heq⟩ := hr
    · cases he
    · exact ⟨f, hf, heq.symm⟩
  · obtain ⟨s', hcall⟩ := call_large (hread f hf) hlarge rest out c
    exact ⟨.error _, s', ⟨_, rfl⟩, hcall⟩

end

/-- A frame that is too large injects nothing into a run that stops there: every value that is returned
is decoded from the payload of a frame. -/
theorem oversized_injects_nothing (fs : List (Frame T)) (hread : ∀ f ∈ fs, f.Readable)
    (out : List UInt8) :
    (∀ n, StopsAtLarge fs n →
      ∀ r ∈ results (List.replicate n (Subscription.next T)) ⟨fs.flatMap Frame.bytes, out⟩,
        ∀ change, r = .ok (some (.ok change)) → ∃ f ∈ fs, f.item = .ok change) ∧
    (∀ calls : List Call, StopsAtLarge fs calls.length →
      List.Forall₂ (fun c r => ∀ reply, r = .ok reply → ∃ f ∈ fs, f.outcome c = .ok reply) calls
        (results (calls.map (Client.call T)) ⟨fs.flatMap Frame.bytes, out⟩)) ∧
    (∀ n, StopsAtLarge fs n →
      ∀ r ∈ results (List.replicate n (block (AsyncClient.nextChange T)))
          ⟨fs.flatMap Frame.bytes, out⟩,
        ∀ change, r = .ok (some change) → ∃ f ∈ fs, f.item = .ok change) ∧
    (∀ calls : List Call, StopsAtLarge fs calls.length →
      List.Forall₂ (fun c r => ∀ reply, r = .ok reply → ∃ f ∈ fs, f.outcome c = .ok reply) calls
        (results (calls.map fun c => block (AsyncClient.call T c))
          ⟨fs.flatMap Frame.bytes, out⟩)) := by
  have hblock : (fun c => block (AsyncClient.call T c)) = Client.call T :=
    funext AsyncClient.block_call
  refine ⟨fun n hstop r hr change heq => ?_, fun calls hstop => ?_,
    fun n hstop r hr change heq => ?_, fun calls hstop => ?_⟩
  · exact next_injects_nothing hread out hstop hr heq
  · exact calls_inject_nothing hread out calls hstop
  · exact nextChange_injects_nothing hread out hstop hr heq
  · rw [hblock]
    exact calls_inject_nothing hread out calls hstop

/-- A notification without a neighbor. -/
def plainChange (ifname : Option String) (state : Int32) : List UInt8 :=
  Wire.neighborChangeMessage (κ := Empty) (Wire.Naming.orig .lp64le) nofun
    ⟨.zeroed _ _, ifname, none, state, none⟩

/-- The notification of an added neighbor on `eth0`. -/
def addedChange : Frame .lp64le :=
  .of .lp64le .notification (plainChange (some "eth0") 1) (by decide +kernel)

/-- A rejection whose payload is too large and starts with a notification. -/
def injecting : Frame .lp64le :=
  .of .lp64le .none (addedChange.bytes ++ List.replicate hmsgMaxSize 0) (by
    rw [List.length_append, List.length_replicate]
    decide +kernel)

/-- The frame is too large. -/
lemma injecting_large : ¬ injecting.Small := by
  intro h
  have hlen : addedChange.bytes.length + hmsgMaxSize ≤ hmsgMaxSize := by
    have h' : (addedChange.bytes ++ List.replicate hmsgMaxSize 0).length ≤ hmsgMaxSize := h
    rwa [List.length_append, List.length_replicate] at h'
  have hpos : 0 < addedChange.bytes.length := by decide +kernel
  omega

/-- One call on the frame that is too large. -/
theorem oversized_injects_nothing_injecting :
    List.Forall₂
      (fun c r => ∀ reply, r = .ok reply → ∃ f ∈ [injecting], f.outcome c = .ok reply)
      [.interfaces] (results ([.interfaces].map (Client.call .lp64le))
        ⟨[injecting].flatMap Frame.bytes, []⟩) :=
  (oversized_injects_nothing [injecting] (fun _ _ => Or.inl (Or.inl rfl)) []).2.1 [.interfaces]
    fun i _ _ => Nat.succ_le_succ (Nat.zero_le i)

/-- The call after the error returns the notification in the payload of the rejection. -/
theorem oversized_injects_addedChange :
    results (List.replicate 2 (Subscription.next .lp64le)) ⟨[injecting].flatMap Frame.bytes, []⟩ =
        [.ok (some (.error (oversize injecting.payload.length))),
          .ok (some (.ok ⟨"eth0", none, .added, none⟩))] ∧
      ∀ f ∈ [injecting], ∀ change, f.item ≠ .ok change := by
  have hfirst : Subscription.next .lp64le ⟨injecting.bytes ++ [], []⟩ =
      (ofExcept (.ok (some (.error (oversize injecting.payload.length)))) : Io _)
        ⟨injecting.payload ++ [], []⟩ :=
    next_of (r := .error _)
      (readMessage_large (Or.inl (Or.inl rfl)) injecting_large .notification [] [])
  obtain ⟨out, hsecond⟩ := next_takesFrame (f := addedChange) (Or.inl (Or.inl rfl))
    (by decide +kernel) (List.replicate hmsgMaxSize 0 ++ []) []
  have hitem : addedChange.item = .ok ⟨"eth0", none, .added, none⟩ := by decide +kernel
  have hpayload : injecting.payload ++ [] =
      addedChange.bytes ++ (List.replicate hmsgMaxSize 0 ++ []) :=
    List.append_assoc _ _ _
  refine ⟨?_, ?_⟩
  · rw [List.flatMap_cons, List.flatMap_nil, List.replicate_succ, results_cons hfirst, hpayload,
      List.replicate_succ, results_cons hsecond, hitem]
    rfl
  · intro f hf change
    rw [List.mem_singleton.mp hf]
    nofun

end Rlldpctl
