import Rlldpctl.Sessions

/-!
# Any stream of bytes

What `read_message` does on a stream that need not be made of frames. The stream alone decides where the
next message ends (`nextSegment`): after a whole frame, after the header of one that is too large, or with
the stream. What was asked for decides only what is made of it.
-/

namespace Rlldpctl
open ByteReader CLayout NativeBytes

variable {T : Target}

/-- The next message of a stream. -/
inductive Segment where
  | frame (ty : Int32) (payload : List UInt8)
  | large (len : Nat)
  | ended
  deriving DecidableEq, Repr

/-- The next message and what is left of the stream. -/
def nextSegment (T : Target) (input : List UInt8) : Segment × List UInt8 :=
  if headerLen T ≤ input.length then
    let rest := input.drop (headerLen T)
    match decodeHeader T (input.take (headerLen T)) with
    | .ok (ty, len) =>
      if len > hmsgMaxSize then
        (.large len, rest)
      else if len ≤ rest.length then
        (.frame ty (rest.take len), rest.drop len)
      else
        (.ended, [])
    | .error _ => (.ended, [])
  else
    (.ended, [])

/-- The next `n` messages and what is left of the stream. -/
def segments (T : Target) : Nat → List UInt8 → List Segment × List UInt8
  | 0, input => ([], input)
  | n + 1, input =>
    let p := nextSegment T input
    let q := segments T n p.2
    (p.1 :: q.1, q.2)

/-- What is made of a message where one of type `expected` is asked for. -/
def Segment.verdict (expected : HmsgType) : Segment → Except Fault (List UInt8)
  | .frame ty payload =>
    if ty = HmsgType.none.toI32 then
      .error (.error .requestRejected)
    else if ¬ expected.matches ty then
      .error (.error (.unexpectedMessageType expected.toI32.toUInt32 ty.toUInt32))
    else
      .ok payload
  | .large len => .error (oversize len)
  | .ended => .error (.error (.io .unexpectedEof))

/-- The verdict on a frame by its type. -/
lemma Segment.verdict_frame (expected : HmsgType) (ty : Int32) (payload : List UInt8) :
    (Segment.frame ty payload).verdict expected =
      if ty = HmsgType.none.toI32 then
        .error (.error .requestRejected)
      else if ¬ expected.matches ty then
        .error (.error (.unexpectedMessageType expected.toI32.toUInt32 ty.toUInt32))
      else
        .ok payload := rfl

/-- A whole header is decoded. -/
lemma decodeHeader_ok {buf : List UInt8} (h : buf.length = headerLen T) :
    ∃ ty len, decodeHeader T buf = .ok (ty, len) := by
  have h4 : 4 ≤ buf.length := by
    have hge := headerLen_ge T
    omega
  have hend : alignUp 4 T.ptrSize + T.ptrSize ≤ buf.length := h.ge
  unfold decodeHeader
  dsimp only
  rw [index_eq (Nat.zero_le 4) h4, index_eq (Nat.le_add_right _ _) hend]
  exact ⟨_, _, rfl⟩

/-- What is shorter than a header is the end. -/
lemma nextSegment_short {input : List UInt8} (h : input.length < headerLen T) :
    nextSegment T input = (.ended, []) :=
  if_neg (Nat.not_le.mpr h)

/-- The message after a header. -/
lemma nextSegment_header {input : List UInt8} (h : headerLen T ≤ input.length) {ty : Int32}
    {len : Nat} (hheader : decodeHeader T (input.take (headerLen T)) = .ok (ty, len)) :
    nextSegment T input =
      if len > hmsgMaxSize then
        (.large len, input.drop (headerLen T))
      else if len ≤ (input.drop (headerLen T)).length then
        (.frame ty ((input.drop (headerLen T)).take len), (input.drop (headerLen T)).drop len)
      else
        (.ended, []) := by
  rw [nextSegment, if_pos h]
  simp only [hheader]

/-- `read_message` takes the next message, whatever is expected. -/
lemma readMessage_segment (expected : HmsgType) (input out : List UInt8) :
    readMessage T expected ⟨input, out⟩ =
      (ofExcept ((nextSegment T input).1.verdict expected) : Io _) ⟨(nextSegment T input).2, out⟩ := by
  by_cases hlen : headerLen T ≤ input.length
  · obtain ⟨ty, len, hheader⟩ := decodeHeader_ok (T := T) (List.length_take_of_le hlen)
    have hread : readExact (headerLen T) ⟨input, out⟩ =
        .ok (input.take (headerLen T)) ⟨input.drop (headerLen T), out⟩ := if_pos hlen
    have hbody : readMessage T expected ⟨input, out⟩ =
        readBody expected ty len ⟨input.drop (headerLen T), out⟩ := by
      unfold readMessage
      rw [bind_ok hread, hheader]
      rfl
    -- the header has been taken, and both go on with the length it announces
    rw [hbody, nextSegment_header hlen hheader, readBody]
    generalize input.drop (headerLen T) = rest
    by_cases hlarge : len > hmsgMaxSize
    · rw [if_pos hlarge, if_pos hlarge]
      rfl
    · rw [if_neg hlarge, if_neg hlarge]
      by_cases hle : len ≤ rest.length
      · have hpayload : readExact len ⟨rest, out⟩ = .ok (rest.take len) ⟨rest.drop len, out⟩ :=
          if_pos hle
        rw [if_pos hle, bind_ok hpayload, Segment.verdict_frame]
        split
        · rfl
        · split
          · rfl
          · rfl
      · rw [if_neg hle]
        exact bind_error (readExact_eof (Nat.not_le.mp hle) out)
  · rw [nextSegment_short (Nat.not_le.mp hlen)]
    exact bind_error (readExact_eof (Nat.not_le.mp hlen) out)

/-- A frame that can be read is the next message. -/
lemma nextSegment_frame {f : Frame T} (hf : f.Readable) (hsmall : f.Small) (rest : List UInt8) :
    nextSegment T (f.bytes ++ rest) = (.frame f.ty f.payload, rest) := by
  have hheader : headerLen T = f.header.bytes.length := (Header.length_bytes _).symm
  have hle : headerLen T ≤ (f.bytes ++ rest).length := by
    rw [Frame.bytes, List.length_append, List.length_append, hheader, Nat.add_assoc]
    exact Nat.le_add_right _ _
  have htake : (f.bytes ++ rest).take (headerLen T) = f.header.bytes := by
    rw [Frame.bytes, List.append_assoc, hheader, List.take_left]
  have hdrop : (f.bytes ++ rest).drop (headerLen T) = f.payload ++ rest := by
    rw [Frame.bytes, List.append_assoc, hheader, List.drop_left]
  have hdecode : decodeHeader T ((f.bytes ++ rest).take (headerLen T)) =
      .ok (f.ty, f.payload.length) := by
    rw [htake, Frame.header, decodeHeader_write, f.length_read hf]
  rw [nextSegment_header hle hdecode, hdrop, if_neg (Nat.not_lt.mpr hsmall), if_pos ?_,
    List.take_left, List.drop_left]
  rw [List.length_append]
  exact Nat.le_add_right _ _

/-- What is left of the stream was at its end. -/
lemma nextSegment_suffix (input : List UInt8) : (nextSegment T input).2 <:+ input := by
  by_cases hlen : headerLen T ≤ input.length
  · obtain ⟨ty, len, hheader⟩ := decodeHeader_ok (T := T) (List.length_take_of_le hlen)
    have hrest := List.drop_suffix (headerLen T) input
    rw [nextSegment_header hlen hheader]
    split
    · exact hrest
    · split
      · exact (List.drop_suffix len _).trans hrest
      · exact List.nil_suffix
  · rw [nextSegment_short (Nat.not_le.mp hlen)]
    exact List.nil_suffix

end Rlldpctl
