import Mathlib.Data.List.TakeWhile
import Rlldpctl.Wire.Encode
import Rlldpctl.Wire.RoundTrip
import Rlldpctl.Wire.Rules

/-!
# What a daemon makes of a request

The encoders against the serializer: they write what the serializer writes for the tree with the two
strings, on every target. Read by the crate's own cursor the strings come back on the targets that read
words back. A daemon reads them as C strings, which end at the first NUL.
-/

namespace Rlldpctl.Wire
open ByteReader CLayout Nesting NativeBytes Utf8

variable {T : Target} {κ : Type}

/-! ## The serializer -/

/-- A `lldpd_port_set` that names a port and gives a description. -/
def portSetLinks (nm : Naming T) (ifname description : String) : List (Link T κ .portSet) :=
  [.ptr .ifname (cstring nm (some ifname)), .ptr .localDescr (cstring nm (some description)),
    .int .vlanTxEnabled (-1 : Int32).toUInt32.toNat]

/-- The payload of a `SET_PORT` request. -/
def portSetMessage (T : Target) (ifname description : String) : List UInt8 :=
  message (κ := Empty) (struct (.zeroed T .portSet) (portSetLinks (Naming.orig T) ifname description))

/-- The payload of a `GET_INTERFACE` request. -/
def nameMessage (T : Target) (name : String) : List UInt8 :=
  message (κ := Empty) (leafChunk T (utf8Bytes name ++ [0]))

/-- The structure that the encoder builds is the one the serializer writes. -/
lemma portSetPod_eq (ifname description : String) (st : Marshaller κ) (hst : st.count = 1) :
    (run (fields (.zeroed T .portSet) (portSetLinks (Naming.orig T) ifname description)) st).1.1 =
      portSetPod T := by
  obtain ⟨count, refs⟩ := st
  change count = 1 at hst
  subst hst
  refine Pod.ext (congrArg (fun a => ((Raw.zeroed T .portSet).fill a).bytes) ?_)
  funext f
  cases f <;> rfl

/-- Multiples of the word size are counted from the root header as well. -/
lemma nested_header (n : Nat) (bs : List (List UInt8)) :
    nested T.ptrSize (2 * T.ptrSize + n) bs = nested T.ptrSize n bs :=
  nested_congr T.ptrSize_pos (by rw [Nat.mul_comm, Nat.mul_add_mod]) bs

/-- A chunk in which nothing is nested is a front. -/
lemma chunk_leaf (orig : Nat) (content : List UInt8) :
    chunk T orig content [] = front T orig (2 * T.ptrSize + content.length) content :=
  List.append_nil _

/-- The request for an interface is its serialization. -/
lemma encodeInterfaceNameRequest_marshal (name : String) :
    encodeInterfaceNameRequest T name = nameMessage T name := by
  rw [encodeInterfaceNameRequest_eq, ← chunk_leaf]
  rfl

/-- A string chunk that is pushed is one that is nested. -/
lemma pushStringChunk_nested (buf : List UInt8) (orig : Nat) (content : List UInt8) :
    pushStringChunk T buf orig content =
      buf ++ nested T.ptrSize buf.length [chunk T orig content []] := by
  rw [pushStringChunk_eq, nested_cons, nested_nil, List.append_nil, chunk_leaf]

/-- Two strings that are pushed are two nested chunks. -/
lemma pushStringChunks (buf : List UInt8) (orig orig' : Nat) (content content' : List UInt8) :
    pushStringChunk T (pushStringChunk T buf orig content) orig' content' =
      buf ++ nested T.ptrSize buf.length [chunk T orig content [], chunk T orig' content' []] := by
  rw [pushStringChunk_nested, pushStringChunk_nested, List.append_assoc, List.length_append,
    ← nested_append]
  rfl

/-- A chunk, with the multiples counted from its content. -/
lemma chunk_content (orig : Nat) (content : List UInt8) (inner : List (List UInt8)) :
    chunk T orig content inner =
      front T orig (2 * T.ptrSize + (content ++ nested T.ptrSize content.length inner).length)
        (content ++ nested T.ptrSize content.length inner) := by
  unfold chunk
  dsimp only
  rw [nested_header, List.length_append, ← Nat.add_assoc, front, front, List.append_assoc,
    List.append_assoc]

/-- The content of the string chunk of `s`. -/
def stringContent (s : String) : List UInt8 := utf8Bytes s ++ [0]

/-- The chunks of the two strings. -/
def portSetStrings (T : Target) (ifname description : String) : List (List UInt8) :=
  [chunk T 2 (stringContent ifname) [], chunk T 3 (stringContent description) []]

/-- The request for a description is one chunk with two strings nested in it. -/
lemma encodeSetPortDescriptionRequest_eq (ifname description : String) :
    encodeSetPortDescriptionRequest T ifname description =
      chunk T 1 (portSetPod T).bytes (portSetStrings T ifname description) := by
  rw [chunk_content, portSetStrings, ← pushStringChunks]
  rfl

/-- The request for a description is its serialization. -/
lemma encodeSetPortDescriptionRequest_marshal (ifname description : String) :
    encodeSetPortDescriptionRequest T ifname description = portSetMessage T ifname description := by
  rw [encodeSetPortDescriptionRequest_eq]
  have hpod := portSetPod_eq (T := T) (κ := Empty) ifname description ⟨1, []⟩ rfl
  have hchunks : (run (fields (.zeroed T .portSet) (portSetLinks (κ := Empty) (Naming.orig T) ifname
      description)) ⟨1, []⟩).1.2 = portSetStrings T ifname description := rfl
  have hmessage : portSetMessage T ifname description =
      chunk T 1 (run (fields (.zeroed T .portSet) (portSetLinks (κ := Empty) (Naming.orig T) ifname
        description)) ⟨1, []⟩).1.1.bytes (run (fields (.zeroed T .portSet)
        (portSetLinks (κ := Empty) (Naming.orig T) ifname description)) ⟨1, []⟩).1.2 := rfl
  rw [hmessage, hpod, hchunks]

/-! ## Read by the crate's cursor -/

/-- `read_chunk_pod::<RawPortSet>`, then `read_opt_cstring` on its two strings. -/
def readPortSet (T : Target) : Decode (Raw T .portSet × Option String × Option String) := do
  let raw ← readChunkPod T .portSet
  let ifname ← readOptCstring T (raw.usize .ifname)
  let description ← readOptCstring T (raw.usize .localDescr)
  pure (raw, ifname, description)

/-- The payload decodes to `v` and no byte is left. -/
def Exhausts {α : Type} (d : Decode α) (p : List UInt8) (v : α) : Prop :=
  DecodesTo d p v p.length

/-- What reads a message reads it to the last byte. -/
lemma exhausts_message {α : Type} {d : Decode α} {p : List UInt8} {v : α} {n' : Nat}
    (h : Reading T 0 d [p] v n') (hlen : p.length ≤ T.isizeMax) : Exhausts d p v := by
  obtain ⟨self, hok, -, hpos⟩ := decode_message h hlen
  exact ⟨self, hok, hpos⟩

/-- What fails reads nothing to the last byte. -/
lemma not_exhausts_of_error {α : Type} {d : Decode α} {p : List UInt8} {e : Fault}
    (h : decode d p = .error e) (v : α) : ¬ Exhausts d p v := by
  intro hv
  have hcontra := hv.decode_eq.symm.trans h
  cases hcontra

/-- The request for a description is read back when words are. -/
lemma readPortSet_portSetMessage {ifname description : String}
    (hlen : (portSetMessage T ifname description).length ≤ T.isizeMax) :
    Exhausts (readPortSet T) (portSetMessage T ifname description)
      (portSetPod T, some ifname, some description) ↔ ReadsWords T := by
  by_cases hT : ReadsWords T
  · refine iff_of_true ?_ hT
    have hnodup : ((portSetLinks (κ := Empty) (Naming.orig T) ifname description).map
        Link.field).Nodup :=
      (by decide : [PortSetField.ifname, .localDescr, .vlanTxEnabled].Nodup)
    have hfollows : ∀ raw, Follows (κ := Empty) (portSetLinks (Naming.orig T) ifname description) raw
        (readOptCstring T (raw.usize .ifname) >>= fun i =>
          readOptCstring T (raw.usize .localDescr) >>= fun d => pure (raw, i, d))
        (raw, some ifname, some description) := by
      intro raw
      refine .ptr rfl (reads_cstring hT _ (some ifname)) ?_
      refine .ptr rfl (reads_cstring hT _ (some description)) ?_
      exact .int fun _ => .nil _
    have hw := written_fill hnodup (.zeroed T .portSet) ⟨1, []⟩
    obtain ⟨-, hread⟩ := hfollows _ ⟨1, []⟩ hw
    rw [portSetPod_eq ifname description ⟨1, []⟩ rfl] at hread
    have hroot := reading_struct hT (.zeroed T .portSet)
      (portSetLinks (κ := Empty) (Naming.orig T) ifname description) ⟨0, []⟩
      (f := fun raw => readOptCstring T (raw.usize .ifname) >>= fun i =>
        readOptCstring T (raw.usize .localDescr) >>= fun d => pure (raw, i, d))
      (by rw [portSetPod_eq ifname description ⟨1, []⟩ rfl]; exact hread)
    exact exhausts_message hroot hlen
  · refine iff_of_false ?_ hT
    obtain ⟨msg, herr⟩ := decode_message_rejects hT (.zeroed T .portSet)
      (portSetLinks (κ := Empty) (Naming.orig T) ifname description) hlen
      (fun raw => readOptCstring T (raw.usize .ifname) >>= fun i =>
        readOptCstring T (raw.usize .localDescr) >>= fun d => pure (raw, i, d))
    exact not_exhausts_of_error herr _

/-- On a target that does not read words back, no string chunk is accepted. -/
lemma leaf_rejects_front (hT : ¬ ReadsWords T) {self : Cursor} {orig size : Nat}
    {content : List UInt8} (h : InFront (T := T) self (front T orig size content)) :
    Rejects self (leaf T self) := by
  refine leaf_rejects h.pos h.len fun hfits => ?_
  have hd := front_declared h
  rw [if_neg hT] at hd
  have hsize := hfits.2.1
  have hpos := T.ptrSize_pos
  omega

/-- Any pointer that is not null is followed. -/
lemma readOptCstring_of_ne {v w : Nat} (hv : v ≠ 0) (hw : w ≠ 0) :
    readOptCstring T v = readOptCstring T w := by
  rw [readOptCstring, if_neg hv, readOptCstring, if_neg hw]

/-- The request for an interface is read back when words are. -/
lemma readOptCstring_nameMessage {name : String} {ptrField : Nat} (hptr : ptrField ≠ 0)
    (hlen : (nameMessage T name).length ≤ T.isizeMax) :
    Exhausts (readOptCstring T ptrField) (nameMessage T name) (some name) ↔ ReadsWords T := by
  by_cases hT : ReadsWords T
  · refine iff_of_true ?_ hT
    obtain ⟨-, hread⟩ := reads_cstring (κ := Empty) hT (Naming.orig T) (some name) ⟨0, []⟩
    have hone : (1 : Nat) % 256 ^ T.ptrSize ≠ 0 := by
      have hlt : 1 < 256 ^ T.ptrSize := Nat.one_lt_pow T.ptrSize_pos.ne' (by decide)
      rw [Nat.mod_eq_of_lt hlt]
      exact Nat.one_ne_zero
    have hread' : Reading T 0 (readOptCstring T (1 % 256 ^ T.ptrSize)) [nameMessage T name]
        (some name) _ := hread
    rw [readOptCstring_of_ne hone hptr] at hread'
    exact exhausts_message hread' hlen
  · refine iff_of_false (fun hv => ?_) hT
    rw [← encodeInterfaceNameRequest_marshal, encodeInterfaceNameRequest_eq] at hlen hv
    have hrej := leaf_rejects_front hT (inFront_new hlen)
    obtain ⟨self, hok, -⟩ := hv
    rw [readOptCstring, if_neg hptr] at hok
    obtain ⟨p, s, hleaf, -⟩ := bind_eq_ok hok
    rw [hleaf] at hrej
    exact hrej

/-- The encoders write what the serializer writes, on every target. The cursor reads the strings back, to
the last byte, exactly on the targets that read words back. -/
theorem encoders_marshal (T : Target) (ifname description : String) :
    encodeSetPortDescriptionRequest T ifname description = portSetMessage T ifname description ∧
    encodeInterfaceNameRequest T ifname = nameMessage T ifname ∧
    ((encodeSetPortDescriptionRequest T ifname description).length ≤ T.isizeMax →
      (Exhausts (readPortSet T) (encodeSetPortDescriptionRequest T ifname description)
        (portSetPod T, some ifname, some description) ↔ ReadsWords T)) ∧
    ((encodeInterfaceNameRequest T ifname).length ≤ T.isizeMax →
      ∀ ptrField, ptrField ≠ 0 →
        (Exhausts (readOptCstring T ptrField) (encodeInterfaceNameRequest T ifname) (some ifname) ↔
          ReadsWords T)) := by
  have hport := encodeSetPortDescriptionRequest_marshal (T := T) ifname description
  have hname := encodeInterfaceNameRequest_marshal (T := T) ifname
  refine ⟨hport, hname, fun hlen => ?_, fun hlen ptrField hptr => ?_⟩
  · rw [hport] at hlen ⊢
    exact readPortSet_portSetMessage hlen
  · rw [hname] at hlen ⊢
    exact readOptCstring_nameMessage hptr hlen

/-- The requests on a 64-bit little-endian target. -/
theorem encoders_marshal_lp64le :
    (Exhausts (readPortSet .lp64le) (encodeSetPortDescriptionRequest .lp64le "eth0" "uplink")
        (portSetPod .lp64le, some "eth0", some "uplink") ↔ ReadsWords .lp64le) ∧
      (Exhausts (readOptCstring .lp64le 1) (encodeInterfaceNameRequest .lp64le "eth0") (some "eth0") ↔
        ReadsWords .lp64le) := by
  obtain ⟨-, -, hport, hname⟩ := encoders_marshal .lp64le "eth0" "uplink"
  exact ⟨hport (by decide +kernel), hname (by decide +kernel) 1 (by decide)⟩

/-- The requests are not read back on the 32-bit big-endian target. -/
theorem encoders_ilp32be :
    ¬ Exhausts (readPortSet .ilp32be) (encodeSetPortDescriptionRequest .ilp32be "eth0" "uplink")
        (portSetPod .ilp32be, some "eth0", some "uplink") ∧
      ¬ Exhausts (readOptCstring .ilp32be 1) (encodeInterfaceNameRequest .ilp32be "eth0")
        (some "eth0") := by
  have hT : ¬ ReadsWords .ilp32be := by decide
  rw [encodeSetPortDescriptionRequest_marshal, encodeInterfaceNameRequest_marshal]
  refine ⟨fun h => hT ?_, fun h => hT ?_⟩
  · exact (readPortSet_portSetMessage (by decide +kernel)).mp h
  · exact (readOptCstring_nameMessage (by decide) (by decide +kernel)).mp h

/-! ## Read as C strings -/

/-- The word at `p`, as a native program reads it. -/
def nativeWord (T : Target) (bytes : List UInt8) (p : Nat) : Nat :=
  T.endian.nat (slice bytes p T.ptrSize)

/-- The size that the chunk at or after `p` declares. -/
def nativeSize (T : Target) (bytes : List UInt8) (p : Nat) : Nat :=
  nativeWord T bytes (roundUp p T.ptrSize + T.ptrSize)

/-- The content of the string chunk at or after `p`. -/
def nativeContent (T : Target) (bytes : List UInt8) (p : Nat) : List UInt8 :=
  slice bytes (roundUp p T.ptrSize + 2 * T.ptrSize) (nativeSize T bytes p - 2 * T.ptrSize)

/-- Where the string chunk at or after `p` ends. -/
def nativeEnd (T : Target) (bytes : List UInt8) (p : Nat) : Nat :=
  roundUp p T.ptrSize + nativeSize T bytes p

/-- The interface a `GET_INTERFACE` request names. -/
def nameChunk (T : Target) (bytes : List UInt8) : List UInt8 :=
  nativeContent T bytes 0

/-- Where the chunks of a `SET_PORT` request start. -/
def portSetEnd (T : Target) : Nat :=
  2 * T.ptrSize + sizeOf T .portSet

/-- The port a `SET_PORT` request names. -/
def ifnameChunk (T : Target) (bytes : List UInt8) : List UInt8 :=
  nativeContent T bytes (portSetEnd T)

/-- The description a `SET_PORT` request gives. -/
def descriptionChunk (T : Target) (bytes : List UInt8) : List UInt8 :=
  nativeContent T bytes (nativeEnd T bytes (portSetEnd T))

/-- What a C program takes for the string in a chunk. -/
def cString (content : List UInt8) : List UInt8 :=
  content.takeWhile (· ≠ 0)

/-- The chunk is the string, and the first NUL is its last byte. -/
def Terminated (content : List UInt8) (s : String) : Prop :=
  cString content = utf8Bytes s ∧ content = cString content ++ [0]

/-- The string has no NUL inside. -/
def NulFree (s : String) : Prop := 0 ∉ utf8Bytes s

/-- A string is searched for NULs. -/
instance (s : String) : Decidable (NulFree s) :=
  inferInstanceAs (Decidable (¬ _))

/-- A string without NULs is read whole by a C program. -/
lemma cString_stringContent {s : String} (h : NulFree s) : cString (stringContent s) = utf8Bytes s := by
  have hall : ∀ b ∈ utf8Bytes s, decide (b ≠ 0) = true := by
    intro b hb
    exact decide_eq_true fun h0 => h (h0 ▸ hb)
  rw [cString, stringContent, List.takeWhile_append_of_pos hall]
  exact List.append_nil _

/-- The content is terminated when the string has no NUL. -/
lemma terminated_stringContent (s : String) : Terminated (stringContent s) s ↔ NulFree s := by
  refine ⟨fun h hmem => ?_, fun h => ⟨cString_stringContent h, ?_⟩⟩
  · rw [← h.1] at hmem
    have hne := List.mem_takeWhile_imp (p := fun b : UInt8 => decide (b ≠ 0)) hmem
    exact absurd rfl (of_decide_eq_true hne)
  · rw [cString_stringContent h]
    rfl

section
variable {as content rest : List UInt8} {orig : Nat}

/-- A string chunk is found where it is. -/
lemma native_chunk
    (hlen : (as ++ padding T.ptrSize as.length ++
      front T orig (2 * T.ptrSize + content.length) content ++ rest).length ≤ T.isizeMax) :
    let bytes := as ++ padding T.ptrSize as.length ++
      front T orig (2 * T.ptrSize + content.length) content ++ rest
    nativeContent T bytes as.length = content ∧
      nativeEnd T bytes as.length = roundUp as.length T.ptrSize + (2 * T.ptrSize + content.length) := by
  have hround : roundUp as.length T.ptrSize = (as ++ padding T.ptrSize as.length).length := by
    have h := le_roundUp as.length T.ptrSize
    rw [List.length_append, length_padding]
    omega
  have hfit : 2 * T.ptrSize + content.length ≤ T.isizeMax := by
    rw [List.length_append, List.length_append, length_front] at hlen
    omega
  have hsize : nativeSize T (as ++ padding T.ptrSize as.length ++
      front T orig (2 * T.ptrSize + content.length) content ++ rest) as.length =
      2 * T.ptrSize + content.length := by
    have hs := slice_append (as ++ padding T.ptrSize as.length ++ T.word orig)
      (T.word (2 * T.ptrSize + content.length)) (content ++ rest)
    rw [List.length_append, Target.length_word, Target.length_word, ← hround] at hs
    rw [nativeSize, nativeWord, front]
    simp only [List.append_assoc] at hs ⊢
    rw [hs, Target.word, Endian.nat_bytes, T.mod_word_of_le hfit]
  refine ⟨?_, ?_⟩
  · have hs := slice_append (as ++ padding T.ptrSize as.length ++ T.word orig ++
      T.word (2 * T.ptrSize + content.length)) content rest
    rw [List.length_append, List.length_append, Target.length_word, Target.length_word, ← hround,
      Nat.add_assoc, ← Nat.two_mul] at hs
    rw [nativeContent, hsize, Nat.add_sub_cancel_left, front]
    simp only [List.append_assoc] at hs ⊢
    exact hs
  · rw [nativeEnd, hsize]

end

/-- The chunk of the request for an interface holds the name. -/
lemma nameChunk_encode {name : String}
    (hlen : (encodeInterfaceNameRequest T name).length ≤ T.isizeMax) :
    nameChunk T (encodeInterfaceNameRequest T name) = stringContent name := by
  have hbytes : encodeInterfaceNameRequest T name = [] ++ padding T.ptrSize ([] : List UInt8).length ++
      front T 1 (2 * T.ptrSize + (stringContent name).length) (stringContent name) ++ [] := by
    rw [List.length_nil, padding_zero, List.append_nil]
    rfl
  rw [hbytes] at hlen ⊢
  exact (native_chunk hlen).1

/-- The two chunks of a `SET_PORT` request. -/
lemma portSetChunks_encode {ifname description : String}
    (hlen : (encodeSetPortDescriptionRequest T ifname description).length ≤ T.isizeMax) :
    ifnameChunk T (encodeSetPortDescriptionRequest T ifname description) = stringContent ifname ∧
      descriptionChunk T (encodeSetPortDescriptionRequest T ifname description) =
        stringContent description := by
  obtain ⟨size, hbytes⟩ : ∃ size, encodeSetPortDescriptionRequest T ifname description =
      front T 1 size (portSetPod T).bytes ++ nested T.ptrSize
        (front T 1 size (portSetPod T).bytes).length (portSetStrings T ifname description) := by
    have h := chunk_eq (T := T) 1 (portSetPod T).bytes (portSetStrings T ifname description)
    rw [← encodeSetPortDescriptionRequest_eq, chunkFront] at h
    exact ⟨_, h⟩
  generalize hroot : front T 1 size (portSetPod T).bytes = root at hbytes
  have hend : root.length = portSetEnd T := by
    rw [← hroot, length_front, Pod.length_eq]
    rfl
  let as := root ++ padding T.ptrSize root.length ++ chunk T 2 (stringContent ifname) []
  have hround : as.length = roundUp root.length T.ptrSize +
      (2 * T.ptrSize + (stringContent ifname).length) := by
    have h := le_roundUp root.length T.ptrSize
    show (root ++ padding T.ptrSize root.length ++ chunk T 2 (stringContent ifname) []).length = _
    rw [chunk_leaf, List.length_append, List.length_append, length_padding, length_front]
    omega
  have hfirst : encodeSetPortDescriptionRequest T ifname description =
      root ++ padding T.ptrSize root.length ++
        front T 2 (2 * T.ptrSize + (stringContent ifname).length) (stringContent ifname) ++
        nested T.ptrSize as.length [chunk T 3 (stringContent description) []] := by
    rw [hbytes, portSetStrings, nested_cons, chunk_leaf, length_front, ← hround]
    simp only [List.append_assoc]
  have hsecond : encodeSetPortDescriptionRequest T ifname description =
      as ++ padding T.ptrSize as.length ++
        front T 3 (2 * T.ptrSize + (stringContent description).length)
          (stringContent description) ++ [] := by
    rw [hfirst, nested_cons, nested_nil, chunk_leaf, ← chunk_leaf 2]
    simp only [List.append_assoc, List.append_nil, as]
  have hlen' := hlen
  rw [hfirst] at hlen
  obtain ⟨hname, hnext⟩ := native_chunk hlen
  rw [← hfirst, hend] at hname hnext
  rw [hsecond] at hlen'
  obtain ⟨hdescr, -⟩ := native_chunk hlen'
  rw [← hsecond, hround, hend, ← hnext] at hdescr
  exact ⟨hname, hdescr⟩

/-- A daemon finds the strings of the caller in a request exactly when they have no NUL inside. Requests
for different ports then name different ports. -/
theorem strings_terminated (T : Target) :
    (∀ ifname, (encodeInterfaceNameRequest T ifname).length ≤ T.isizeMax →
      (Terminated (nameChunk T (encodeInterfaceNameRequest T ifname)) ifname ↔ NulFree ifname)) ∧
    (∀ ifname description, (encodeSetPortDescriptionRequest T ifname description).length ≤ T.isizeMax →
      (Terminated (ifnameChunk T (encodeSetPortDescriptionRequest T ifname description)) ifname ∧
        Terminated (descriptionChunk T (encodeSetPortDescriptionRequest T ifname description))
          description ↔ NulFree ifname ∧ NulFree description)) ∧
    (∀ a b, NulFree a → NulFree b → (encodeInterfaceNameRequest T a).length ≤ T.isizeMax →
      (encodeInterfaceNameRequest T b).length ≤ T.isizeMax →
      cString (nameChunk T (encodeInterfaceNameRequest T a)) =
        cString (nameChunk T (encodeInterfaceNameRequest T b)) → a = b) ∧
    (∀ a b d e, NulFree a → NulFree b →
      (encodeSetPortDescriptionRequest T a d).length ≤ T.isizeMax →
      (encodeSetPortDescriptionRequest T b e).length ≤ T.isizeMax →
      cString (ifnameChunk T (encodeSetPortDescriptionRequest T a d)) =
        cString (ifnameChunk T (encodeSetPortDescriptionRequest T b e)) → a = b) := by
  have hinj : ∀ a b, NulFree a → NulFree b →
      cString (stringContent a) = cString (stringContent b) → a = b := by
    intro a b ha hb heq
    rw [cString_stringContent ha, cString_stringContent hb] at heq
    rw [← fromUtf8Lossy_utf8Bytes a, heq, fromUtf8Lossy_utf8Bytes]
  refine ⟨fun ifname hlen => ?_, fun ifname description hlen => ?_,
    fun a b ha hb hlen hlen' heq => ?_, fun a b d e ha hb hlen hlen' heq => ?_⟩
  · rw [nameChunk_encode hlen]
    exact terminated_stringContent ifname
  · obtain ⟨hname, hdescr⟩ := portSetChunks_encode hlen
    rw [hname, hdescr]
    exact and_congr (terminated_stringContent ifname) (terminated_stringContent description)
  · rw [nameChunk_encode hlen, nameChunk_encode hlen'] at heq
    exact hinj a b ha hb heq
  · rw [(portSetChunks_encode hlen).1, (portSetChunks_encode hlen').1] at heq
    exact hinj a b ha hb heq

/-- The strings on a 64-bit little-endian target. -/
theorem strings_terminated_lp64le :
    (Terminated (nameChunk .lp64le (encodeInterfaceNameRequest .lp64le "eth0")) "eth0" ↔
        NulFree "eth0") ∧
      (Terminated (ifnameChunk .lp64le (encodeSetPortDescriptionRequest .lp64le "eth0" "up")) "eth0" ∧
        Terminated (descriptionChunk .lp64le (encodeSetPortDescriptionRequest .lp64le "eth0" "up"))
          "up" ↔ NulFree "eth0" ∧ NulFree "up") := by
  obtain ⟨hname, hport, -⟩ := strings_terminated .lp64le
  exact ⟨hname "eth0" (by decide +kernel), hport "eth0" "up" (by decide +kernel)⟩

/-- A request for a port whose name goes on after a NUL is a request for another port. -/
theorem strings_cut :
    ¬ Terminated (nameChunk .lp64le (encodeInterfaceNameRequest .lp64le "eth0\x00x")) "eth0\x00x" ∧
      cString (nameChunk .lp64le (encodeInterfaceNameRequest .lp64le "eth0\x00x")) =
        cString (nameChunk .lp64le (encodeInterfaceNameRequest .lp64le "eth0")) ∧
      cString (ifnameChunk .lp64le (encodeSetPortDescriptionRequest .lp64le "eth0\x00x" "up")) =
        cString (ifnameChunk .lp64le (encodeSetPortDescriptionRequest .lp64le "eth0" "up")) := by
  refine ⟨fun h => ?_, by decide +kernel, by decide +kernel⟩
  exact absurd h.1 (by decide +kernel)

end Rlldpctl.Wire
