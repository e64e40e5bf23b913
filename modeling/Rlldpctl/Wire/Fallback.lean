import Rlldpctl.Wire.Calls
import Rlldpctl.Wire.Grammar
import Rlldpctl.Wire.RoundTrip

/-!
# Two layouts of one reply

What the first attempt of `decode_hardware` makes of a message in the layout with `h_flags_previous`. It
takes the first bytes of the root structure for all of it, so it reads every word behind `h_ifname` from
the place before, and the headers of the chunks half a header late. The second chunk's number then stands
where the first size is expected, so nothing can be read there; but a marker's size is not looked at, and
behind one the contents of the message are taken for headers.
-/

namespace Rlldpctl.Wire
open ByteReader CLayout Nesting NativeBytes Utf8

variable {T : Target} {κ : Type}

/-! ## Numbers of chunks -/

/-- The chunk `n` is the first of these, or there are none. -/
def StartsAt (T : Target) (n : Nat) (chunks : List (List UInt8)) : Prop :=
  ∀ c ∈ chunks.head?, ∃ size content rest, c = front T n size content ++ rest

/-- Chunks are numbered from where the serializer stands, and without one it stays there. -/
def Numbers (T : Target) {β : Type} (m : Marshal κ β) (chunks : β → List (List UInt8)) : Prop :=
  ∀ st : Marshaller κ, StartsAt T (st.count + 1) (chunks (run m st).1) ∧
    (chunks (run m st).1 = [] → (run m st).2.count = st.count)

/-- Without chunks there is nothing to number. -/
lemma startsAt_nil (n : Nat) : StartsAt T n [] := by
  intro c hc
  cases hc

/-- A chunk starts with its own number. -/
lemma startsAt_chunk (n : Nat) (content : List UInt8) (inner bs : List (List UInt8)) :
    StartsAt T n (chunk T n content inner :: bs) := by
  rintro c hc
  cases hc
  exact ⟨_, content, _, rfl⟩

/-- A null pointer sends nothing. -/
lemma numbers_null : Numbers T (null : Marshal κ Ref) Ref.chunks :=
  fun _ => ⟨startsAt_nil _, fun _ => rfl⟩

section
variable (nm : Naming T)

/-- A structure that is there is numbered. -/
lemma numbers_present_struct {k : RawType} (body : Raw T k) (links : List (Link T κ k)) :
    Numbers T (present nm (struct body links)) Ref.chunks :=
  fun _ => ⟨startsAt_chunk _ _ _ _, fun h => absurd h (List.cons_ne_nil _ _)⟩

/-- Optional bytes are numbered. -/
lemma numbers_bstring (bs : Option (List UInt8)) :
    Numbers T (bstring nm bs : Marshal κ Ref) Ref.chunks := by
  cases bs with
  | none => exact numbers_null
  | some bs => exact fun _ => ⟨startsAt_chunk _ _ _ _, fun h => absurd h (List.cons_ne_nil _ _)⟩

/-- An optional text is numbered. -/
lemma numbers_cstring (s : Option String) :
    Numbers T (cstring nm s : Marshal κ Ref) Ref.chunks := by
  cases s with
  | none => exact numbers_null
  | some s => exact fun _ => ⟨startsAt_chunk _ _ _ _, fun h => absurd h (List.cons_ne_nil _ _)⟩

/-- A list is numbered by its first element. -/
lemma numbers_listOf {ν : Type} {k : RawType} (next : k.Field) (body : ν → Raw T k)
    (links : ν → List (Link T κ k)) (xs : List ν) :
    Numbers T (listOf nm k next body links xs) Ref.chunks := by
  cases xs with
  | nil => exact numbers_null
  | cons x xs => exact numbers_present_struct nm _ _

/-- The optional reference to a chassis is numbered. -/
lemma numbers_chassisRef? [DecidableEq κ] (heap : κ → ChassisNode T) (key : Option κ) :
    Numbers T (chassisRef? nm heap key) Ref.chunks := by
  cases key with
  | none => exact numbers_null
  | some key =>
    intro st
    rw [chassisRef?, chassisRef]
    cases hget : st.refs.lookup key with
    | some o =>
      rw [run_shared_of_some hget]
      exact ⟨startsAt_nil _, fun _ => rfl⟩
    | none =>
      rw [run_shared_of_none hget]
      exact ⟨startsAt_chunk _ _ _ _, fun h => absurd h (List.cons_ne_nil _ _)⟩

end

section
variable {k : RawType} {f : k.Field}

/-- A link is numbered as what it points to. -/
lemma numbers_ptr {ref : Marshal κ Ref} (h : Numbers T ref Ref.chunks) :
    Numbers T (Link.ptr (T := T) f ref).run Prod.snd := h

/-- A number sends no chunk. -/
lemma numbers_int (n : Nat) : Numbers T (Link.int (T := T) (κ := κ) f n).run Prod.snd :=
  fun _ => ⟨startsAt_nil _, fun _ => rfl⟩

/-- An embedded structure is numbered by its marker. -/
lemma numbers_embedded {k' : RawType} (h : (layout T k).ty f = (layout T k').ctype)
    (body : Raw T k') (links : List (Link T κ k')) :
    Numbers T (Link.embedded f h body links).run Prod.snd :=
  fun _ => ⟨startsAt_chunk _ _ _ _, fun h => absurd h (List.cons_ne_nil _ _)⟩

/-- Links are numbered when each of them is. -/
lemma numbers_runLinks {links : List (Link T κ k)}
    (h : ∀ l ∈ links, Numbers T l.run Prod.snd) : Numbers T (runLinks links) Prod.snd := by
  induction links with
  | nil => exact fun _ => ⟨startsAt_nil _, fun _ => rfl⟩
  | cons l links ih =>
    intro st
    obtain ⟨hl, hlinks⟩ := List.forall_mem_cons.mp h
    obtain ⟨hstart, hcount⟩ := hl st
    obtain ⟨hstart', hcount'⟩ := ih hlinks (run l.run st).2
    show StartsAt T _ ((run l.run st).1.2 ++ (run (runLinks links) (run l.run st).2).1.2) ∧
      ((run l.run st).1.2 ++ (run (runLinks links) (run l.run st).2).1.2 = [] →
        (run (runLinks links) (run l.run st).2).2.count = st.count)
    cases hchunks : (run l.run st).1.2 with
    | nil =>
      rw [hcount hchunks] at hstart' hcount'
      exact ⟨hstart', hcount'⟩
    | cons c cs =>
      rw [hchunks] at hstart
      exact ⟨hstart, nofun⟩

/-- With an embedded structure there is a chunk. -/
lemma runLinks_ne_nil {links : List (Link T κ k)} {l : Link T κ k} (hl : l ∈ links)
    (h : ∀ st, (run l.run st).1.2 ≠ []) (st : Marshaller κ) :
    (run (runLinks links) st).1.2 ≠ [] := by
  induction links generalizing st with
  | nil => cases hl
  | cons l' links ih =>
    show (run l'.run st).1.2 ++ (run (runLinks links) (run l'.run st).2).1.2 ≠ []
    intro hnil
    obtain ⟨hnil, hnil'⟩ := List.append_eq_nil_iff.mp hnil
    obtain rfl | hmem := List.mem_cons.mp hl
    · exact h st hnil
    · exact ih hmem (run l'.run st).2 hnil'

end

section
variable [DecidableEq κ] (nm : Naming T) (heap : κ → ChassisNode T)

/-- The links of the local port are numbered. -/
lemma numbers_lport (p : PortNode T (Option κ)) :
    ∀ l ∈ p.links nm null (chassisRef? nm heap p.chassis), Numbers T l.run Prod.snd := by
  simp only [PortNode.links, PortNode.ownLinks, PortNode.restLinks, List.forall_mem_cons]
  refine ⟨numbers_ptr numbers_null, numbers_int _, numbers_int _,
    numbers_ptr (numbers_chassisRef? nm heap p.chassis), numbers_ptr (numbers_bstring nm _),
    numbers_ptr (numbers_cstring nm _), numbers_ptr (numbers_cstring nm _), numbers_embedded _ _ _,
    numbers_embedded _ _ _, numbers_embedded _ _ _, numbers_ptr (numbers_listOf nm _ _ _ _),
    numbers_ptr (numbers_listOf nm _ _ _ _), numbers_ptr (numbers_listOf nm _ _ _ _), nofun⟩

/-- The first chunk nested in the local port is the third of the message. -/
lemma lport_chunks (p : PortNode T (Option κ)) :
    ∃ size content rest cs, (run (fields p.body (p.links nm null (chassisRef? nm heap p.chassis)))
      ⟨2, []⟩).1.2 = (front T 3 size content ++ rest) :: cs := by
  have hmem : (p.medLocation 0).link nm 0 ∈ p.links nm null (chassisRef? nm heap p.chassis) := by
    simp [PortNode.links, PortNode.ownLinks, PortNode.restLinks]
  have hne := runLinks_ne_nil hmem (fun _ => nofun) ⟨2, []⟩
  obtain ⟨hstart, -⟩ := numbers_runLinks (numbers_lport nm heap p) ⟨2, []⟩
  have hfields : (run (fields p.body (p.links nm null (chassisRef? nm heap p.chassis))) ⟨2, []⟩).1.2 =
      (run (runLinks (p.links nm null (chassisRef? nm heap p.chassis))) ⟨2, []⟩).1.2 := rfl
  rw [hfields]
  cases hchunks : (run (runLinks (p.links nm null (chassisRef? nm heap p.chassis))) ⟨2, []⟩).1.2 with
  | nil => exact absurd hchunks hne
  | cons c cs =>
    rw [hchunks] at hstart
    obtain ⟨size, content, rest, rfl⟩ := hstart c rfl
    exact ⟨size, content, rest, cs, rfl⟩

end

/-- The length of a chunk, with what is nested in it. -/
lemma length_chunk (n : Nat) (content : List UInt8) (inner : List (List UInt8)) :
    (chunk T n content inner).length = 2 * T.ptrSize + content.length +
      (nested T.ptrSize (2 * T.ptrSize + content.length) inner).length := by
  unfold chunk
  dsimp only
  rw [List.length_append, length_front]

/-- A chunk starts with its own front and then with the first chunk nested in it. -/
lemma chunk_cons (n : Nat) (content c : List UInt8) (cs : List (List UInt8)) :
    ∃ rest, chunk T n content (c :: cs) = front T n (chunk T n content (c :: cs)).length content ++
      (padding T.ptrSize (2 * T.ptrSize + content.length) ++ (c ++ rest)) := by
  refine ⟨nested T.ptrSize (roundUp (2 * T.ptrSize + content.length) T.ptrSize + c.length) cs, ?_⟩
  rw [length_chunk]
  unfold chunk
  dsimp only
  rw [nested_cons, List.append_assoc (padding _ _)]

/-- At a multiple of a word there is no padding. -/
lemma padding_aligned {pos : Nat} (h : pos % T.ptrSize = 0) : padding T.ptrSize pos = [] := by
  rw [padding, roundUp_of_mod_eq_zero h, Nat.sub_self]
  rfl

/-- At the start of a front there is no padding in front of it. -/
lemma inFront_at {p front rest : List UInt8} (pre : List UInt8) (hp : p = pre ++ (front ++ rest))
    (halign : pre.length % T.ptrSize = 0) (hlen : p.length ≤ T.isizeMax) :
    InFront (T := T) (Cursor.at p pre.length) front := by
  refine ⟨?_, hlen, rest, ?_⟩
  · show pre.length ≤ p.length
    rw [hp, List.length_append]
    exact Nat.le_add_right _ _
  · show padding T.ptrSize pre.length ++ front ++ rest = p.drop pre.length
    rw [padding_aligned halign, hp, List.drop_left]
    rfl

section
variable [DecidableEq κ] (nm : Naming T) (heap : κ → ChassisNode T)

/-! ## Messages with `h_flags_previous` -/

/-- The root structure of a message as it is sent. -/
def HardwareNode.root {k : RawType} [HardwareFields k] (x : HardwareNode T κ k) : Raw T k :=
  (run (fields x.body (x.links nm heap)) ⟨1, []⟩).1.1

/-- A message is the root structure, the marker of the local port and a third chunk in a row. -/
lemma hardwareMessage_eq {k : RawType} [HardwareFields k] (x : HardwareNode T κ k) :
    ∃ size size' content rest, hardwareMessage nm heap x =
      front T 1 (hardwareMessage nm heap x).length (x.root nm heap).bytes ++
        (padding T.ptrSize (2 * T.ptrSize + sizeOf T k) ++
          (front T 2 size [] ++ (front T 3 size' content ++ rest))) := by
  obtain ⟨size', content, rest, cs, hcs⟩ := lport_chunks nm heap x.lport
  let r₁ := run (fields x.lport.body (x.lport.links nm null (chassisRef? nm heap x.lport.chassis)))
    (⟨2, []⟩ : Marshaller κ)
  let r₂ := run (neighborList nm heap x.rports) r₁.2
  let r₃ := run (cstring nm x.ifalias) r₂.2
  have hchunks : (run (fields x.body (x.links nm heap)) ⟨1, []⟩).1.2 =
      chunk T 2 [] r₁.1.2 :: (r₂.1.chunks ++ (r₃.1.chunks ++ [])) := rfl
  have hmessage : hardwareMessage nm heap x = chunk T 1 (x.root nm heap).bytes
      (chunk T 2 [] r₁.1.2 :: (r₂.1.chunks ++ (r₃.1.chunks ++ []))) := by
    rw [← hchunks]
    rfl
  rw [hcs] at hmessage
  obtain ⟨rest', hlport⟩ := chunk_cons (T := T) 2 [] (front T 3 size' content ++ rest) cs
  obtain ⟨rest'', hroot⟩ := chunk_cons (T := T) 1 (x.root nm heap).bytes
    (chunk T 2 [] ((front T 3 size' content ++ rest) :: cs)) (r₂.1.chunks ++ (r₃.1.chunks ++ []))
  rw [List.length_nil, Nat.add_zero, padding_aligned (Nat.mul_mod_left 2 T.ptrSize),
    List.nil_append] at hlport
  rw [← hmessage, (x.root nm heap).length_eq] at hroot
  obtain ⟨size, hsize⟩ : ∃ n, n = (chunk T 2 [] ((front T 3 size' content ++ rest) :: cs)).length :=
    ⟨_, rfl⟩
  rw [← hsize] at hlport
  rw [hlport] at hroot
  refine ⟨size, size', content, rest ++ (rest' ++ rest''), hroot.trans ?_⟩
  simp only [List.append_assoc]

end

/-! ## The first attempt -/

/-- The size of `RawHardware`. -/
lemma sizeOf_hardware : sizeOf .lp64le .hardware = 632 := by decide +kernel

/-- The size of `RawHardwareWithFlagsPrevious`. -/
lemma sizeOf_hardwareWithFlagsPrevious : sizeOf .lp64le .hardwareWithFlagsPrevious = 640 := by
  decide +kernel

/-- A pointer has eight bytes. -/
lemma ptrSize_lp64le : Target.lp64le.ptrSize = 8 := rfl

/-- The first bytes of a structure, taken for a smaller one. -/
def Raw.takenFor {j k : RawType} (h : sizeOf T j ≤ sizeOf T k) (raw : Raw T k) : Raw T j :=
  ⟨raw.bytes.take (sizeOf T j), by
    rw [List.length_take, raw.length_eq]
    exact Nat.min_eq_left h⟩

/-- What is taken for the smaller structure and what is behind it is the larger one. -/
lemma Raw.takenFor_append {j k : RawType} (h : sizeOf T j ≤ sizeOf T k) (raw : Raw T k) :
    (raw.takenFor h).bytes ++ raw.bytes.drop (sizeOf T j) = raw.bytes :=
  List.take_append_drop (sizeOf T j) raw.bytes

/-- The root structure of a message as the first attempt takes it. From `h_ifalias` on every field is
what is sent eight bytes before its place. -/
def shifted (raw : Raw .lp64le .hardwareWithFlagsPrevious) : Raw .lp64le .hardware :=
  raw.takenFor (by decide +kernel)

/-- The structure as it is read has the size of `RawHardware`. -/
lemma length_shifted (raw : Raw .lp64le .hardwareWithFlagsPrevious) :
    (shifted raw).bytes.length = 632 :=
  (shifted raw).length_eq.trans sizeOf_hardware

/-- A word is left of the structure. -/
lemma length_drop_shifted (raw : Raw .lp64le .hardwareWithFlagsPrevious) :
    (raw.bytes.drop (sizeOf .lp64le .hardware)).length = 8 := by
  rw [List.length_drop, raw.length_eq]
  decide +kernel

/-- What a root structure asks for behind the marker of the first location. -/
def laterItems {k : RawType} [HardwareFields k] (raw : Raw T k) : List Item :=
  pointed ((pMedLocation raw.hLport 0).usize .data) .leaf ++
    (medLocItems (pMedLocation raw.hLport 1) ++ (medLocItems (pMedLocation raw.hLport 2) ++
      (pointed (raw.hLport.usize .pVlansTqhFirst) (.pod .vlan) ++
        (pointed (raw.hLport.usize .pPpvidsTqhFirst) (.pod .ppvid) ++
          (pointed (raw.hLport.usize .pPidsTqhFirst) (.pod .pi) ++
            (pointed raw.hRportsTqhFirst (.pod .port) ++ pointed raw.hIfalias .leaf))))))

section
variable {p : List UInt8} {stop pos : Nat} {seen : List Nat} {items : List Item}

/-- Where nothing can be read a pointer has to be null. -/
lemma fills_pointed {ptr : Nat} {item : Item}
    (h : ∀ rest, ¬ Fills T p stop pos seen (item :: rest)) :
    Fills T p stop pos seen (pointed ptr item ++ items) ↔
      ptr = 0 ∧ Fills T p stop pos seen items := by
  unfold pointed
  split
  case isTrue hptr => exact (and_iff_right hptr).symm
  case isFalse hptr => exact iff_of_false (h items) fun hnull => hptr hnull.1

/-- With a size that covers no header there is neither a leaf nor a structure. -/
lemma not_fills_of_declared (hsize : (Cursor.at p pos).declared T < 2 * T.ptrSize) :
    ¬ Fills T p stop pos seen (.leaf :: items) ∧
      ∀ k, ¬ Fills T p stop pos seen (.pod k :: items) := by
  refine ⟨fun h => ?_, fun k h => ?_⟩
  · exact absurd (fills_leaf.mp h).1.2.1 (not_le.mpr hsize)
  · obtain ⟨hfits, -⟩ := fills_pod.mp h
    exact absurd ((Nat.le_add_right _ _).trans hfits.2) (not_le.mpr hsize)

/-- The fields of a local port that come before its first marker. -/
def earlyFields : List PortField := [.tqeNext, .pChassis, .pId, .pDescr, .pVlanAdvertisePattern]

/-- When the next chunk declares less than its header, only a marker can take it, so the pointers that come
before the first location are null. -/
lemma fills_refused (stop : Nat) {k : RawType} [HardwareFields k] (raw : Raw T k)
    (hsize : (Cursor.at p pos).declared T < 2 * T.ptrSize)
    (hmarker : (Cursor.at p pos).start T + 2 * T.ptrSize ≤ p.length) :
    Fills T p stop pos [] (pointed (raw.hLport.usize .tqeNext) .never ++
      ((pointed (raw.hLport.usize .pChassis) (.chassis (raw.hLport.usize .pChassis)) ++
        portItems raw.hLport) ++ (pointed raw.hRportsTqhFirst (.pod .port) ++
          pointed raw.hIfalias .leaf))) ↔
      (∀ f ∈ earlyFields, raw.hLport.usize f = 0) ∧
        Fills T p stop ((Cursor.at p pos).start T + 2 * T.ptrSize) [] (laterItems raw) := by
  have hnever : ∀ rest, ¬ Fills T p stop pos [] (.never :: rest) := fun _ => not_fills_never
  have hleaf : ∀ rest, ¬ Fills T p stop pos [] (.leaf :: rest) := fun rest =>
    (not_fills_of_declared hsize).1
  have hchassis : ∀ ptr rest, ¬ Fills T p stop pos [] (.chassis ptr :: rest) := by
    intro ptr rest h
    cases h with
    | known _ hmem => cases hmem
    | unknown _ _ hpod => exact absurd hpod ((not_fills_of_declared hsize).2 _)
  unfold portItems medLocItems laterItems earlyFields
  simp only [List.append_assoc, List.cons_append, List.forall_mem_cons]
  rw [fills_pointed hnever, fills_pointed (hchassis _), fills_pointed hleaf, fills_pointed hleaf,
    fills_pointed hleaf, fills_marker, and_iff_right hmarker]
  simp only [medLocItems, List.cons_append, and_assoc, List.not_mem_nil, false_implies,
    implies_true, true_and]

end

/-! ## What it makes of a message -/

/-- At a multiple of a word the next chunk starts at once. -/
lemma start_at {p : List UInt8} {pos : Nat} (h : pos % T.ptrSize = 0) :
    (Cursor.at p pos).start T = pos :=
  roundUp_of_mod_eq_zero h

/-- A structure at the start of a payload that is as long as its chunk. -/
lemma podFits_root (hT : ReadsWords T) {p rest : List UInt8} {k : RawType} {raw : Raw T k}
    (heq : p = front T 1 p.length raw.bytes ++ rest) (hlen : p.length ≤ T.isizeMax) :
    ∃ h : PodFits T k (.at p 0), (Cursor.at p 0).pod T k h = raw := by
  have hfront : InFront (T := T) (Cursor.at p 0) (front T 1 p.length raw.bytes) :=
    inFront_at [] heq (Nat.zero_mod _) hlen
  have hend := front_end hfront
  have hdeclared := front_declared hfront
  have hcontent := front_content hfront
  rw [if_pos hT, Target.mod_word_of_le _ hlen] at hdeclared
  rw [raw.length_eq] at hend hcontent
  have hfits : PodFits T k (.at p 0) := by
    refine ⟨hend, ?_⟩
    rw [hdeclared]
    exact (Nat.add_le_add_right (Nat.le_add_left _ _) _).trans hend
  exact ⟨hfits, Pod.ext hcontent⟩

section
variable [DecidableEq κ] (nm : Naming .lp64le) (heap : κ → ChassisNode .lp64le)
  (x : HardwareNode .lp64le κ .hardwareWithFlagsPrevious)

/-- The chunks of a message, its root structure cut where the first attempt takes it to end. -/
lemma hardwareMessage_shifted :
    ∃ size size' content rest, hardwareMessage nm heap x =
      front .lp64le 1 (hardwareMessage nm heap x).length (shifted (x.root nm heap)).bytes ++
        ((x.root nm heap).bytes.drop (sizeOf .lp64le .hardware) ++
          (front .lp64le 2 size [] ++ (front .lp64le 3 size' content ++ rest))) := by
  obtain ⟨size, size', content, rest, heq⟩ := hardwareMessage_eq nm heap x
  have halign : (2 * Target.lp64le.ptrSize + sizeOf .lp64le .hardwareWithFlagsPrevious) %
      Target.lp64le.ptrSize = 0 := by
    rw [sizeOf_hardwareWithFlagsPrevious, ptrSize_lp64le]
  have hroot : (shifted (x.root nm heap)).bytes ++
      (x.root nm heap).bytes.drop (sizeOf .lp64le .hardware) = (x.root nm heap).bytes :=
    Raw.takenFor_append _ _
  have hfront : ∀ n, front .lp64le 1 n (x.root nm heap).bytes =
      front .lp64le 1 n (shifted (x.root nm heap)).bytes ++
        (x.root nm heap).bytes.drop (sizeOf .lp64le .hardware) := by
    intro n
    rw [front, front, List.append_assoc _ (shifted _).bytes, hroot]
  rw [padding_aligned halign, List.nil_append, hfront, List.append_assoc] at heq
  exact ⟨size, size', content, rest, heq⟩

variable {p : List UInt8} (hp : p = hardwareMessage nm heap x)
  (hlen : p.length ≤ Target.lp64le.isizeMax)
include hp hlen

/-- The root is large enough for the first attempt, which reads it shifted. -/
lemma root_fits : ∃ h : PodFits .lp64le .hardware (.at p 0),
    (Cursor.at p 0).pod .lp64le .hardware h = shifted (x.root nm heap) := by
  obtain ⟨size, size', content, rest, heq⟩ := hardwareMessage_shifted nm heap x
  rw [← hp] at heq
  exact podFits_root (Or.inl rfl) heq hlen

/-- Half a header behind the marker of the local port a size is expected where the number of the third
chunk is. -/
lemma third_chunk : (Cursor.at p 664).declared .lp64le = 3 ∧ 688 ≤ p.length := by
  obtain ⟨size, size', content, rest, heq⟩ := hardwareMessage_shifted nm heap x
  rw [← hp] at heq
  have hpre : p = (front .lp64le 1 p.length (shifted (x.root nm heap)).bytes ++
      ((x.root nm heap).bytes.drop (sizeOf .lp64le .hardware) ++ front .lp64le 2 size [])) ++
        (front .lp64le 3 size' content ++ rest) :=
    heq.trans (by simp only [List.append_assoc])
  have hlength : (front .lp64le 1 p.length (shifted (x.root nm heap)).bytes ++
      ((x.root nm heap).bytes.drop (sizeOf .lp64le .hardware) ++
        front .lp64le 2 size [])).length = 672 := by
    rw [List.length_append, List.length_append, length_front, length_front, length_drop_shifted,
      length_shifted, List.length_nil, ptrSize_lp64le]
  have halign : 672 % Target.lp64le.ptrSize = 0 := by rw [ptrSize_lp64le]
  have halign' : 664 % Target.lp64le.ptrSize = 0 := by rw [ptrSize_lp64le]
  have hfront := inFront_at _ hpre (by rw [hlength, halign]) hlen
  rw [hlength] at hfront
  have horig := front_orig hfront
  have hend := front_end hfront
  rw [start_at halign] at horig hend
  have hT : ReadsWords .lp64le := Or.inl rfl
  rw [if_pos hT] at horig
  refine ⟨?_, ?_⟩
  · rw [Cursor.declared, start_at halign', ptrSize_lp64le]
    exact horig
  · rw [ptrSize_lp64le] at hend
    exact (Nat.le_add_right 688 _).trans hend

/-- What the first attempt accepts of a message. -/
lemma fills_message : Fills .lp64le p p.length 0 [] [.pod .hardware] ↔
    (∀ f ∈ earlyFields, (shifted (x.root nm heap)).hLport.usize f = 0) ∧
      Fills .lp64le p p.length 680 [] (laterItems (shifted (x.root nm heap))) := by
  obtain ⟨hfits, hpod⟩ := root_fits nm heap x hp hlen
  obtain ⟨hdeclared, hlength⟩ := third_chunk nm heap x hp hlen
  have hstart : (Cursor.at p 648).start .lp64le = 648 := start_at (by rw [ptrSize_lp64le])
  have hstart' : (Cursor.at p 664).start .lp64le = 664 := start_at (by rw [ptrSize_lp64le])
  have hroot : Fills .lp64le p p.length 0 [] [.pod .hardware] ↔
      Fills .lp64le p p.length 648 [] (hardwareItems (shifted (x.root nm heap))) := by
    have hpos : (Cursor.at p 0).start .lp64le + 2 * Target.lp64le.ptrSize +
        sizeOf .lp64le .hardware = 648 := by
      rw [start_at (Nat.zero_mod _), sizeOf_hardware, ptrSize_lp64le]
    rw [fills_pod, hpos]
    refine ⟨fun ⟨_, hrest⟩ => ?_, fun hrest => ⟨hfits, ?_⟩⟩
    · rw [hpod, List.append_nil] at hrest
      exact hrest
    · rw [hpod, List.append_nil]
      exact hrest
  have hsize : (Cursor.at p 664).declared .lp64le < 2 * Target.lp64le.ptrSize := by
    rw [hdeclared, ptrSize_lp64le]
    decide
  have hmarker : (Cursor.at p 664).start .lp64le + 2 * Target.lp64le.ptrSize ≤ p.length := by
    rw [hstart', ptrSize_lp64le]
    omega
  have hrefused := fills_refused p.length (shifted (x.root nm heap)) hsize hmarker
  rw [hstart', ptrSize_lp64le] at hrefused
  rw [hroot, hardwareItems, List.singleton_append, fills_marker, hstart, ptrSize_lp64le,
    and_iff_right (by omega)]
  exact hrefused

end

/-- A message that the first attempt takes for one in its own layout. Of the words that it reads before
the first location's marker, `h_ifdescr_previous`, the local port's `tqe_prev`, and those that hold
`p_id_subtype`, `p_id_len` and the VLAN transmit fields, none may be set; and what the other words ask
for, laid out from behind that marker on, must end with the message. -/
structure Misread [DecidableEq κ] (nm : Naming .lp64le) (heap : κ → ChassisNode .lp64le)
    (x : HardwareNode .lp64le κ .hardwareWithFlagsPrevious) : Prop where
  null : ∀ f ∈ earlyFields, (shifted (x.root nm heap)).hLport.usize f = 0
  fills : Fills .lp64le (hardwareMessage nm heap x) (hardwareMessage nm heap x).length 680 []
    (laterItems (shifted (x.root nm heap)))

/-- The first attempt refuses a message with `h_flags_previous`, and it is then read as it was written,
exactly when the message cannot be misread. -/
theorem decodeHardware_fallback [DecidableEq κ] (nm : Naming .lp64le)
    (heap : κ → ChassisNode .lp64le) (x : HardwareNode .lp64le κ .hardwareWithFlagsPrevious)
    (hlen : (hardwareMessage nm heap x).length ≤ Target.lp64le.isizeMax) :
    ((∃ msg, decodeHardwareAs .lp64le .hardware (hardwareMessage nm heap x) =
        .error (protocol msg)) ∧
      decodeHardware .lp64le (hardwareMessage nm heap x) = .ok (x.value heap)) ↔
    ¬ Misread nm heap x := by
  have hmisread : Misread nm heap x ↔
      ∃ v, decodeHardwareAs .lp64le .hardware (hardwareMessage nm heap x) = .ok v := by
    rw [decodeHardwareAs_ok hlen fun _ => rfl, fills_message nm heap x rfl hlen]
    exact ⟨fun h => ⟨h.null, h.fills⟩, fun h => ⟨h.1, h.2⟩⟩
  rw [hmisread]
  refine ⟨fun ⟨⟨msg, herr⟩, _⟩ ⟨v, hv⟩ => ?_, fun hnot => ?_⟩
  · rw [hv] at herr
    cases herr
  · have hreturns : Returns (decodeHardwareAs .lp64le .hardware (hardwareMessage nm heap x)) :=
      (contained_hardware .hardware hlen).returns
    obtain hok | ⟨msg, herr⟩ := hreturns
    · exact absurd hok hnot
    · refine ⟨⟨msg, herr⟩, ?_⟩
      rw [decodeHardware, herr]
      dsimp only [protocol]
      rw [decodeHardwareAs_hardwareMessage nm heap (Or.inl rfl) x hlen]

/-- The interface of `sampleHardware` with a port of its own and no neighbors. `loc` is the third
location of the port. -/
def localNode (idSubtype : UInt8) (id : List UInt8) (loc : Raw .lp64le .medLoc) :
    HardwareNode .lp64le Unit .hardwareWithFlagsPrevious where
  body := .zeroed _ _
  ifname := (sampleHardware .lp64le).ifname
  lladdr := (sampleHardware .lp64le).lladdr
  ifalias := none
  lport :=
    { body := .zeroed _ _
      chassis := none
      idSubtype := idSubtype
      id := some id
      description := none
      vlanAdvertisePattern := none
      ttl := 120
      medLocation i := ⟨if i = 2 then loc else .zeroed _ _, none⟩
      vlans := []
      ppvids := []
      pids := [] }
  rports := []

/-- The chassis of the host. -/
def localHeap (_ : Unit) : ChassisNode .lp64le := sampleChassis .lp64le "host"

/-- A local identifier. -/
def plainNode : HardwareNode .lp64le Unit .hardwareWithFlagsPrevious :=
  localNode 7 [49] (.zeroed _ _)

/-- A message that the first attempt refuses. -/
theorem decodeHardware_fallback_plainNode :
    (∃ msg, decodeHardwareAs .lp64le .hardware
        (hardwareMessage (.orig _) localHeap plainNode) = .error (protocol msg)) ∧
      decodeHardware .lp64le (hardwareMessage (.orig _) localHeap plainNode) =
        .ok (plainNode.value localHeap) := by
  have hsubtype : (shifted (plainNode.root (.orig _) localHeap)).hLport.usize .pId ≠ 0 := by
    decide +kernel
  exact (decodeHardware_fallback (.orig _) localHeap plainNode (by decide +kernel)).mpr
    fun h => hsubtype (h.null .pId (by decide))

/-- The identifier has no subtype and ends in the header of a chunk of 64 bytes. The number in the third
location is where its data is expected eight bytes late. -/
def misreadNode : HardwareNode .lp64le Unit .hardwareWithFlagsPrevious :=
  localNode 0 (List.replicate 32 0 ++ [64, 0, 0, 0, 0, 0, 0, 0])
    ⟨1 :: List.replicate 23 0, by decide +kernel⟩

/-- The first attempt reads the whole message and returns an interface without a name. -/
theorem decodeHardware_misreadNode :
    (∃ v, decodeHardwareAs .lp64le .hardware
        (hardwareMessage (.orig _) localHeap misreadNode) = .ok v) ∧
      decodeHardware .lp64le (hardwareMessage (.orig _) localHeap misreadNode) ≠
        .ok (misreadNode.value localHeap) := by
  have hname : (decodeHardware .lp64le
      (hardwareMessage (.orig _) localHeap misreadNode)).toOption.map (·.name) = some "" := by
    decide +kernel
  have hlegacy : (decodeHardwareAs .lp64le .hardware
      (hardwareMessage (.orig _) localHeap misreadNode)).toOption.isSome := by
    decide +kernel
  refine ⟨?_, fun h => ?_⟩
  · cases hv : decodeHardwareAs .lp64le .hardware
        (hardwareMessage (.orig _) localHeap misreadNode) with
    | ok v => exact ⟨v, rfl⟩
    | error e =>
      rw [hv] at hlegacy
      cases hlegacy
  · rw [h] at hname
    revert hname
    decide +kernel

end Rlldpctl.Wire
