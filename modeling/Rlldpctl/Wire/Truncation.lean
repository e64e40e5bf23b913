import Rlldpctl.Lib.Prefixes
import Rlldpctl.Wire.RoundTrip
import Rlldpctl.Wire.Rules

/-!
# Truncated payloads

Every decoder is local: a payload that is cut inside what the decoder consumes is refused, and one that
is cut behind it decodes to the same value.
-/

namespace Rlldpctl.Wire
open ByteReader CLayout NativeBytes Utf8

variable {T : Target}

/-! ## The readers -/

section
variable {self : Cursor} {n : Nat}

/-- What is before the cut is unchanged. -/
lemma slice_cut {buf : List UInt8} {start m : Nat} (h : start + m ≤ n) :
    slice (buf.take n) start m = slice buf start m := by
  rw [slice, slice, List.drop_take, List.take_take, Nat.min_eq_left (Nat.le_sub_of_add_le' h)]

/-- A word before the cut is unchanged. -/
lemma wordAt_cut {buf : List UInt8} {p : Nat} (h : p + T.ptrSize ≤ n) :
    wordAt T (buf.take n) p = wordAt T buf p := by
  rw [wordAt, wordAt, slice_cut h]

/-- A chunk ends inside the cut buffer when it does not go over the cut. -/
lemma le_length_cut {m : Nat} (h : m ≤ n) (h' : m ≤ self.buf.length) :
    m ≤ (self.cut n).buf.length := by
  show m ≤ (self.buf.take n).length
  rw [List.length_take]
  exact le_min h h'

/-- What is inside after the cut is before it and was inside. -/
lemma of_le_length_cut {m : Nat} (h : m ≤ (self.cut n).buf.length) : m ≤ n ∧ m ≤ self.buf.length := by
  change m ≤ (self.buf.take n).length at h
  rwa [List.length_take, le_min_iff] at h

/-- The size that a chunk declares before the cut is unchanged. -/
lemma declared_cut (h : self.start T + 2 * T.ptrSize ≤ n) :
    Cursor.declared T (self.cut n) = self.declared T :=
  wordAt_cut (by show self.start T + T.ptrSize + T.ptrSize ≤ n; omega)

end

/-- A marker looks no further than it reads. -/
lemma local_consumeSubstructMarker : Local T.isizeMax (consumeSubstructMarker T) := by
  intro (self : Cursor) hpos hlen a s' h
  have hfits := markerFits_of_ok hpos hlen h
  rw [consumeSubstructMarker_ok hlen hfits] at h
  cases h
  refine ⟨rfl, (le_roundUp _ _).trans (Nat.le_add_right _ _), hfits, fun n hn =>
    ⟨fun hle => ?_, fun hlt => ?_⟩⟩
  · exact consumeSubstructMarker_ok (State.length_cut_le hlen n) (le_length_cut hle hfits)
  · have hcut : ¬ Cursor.start T (self.cut n) + 2 * T.ptrSize ≤ (self.cut n).buf.length := fun hc =>
      absurd (of_le_length_cut hc).1 (not_le.mpr hlt)
    exact (consumeSubstructMarker_rejects (State.cut_in hpos hn) (State.length_cut_le hlen n)
      hcut).error

/-- A leaf looks no further than it reads. -/
lemma local_leaf : Local T.isizeMax (leaf T) := by
  intro (self : Cursor) hpos hlen a s' h
  have hfits := leafFits_of_ok hpos hlen h
  rw [leaf_ok hlen hfits] at h
  cases h
  obtain ⟨hhead, hsize, hend⟩ := hfits
  refine ⟨rfl, (le_roundUp _ _).trans (Nat.le_add_right _ _), hend, fun n hn =>
    ⟨fun hle => ?_, fun hlt => ?_⟩⟩
  · have hle : self.start T + self.declared T ≤ n := hle
    have hdecl : Cursor.declared T (self.cut n) = self.declared T := declared_cut (by omega)
    have hfits : LeafFits T (self.cut n) := by
      refine ⟨le_length_cut (by show self.start T + _ ≤ n; omega) hhead, ?_, ?_⟩
      · rwa [hdecl]
      · rw [hdecl]
        exact le_length_cut hle hend
    have hok := leaf_ok (State.length_cut_le hlen n) hfits
    have hword : wordAt T (self.buf.take n) (self.start T) = wordAt T self.buf (self.start T) :=
      wordAt_cut (by omega)
    have hslice : slice (self.buf.take n) (self.start T + 2 * T.ptrSize)
        (self.declared T - 2 * T.ptrSize) =
        slice self.buf (self.start T + 2 * T.ptrSize) (self.declared T - 2 * T.ptrSize) :=
      slice_cut (by omega)
    rw [hdecl] at hok
    rw [hok]
    show EStateM.Result.ok (wordAt T (self.buf.take n) (self.start T),
      slice (self.buf.take n) (self.start T + 2 * T.ptrSize) _) _ = _
    rw [hword, hslice]
    rfl
  · have hcut : ¬ LeafFits T (self.cut n) := by
      rintro ⟨hhead', -, hend'⟩
      have hdecl : Cursor.declared T (self.cut n) = self.declared T :=
        declared_cut (of_le_length_cut hhead').1
      rw [hdecl] at hend'
      exact absurd (of_le_length_cut hend').1 (not_le.mpr hlt)
    exact (leaf_rejects (State.cut_in hpos hn) (State.length_cut_le hlen n) hcut).error

/-- A structure looks no further than it reads. -/
lemma local_readChunkPod {k : RawType} : Local T.isizeMax (readChunkPod T k) := by
  intro (self : Cursor) hpos hlen a s' h
  have hfits := podFits_of_ok hpos hlen h
  have hstart : self.pos ≤ self.start T := le_roundUp _ _
  rw [readChunkPod_ok hlen hfits] at h
  cases h
  refine ⟨rfl, by show self.pos ≤ self.start T + _ + _; omega, hfits.1, fun n hn =>
    ⟨fun hle => ?_, fun hlt => ?_⟩⟩
  · have hle : self.start T + 2 * T.ptrSize + sizeOf T k ≤ n := hle
    have hdecl : Cursor.declared T (self.cut n) = self.declared T := declared_cut (by omega)
    have hfits' : PodFits T k (self.cut n) := by
      refine ⟨le_length_cut hle hfits.1, ?_⟩
      rw [hdecl]
      exact hfits.2
    have hpod : Cursor.pod T k (self.cut n) hfits' = self.pod T k hfits :=
      Pod.ext (slice_cut hle)
    rw [readChunkPod_ok (State.length_cut_le hlen n) hfits', hpod]
    rfl
  · have hcut : ¬ PodFits T k (self.cut n) := fun hc =>
      absurd (of_le_length_cut hc.1).1 (not_le.mpr hlt)
    exact (readChunkPod_rejects (State.cut_in hpos hn) (State.length_cut_le hlen n) hcut).error

/-- Looking no further is kept by all rules. -/
lemma rules_local (T : Target) : Rules T anyKind (Local T.isizeMax) where
  pure a := .pure a
  throw msg := .throw (protocol msg)
  bind hd hf := .bind hd hf
  leaf := local_leaf
  marker := local_consumeSubstructMarker
  pod _ _ := local_readChunkPod
  chain _ hf t := local_chain local_readChunkPod hf t

/-- The check that every byte was read passes on the cut buffer when nothing was cut. -/
lemma local_requireExhausted (details : InterfaceDetails) :
    Local T.isizeMax (requireExhausted details) := by
  intro (self : Cursor) hpos hlen a s' h
  rw [requireExhausted_eq] at h
  split at h
  case isFalse => cases h
  case isTrue hend =>
    cases h
    refine ⟨rfl, le_rfl, hpos, fun n hn => ⟨fun _ => ?_, fun hlt => absurd hlt (not_lt.mpr hn)⟩⟩
    have hcut : self.cut n = self := by
      rw [hend] at hn
      show State.mk (self.buf.take n) self.pos self.calls = self
      rw [List.take_of_length_le hn]
    rw [hcut, requireExhausted_eq, if_pos hend]

/-- The details of an interface are read without looking further, although exhaustion is checked. -/
lemma local_hardware (k : RawType) [HardwareFields k] : Local T.isizeMax (hardware T k) :=
  (rules_local T).hardware all_anyKind local_requireExhausted k

/-! ## Payloads -/

/-- Every prefix of `p` that is shorter than `k` is refused, and the first `k` bytes decode to `v`. -/
def Detects {α : Type} (d : Decode α) (p : List UInt8) (v : α) (k : Nat) : Prop :=
  (∀ q, q <+: p → q.length < k → ∃ e, decode d q = .error (.error e)) ∧
    decode d (p.take k) = .ok v

section
variable {α : Type} {d : Decode α} {p : List UInt8} {v : α} {k : Nat}

/-- What is neither a value nor a panic is an error. -/
lemma exists_error_of_ne_panic {r : Except Fault α} (hok : ∀ a, r ≠ .ok a)
    (hpanic : r ≠ .error .panic) : ∃ e, r = .error (.error e) := by
  cases r with
  | ok a => exact absurd rfl (hok a)
  | error f =>
    cases f with
    | error e => exact ⟨e, rfl⟩
    | panic => exact absurd rfl hpanic

section
variable (hd : Local T.isizeMax d) (hlen : p.length ≤ T.isizeMax) (h : DecodesTo d p v k)
include hd hlen h

/-- A prefix that holds what was consumed decodes to the same value, up to the same offset. -/
lemma DecodesTo.take {n : Nat} (hn : k ≤ n) : DecodesTo d (p.take n) v k := by
  obtain ⟨self, hok, rfl⟩ := h
  obtain ⟨-, -, -, hcut⟩ := hd (Cursor.new p) (Nat.zero_le _) hlen v self hok
  exact ⟨_, (hcut n (Nat.zero_le n)).1 hn, rfl⟩

/-- A shorter prefix does not decode. -/
lemma DecodesTo.not_take {n : Nat} (hn : n < k) (w : α) : decode d (p.take n) ≠ .ok w := by
  obtain ⟨self, hok, rfl⟩ := h
  obtain ⟨-, -, -, hcut⟩ := hd (Cursor.new p) (Nat.zero_le _) hlen v self hok
  obtain ⟨e, s, herr⟩ := (hcut n (Nat.zero_le n)).2 hn
  have herr' : d (Cursor.new (p.take n)) = .error e s := herr
  rw [decode, herr']
  intro heq
  cases heq

/-- A safe reader that looks no further detects every cut. -/
lemma DecodesTo.detects (hsafe : Safely T d) : Detects d p v k := by
  refine ⟨fun q hq hk => ?_, (h.take hd hlen le_rfl).decode_eq⟩
  have hqlen : q.length ≤ T.isizeMax := hq.length_le.trans hlen
  have htake : p.take q.length = q := (List.prefix_iff_eq_take.mp hq).symm
  refine exists_error_of_ne_panic (fun w => ?_) (decode_ne_panic hsafe hqlen)
  rw [← htake]
  exact h.not_take hd hlen hk w

end

/-- A successful hardware decoder has read the whole payload. -/
lemma hardware_exhausts {t : RawType} [HardwareFields t] {details : InterfaceDetails}
    (hlen : p.length ≤ T.isizeMax) (h : DecodesTo (hardware T t) p details k) : k = p.length := by
  obtain ⟨self, hok, rfl⟩ := h
  obtain ⟨hbuf, -⟩ := local_hardware t (Cursor.new p) (Nat.zero_le _) hlen details self hok
  obtain ⟨raw, s₁, -, hok⟩ := bind_eq_ok hok
  obtain ⟨details', s₂, -, hok⟩ := bind_eq_ok hok
  rw [requireExhausted_eq] at hok
  split at hok
  case isFalse => cases hok
  case isTrue hend =>
    cases hok
    rw [hend, hbuf]
    rfl

end

/-- Truncation is detected by every decoder, and what a hardware decoder accepts is prefix-free. -/
theorem truncation_detected {p : List UInt8} (hlen : p.length ≤ T.isizeMax) :
    (∀ v k, DecodesTo (interfaces T) p v k → Detects (interfaces T) p v k) ∧
    (∀ v k, DecodesTo (neighborChange T) p v k → Detects (neighborChange T) p v k) ∧
    (∀ (t : RawType) [HardwareFields t] (v k),
      DecodesTo (hardware T t) p v k → Detects (hardware T t) p v k) ∧
    (∀ (t : RawType) [HardwareFields t] (v w) (q : List UInt8),
      decodeHardwareAs T t p = .ok v → decodeHardwareAs T t q = .ok w → q <+: p → q = p) := by
  have hl := rules_local T
  have hs := rules_safely T
  refine ⟨fun v k h => ?_, fun v k h => ?_, fun t _ v k h => ?_, fun t _ v w q hp hq hpre => ?_⟩
  · exact h.detects (hl.interfaces all_anyKind) hlen (hs.interfaces all_anyKind)
  · exact h.detects (hl.neighborChange all_anyKind) hlen (hs.neighborChange all_anyKind)
  · exact h.detects (local_hardware t) hlen (hs.hardware all_anyKind safe_requireExhausted t)
  · obtain ⟨k, hk⟩ := decode_eq_ok.mp hp
    have hend := hardware_exhausts hlen hk
    by_contra hne
    have hlt : q.length < k := by
      refine hend ▸ lt_of_le_of_ne hpre.length_le fun heq => hne ?_
      exact hpre.eq_of_length heq
    have htake : p.take q.length = q := (List.prefix_iff_eq_take.mp hpre).symm
    refine hk.not_take (local_hardware t) hlen hlt w ?_
    rw [htake]
    exact hq

/-- A cut of the list of two interfaces is detected. -/
theorem truncation_detected_twoInterfaces :
    ∃ k, Detects (interfaces .lp64le)
      (interfacesMessage (.zeroed _ _) (twoInterfaces .lp64le)) [⟨"", some ""⟩, ⟨"eth0", none⟩] k := by
  have hok : decode (interfaces .lp64le)
      (interfacesMessage (.zeroed _ _) (twoInterfaces .lp64le)) =
      .ok [⟨"", some ""⟩, ⟨"eth0", none⟩] := by decide +kernel
  obtain ⟨k, hk⟩ := decode_eq_ok.mp hok
  exact ⟨k, (truncation_detected (by decide +kernel)).1 _ k hk⟩

end Rlldpctl.Wire
