import Rlldpctl.Wire.Rules

/-!
# What a payload has to be

A grammar of replies on their bytes, without values. `behind` says which chunks a structure asks for, and
`Fills` when the chunks that are still to come take a payload from one offset to another. A chassis that
has been seen is not sent again. The grammar reads sizes and pointers as `read_native_usize` does, so on the
targets that do not read words back every size is zero and nothing is derived. `Covers` connects the grammar
to the decoders: a decoder succeeds exactly when its items fill what it consumes.
-/

namespace Rlldpctl.Wire
open ByteReader CLayout NativeBytes Utf8

variable {T : Target}

/-! ## Items -/

/-- What is still to come: a chunk, or the chassis behind a pointer. Nothing is `never`. -/
inductive Item where
  | leaf
  | marker
  | pod (k : RawType)
  | chassis (ptr : Nat)
  | never

/-- An item behind a pointer. -/
def pointed (ptr : Nat) (item : Item) : List Item :=
  if ptr = 0 then [] else [item]

/-- What a location asks for. -/
def medLocItems (loc : Raw T .medLoc) : List Item :=
  .marker :: pointed (loc.usize .data) .leaf

/-- What a port asks for after its chassis. -/
def portItems (raw : Raw T .port) : List Item :=
  pointed (raw.usize .pId) .leaf ++ (pointed (raw.usize .pDescr) .leaf ++
    (pointed (raw.usize .pVlanAdvertisePattern) .leaf ++ (medLocItems (pMedLocation raw 0) ++
      (medLocItems (pMedLocation raw 1) ++ (medLocItems (pMedLocation raw 2) ++
        (pointed (raw.usize .pVlansTqhFirst) (.pod .vlan) ++
          (pointed (raw.usize .pPpvidsTqhFirst) (.pod .ppvid) ++
            pointed (raw.usize .pPidsTqhFirst) (.pod .pi))))))))

/-- What a chassis asks for. -/
def chassisItems (raw : Raw T .chassis) : List Item :=
  pointed (raw.usize .cId) .leaf ++ (pointed (raw.usize .cName) .leaf ++
    (pointed (raw.usize .cDescr) .leaf ++ (pointed (raw.usize .cMgmtTqhFirst) (.pod .mgmt) ++
      (pointed (raw.usize .cMedHw) .leaf ++ (pointed (raw.usize .cMedFw) .leaf ++
        (pointed (raw.usize .cMedSw) .leaf ++ (pointed (raw.usize .cMedSn) .leaf ++
          (pointed (raw.usize .cMedManuf) .leaf ++ (pointed (raw.usize .cMedModel) .leaf ++
            pointed (raw.usize .cMedAsset) .leaf)))))))))

/-- What one interface asks for. Its local port has no next and may have no chassis. -/
def hardwareItems {k : RawType} [HardwareFields k] (raw : Raw T k) : List Item :=
  [.marker] ++ (pointed (raw.hLport.usize .tqeNext) .never ++
    ((pointed (raw.hLport.usize .pChassis) (.chassis (raw.hLport.usize .pChassis)) ++
      portItems raw.hLport) ++ (pointed raw.hRportsTqhFirst (.pod .port) ++
        pointed raw.hIfalias .leaf)))

/-- What a structure asks for, the next element of its list first. -/
def behind : (k : RawType) → Raw T k → List Item
  | .mgmt, raw => pointed (raw.usize .tqeNext) (.pod .mgmt) ++ []
  | .vlan, raw => pointed (raw.usize .tqeNext) (.pod .vlan) ++ pointed (raw.usize .vName) .leaf
  | .ppvid, raw => pointed (raw.usize .tqeNext) (.pod .ppvid) ++ []
  | .pi, raw => pointed (raw.usize .tqeNext) (.pod .pi) ++ pointed (raw.usize .pPi) .leaf
  | .chassis, raw => chassisItems raw
  | .port, raw =>
    pointed (raw.usize .tqeNext) (.pod .port) ++ (.chassis (raw.usize .pChassis) :: portItems raw)
  | .interface, raw =>
    pointed (raw.usize .nextTqeNext) (.pod .interface) ++
      (pointed (raw.usize .name) .leaf ++ pointed (raw.usize .alias) .leaf)
  | .interfaceList, raw => pointed (raw.usize .tqhFirst) (.pod .interface)
  | .hardware, raw | .hardwareWithFlagsPrevious, raw => hardwareItems raw
  -- these are not in a reply on their own
  | .medLoc, _ | .neighborChange, _ | .portSet, _ => [.never]

/-! ## Derivations -/

/-- A cursor at an offset. -/
def Cursor.at (p : List UInt8) (pos : Nat) : Cursor := ⟨p, pos, []⟩

/-- The items, in this order, take the payload `p` from `pos` to `stop`. The chassis in `seen` have been
sent. Sizes and pointers are words as `read_native_usize` reads them. -/
inductive Fills (T : Target) (p : List UInt8) (stop : Nat) : Nat → List Nat → List Item → Prop where
  | nil {seen} : Fills T p stop stop seen []
  | leaf {pos seen items} :
    LeafFits T (.at p pos) →
    Fills T p stop ((Cursor.at p pos).start T + (Cursor.at p pos).declared T) seen items →
    Fills T p stop pos seen (.leaf :: items)
  | marker {pos seen items} :
    (Cursor.at p pos).start T + 2 * T.ptrSize ≤ p.length →
    Fills T p stop ((Cursor.at p pos).start T + 2 * T.ptrSize) seen items →
    Fills T p stop pos seen (.marker :: items)
  | pod {k pos seen items} (h : PodFits T k (.at p pos)) :
    Fills T p stop ((Cursor.at p pos).start T + 2 * T.ptrSize + sizeOf T k) seen
      (behind k ((Cursor.at p pos).pod T k h) ++ items) →
    Fills T p stop pos seen (.pod k :: items)
  | known {pos seen items ptr} :
    ptr ≠ 0 → ptr ∈ seen →
    Fills T p stop pos seen items →
    Fills T p stop pos seen (.chassis ptr :: items)
  | unknown {pos seen items ptr} :
    ptr ≠ 0 → ptr ∉ seen →
    Fills T p stop pos (ptr :: seen) (.pod .chassis :: items) →
    Fills T p stop pos seen (.chassis ptr :: items)

section
variable {p : List UInt8} {stop pos : Nat} {seen : List Nat} {items : List Item}

/-- No item takes nothing. -/
lemma fills_nil : Fills T p stop pos seen [] ↔ pos = stop := by
  refine ⟨fun h => ?_, fun h => ?_⟩
  · cases h
    rfl
  · rw [h]
    exact .nil

/-- A leaf takes the bytes it declares. -/
lemma fills_leaf : Fills T p stop pos seen (.leaf :: items) ↔ LeafFits T (.at p pos) ∧
    Fills T p stop ((Cursor.at p pos).start T + (Cursor.at p pos).declared T) seen items := by
  refine ⟨fun h => ?_, fun h => .leaf h.1 h.2⟩
  cases h with
  | leaf hfits hrest => exact ⟨hfits, hrest⟩

/-- A marker takes its header. -/
lemma fills_marker : Fills T p stop pos seen (.marker :: items) ↔
    (Cursor.at p pos).start T + 2 * T.ptrSize ≤ p.length ∧
      Fills T p stop ((Cursor.at p pos).start T + 2 * T.ptrSize) seen items := by
  refine ⟨fun h => ?_, fun h => .marker h.1 h.2⟩
  cases h with
  | marker hfits hrest => exact ⟨hfits, hrest⟩

/-- A structure takes its header and its size, and its own items come next. -/
lemma fills_pod {k : RawType} : Fills T p stop pos seen (.pod k :: items) ↔
    ∃ h : PodFits T k (.at p pos),
      Fills T p stop ((Cursor.at p pos).start T + 2 * T.ptrSize + sizeOf T k) seen
        (behind k ((Cursor.at p pos).pod T k h) ++ items) := by
  refine ⟨fun h => ?_, fun ⟨hfits, hrest⟩ => .pod hfits hrest⟩
  cases h with
  | pod hfits hrest => exact ⟨hfits, hrest⟩

/-- A chassis that has been sent takes nothing. -/
lemma fills_known {ptr : Nat} (hptr : ptr ≠ 0) (hmem : ptr ∈ seen) :
    Fills T p stop pos seen (.chassis ptr :: items) ↔ Fills T p stop pos seen items := by
  refine ⟨fun h => ?_, .known hptr hmem⟩
  cases h with
  | known _ _ hrest => exact hrest
  | unknown _ hmem' => exact absurd hmem hmem'

/-- A chassis that has not been sent is sent now. -/
lemma fills_unknown {ptr : Nat} (hptr : ptr ≠ 0) (hmem : ptr ∉ seen) :
    Fills T p stop pos seen (.chassis ptr :: items) ↔
      Fills T p stop pos (ptr :: seen) (.pod .chassis :: items) := by
  refine ⟨fun h => ?_, .unknown hptr hmem⟩
  cases h with
  | known _ hmem' => exact absurd hmem' hmem
  | unknown _ _ hrest => exact hrest

/-- A chassis cannot be behind a null pointer. -/
lemma not_fills_null : ¬ Fills T p stop pos seen (.chassis 0 :: items) := by
  intro h
  cases h with
  | known hptr => exact hptr rfl
  | unknown hptr => exact hptr rfl

/-- Nothing is `never`. -/
lemma not_fills_never : ¬ Fills T p stop pos seen (.never :: items) := nofun

end

/-! ## What a decoder covers -/

/-- The run succeeded, and the rest of the items fill what is left. -/
def Goes (T : Target) (p : List UInt8) (stop : Nat) {α : Type} (after : α → List Nat)
    (rest : List Item) : EStateM.Result Fault Cursor α → Prop
  | .ok a self => Fills T p stop self.pos (after a) rest
  | .error _ _ => False

/-- From `self` on the decoder succeeds exactly when its items fill what it consumes, with `seen` the
chassis that have been sent before and `after` those that have been sent then. -/
structure CoversAt (T : Target) (s : Cursor) {α : Type} (seen : List Nat) (after : α → List Nat)
    (items : List Item) (d : Decode α) : Prop where
  inside : ∀ a s', d s = .ok a s' → s'.buf = s.buf ∧ s'.pos ≤ s'.buf.length
  goes : ∀ stop rest, Fills T s.buf stop s.pos seen (items ++ rest) ↔
    Goes T s.buf stop after rest (d s)

/-- From everywhere inside a payload that fits a slice. -/
def Covers (T : Target) {α : Type} (seen : List Nat) (after : α → List Nat) (items : List Item)
    (d : Decode α) : Prop :=
  ∀ self : Cursor, self.pos ≤ self.buf.length → self.buf.length ≤ T.isizeMax →
    CoversAt T self seen after items d

section
variable {α β : Type} {seen : List Nat} {items items' : List Item}

/-- Two steps cover their items, one after the other. -/
lemma CoversAt.bind {self : Cursor} {mid : α → List Nat} {after : β → List Nat} {d : Decode α}
    {f : α → Decode β} (hd : CoversAt T self seen mid items d)
    (hf : ∀ a self', d self = .ok a self' → self'.buf = self.buf → self'.pos ≤ self'.buf.length →
      CoversAt T self' (mid a) after items' (f a)) :
    CoversAt T self seen after (items ++ items') (d >>= f) := by
  refine ⟨fun b self'' h => ?_, fun stop rest => ?_⟩
  · obtain ⟨a, self', hx, hy⟩ := bind_eq_ok h
    obtain ⟨hbuf, hpos⟩ := hd.inside a self' hx
    obtain ⟨hbuf', hpos'⟩ := (hf a self' hx hbuf hpos).inside b self'' hy
    exact ⟨hbuf'.trans hbuf, hpos'⟩
  · rw [List.append_assoc, hd.goes]
    cases hx : d self with
    | ok a self' =>
      obtain ⟨hbuf, hpos⟩ := hd.inside a self' hx
      rw [bind_ok hx, ← hbuf]
      exact (hf a self' hx hbuf hpos).goes stop rest
    | error e self' =>
      rw [bind_error hx]
      exact Iff.rfl

/-- Two decoders cover their items, one after the other. -/
lemma Covers.bind {mid : α → List Nat} {after : β → List Nat} {d : Decode α} {f : α → Decode β}
    (hd : Covers T seen mid items d) (hf : ∀ a, Covers T (mid a) after items' (f a)) :
    Covers T seen after (items ++ items') (d >>= f) :=
  fun self hpos hlen => (hd self hpos hlen).bind fun a self' _ hbuf hpos' =>
    hf a self' hpos' (hbuf ▸ hlen)

/-- A value covers no items. -/
lemma CoversAt.pure {s : Cursor} {after : α → List Nat} {a : α} (h : after a = seen)
    (hpos : s.pos ≤ s.buf.length) : CoversAt T s seen after [] (Pure.pure a) := by
  refine ⟨fun b s' h => ?_, fun stop rest => ?_⟩
  · cases h
    exact ⟨rfl, hpos⟩
  · show _ ↔ Fills T s.buf stop s.pos (after a) rest
    rw [h]
    exact Iff.rfl

/-- A value covers no items, from everywhere. -/
lemma Covers.pure {after : α → List Nat} {a : α} (h : after a = seen) :
    Covers T seen after [] (Pure.pure a) :=
  fun _ hpos _ => .pure h hpos

/-- The last step consumes nothing. -/
lemma Covers.map {mid : α → List Nat} {after : β → List Nat} {d : Decode α} {f : α → β}
    (hd : Covers T seen mid items d) (hf : ∀ a, after (f a) = mid a) :
    Covers T seen after items (d >>= fun a => Pure.pure (f a)) := by
  rw [← List.append_nil items]
  exact hd.bind fun a => .pure (hf a)

/-- A part that is there when the pointer is not null. -/
lemma Covers.pointed {after : α → List Nat} {ptr : Nat} {item : Item} {d d' : Decode α}
    (hnull : Covers T seen after [] d) (hd : Covers T seen after [item] d') :
    Covers T seen after (pointed ptr item) (if ptr = 0 then d else d') := by
  unfold Wire.pointed
  split
  case isTrue => exact hnull
  case isFalse => exact hd

/-- The same with the branches the other way. -/
lemma Covers.pointed_ne {after : α → List Nat} {ptr : Nat} {item : Item} {d d' : Decode α}
    (hd : Covers T seen after [item] d) (hnull : Covers T seen after [] d') :
    Covers T seen after (Wire.pointed ptr item) (if ptr ≠ 0 then d else d') := by
  rw [ite_not]
  exact .pointed hnull hd

/-- A marker covers its item. -/
lemma covers_marker : Covers T seen (fun _ => seen) [.marker] (consumeSubstructMarker T) := by
  intro self hpos hlen
  by_cases hfits : self.start T + 2 * T.ptrSize ≤ self.buf.length
  · have hok := consumeSubstructMarker_ok hlen hfits
    refine ⟨fun a self' h => ?_, fun stop rest => ?_⟩
    · rw [hok] at h
      cases h
      exact ⟨rfl, hfits⟩
    · rw [hok]
      exact fills_marker.trans (and_iff_right hfits)
  · obtain ⟨e, self', herr⟩ := (consumeSubstructMarker_rejects hpos hlen hfits).error
    refine ⟨fun a self' h => ?_, fun stop rest => ?_⟩
    · rw [herr] at h
      cases h
    · rw [herr]
      exact iff_of_false (fun h => hfits (fills_marker.mp h).1) id

/-- A leaf covers its item. -/
lemma covers_leaf : Covers T seen (fun _ => seen) [.leaf] (leaf T) := by
  intro self hpos hlen
  by_cases hfits : LeafFits T self
  · have hok := leaf_ok hlen hfits
    refine ⟨fun a self' h => ?_, fun stop rest => ?_⟩
    · rw [hok] at h
      cases h
      exact ⟨rfl, hfits.2.2⟩
    · rw [hok]
      exact fills_leaf.trans (and_iff_right hfits)
  · obtain ⟨e, self', herr⟩ := (leaf_rejects hpos hlen hfits).error
    refine ⟨fun a self' h => ?_, fun stop rest => ?_⟩
    · rw [herr] at h
      cases h
    · rw [herr]
      exact iff_of_false (fun h => hfits (fills_leaf.mp h).1) id

/-- After a structure come the items that it asks for. -/
lemma readChunkPod_fills (k : RawType) {s : Cursor} (hpos : s.pos ≤ s.buf.length)
    (hlen : s.buf.length ≤ T.isizeMax) :
    (∃ raw s', readChunkPod T k s = .ok raw s' ∧ s'.buf = s.buf ∧ s'.pos ≤ s'.buf.length ∧
      ∀ stop seen rest, Fills T s.buf stop s.pos seen (.pod k :: rest) ↔
        Fills T s'.buf stop s'.pos seen (behind k raw ++ rest)) ∨
    (∃ e s', readChunkPod T k s = .error e s') ∧
      ∀ stop seen rest, ¬ Fills T s.buf stop s.pos seen (.pod k :: rest) := by
  by_cases hfits : PodFits T k s
  · refine Or.inl ⟨_, _, readChunkPod_ok hlen hfits, rfl, hfits.1, fun stop seen rest => ?_⟩
    exact fills_pod.trans ⟨fun ⟨_, hrest⟩ => hrest, fun hrest => ⟨hfits, hrest⟩⟩
  · refine Or.inr ⟨(readChunkPod_rejects hpos hlen hfits).error, fun stop seen rest h => ?_⟩
    exact hfits (fills_pod.mp h).1

/-- A structure covers its item when what is behind it covers what it asks for. -/
lemma coversAt_pod {k : RawType} {after : β → List Nat} {f : Raw T k → Decode β} {s : Cursor}
    (hpos : s.pos ≤ s.buf.length) (hlen : s.buf.length ≤ T.isizeMax)
    (hf : ∀ raw s', readChunkPod T k s = .ok raw s' → s'.buf = s.buf → s'.pos ≤ s'.buf.length →
      CoversAt T s' seen after (behind k raw) (f raw)) :
    CoversAt T s seen after [.pod k] (readChunkPod T k >>= f) := by
  obtain ⟨raw, s', hok, hbuf, hpos', hfills⟩ | ⟨⟨e, s', herr⟩, hnot⟩ :=
    readChunkPod_fills k hpos hlen
  · have hraw := hf raw s' hok hbuf hpos'
    refine ⟨fun b s'' h => ?_, fun stop rest => ?_⟩
    · rw [bind_ok hok] at h
      obtain ⟨hbuf', hpos''⟩ := hraw.inside b s'' h
      exact ⟨hbuf'.trans hbuf, hpos''⟩
    · rw [bind_ok hok, ← hbuf]
      rw [← hbuf] at hfills
      exact (hfills stop seen rest).trans (hraw.goes stop rest)
  · refine ⟨fun b s'' h => ?_, fun stop rest => ?_⟩
    · rw [bind_error herr] at h
      cases h
    · rw [bind_error herr]
      exact iff_of_false (hnot stop seen rest) id

/-- The same from everywhere. -/
lemma covers_pod {k : RawType} {after : β → List Nat} {f : Raw T k → Decode β}
    (hf : ∀ raw, Covers T seen after (behind k raw) (f raw)) :
    Covers T seen after [.pod k] (readChunkPod T k >>= f) :=
  fun _ hpos hlen => coversAt_pod hpos hlen fun raw self' _ hbuf hpos' =>
    hf raw self' hpos' (hbuf ▸ hlen)

/-- The elements of a list, the threaded value saying which chassis have been sent. -/
lemma covers_chain {k : RawType} {τ : Type} {next : k.Field} {keys : τ → List Nat}
    {own : Raw T k → List Item} {finish : Raw T k → τ → Decode (α × τ)}
    (hbehind : ∀ raw, behind k raw = pointed (raw.usize next) (.pod k) ++ own raw)
    (hf : ∀ raw t, Covers T (keys t) (fun r => keys r.2) (own raw) (finish raw t)) (t : τ) :
    Covers T (keys t) (fun r => keys r.2) [.pod k]
      (chain (readChunkPod T k) (fun raw => raw.usize next != 0) finish
        (advances_readChunkPod k) t) := by
  intro s
  induction s using chain_induction (advances_readChunkPod (T := T) k) with
  | step s ih =>
    intro hpos hlen
    rw [chain_eq]
    refine coversAt_pod hpos hlen fun raw s₁ hx hbuf₁ hpos₁ => ?_
    have hlen₁ : s₁.buf.length ≤ T.isizeMax := hbuf₁ ▸ hlen
    -- the rest of the list covers the next element, if there is one
    have hrest : CoversAt T s₁ (keys t) (fun r => keys r.2) (pointed (raw.usize next) (.pod k))
        (restOf (raw.usize next != 0) (chain (readChunkPod T k) (fun raw => raw.usize next != 0)
          finish (advances_readChunkPod k) t) t) := by
      unfold restOf
      cases hmore : raw.usize next != 0 with
      | true =>
        rw [pointed, if_neg (bne_iff_ne.mp hmore)]
        exact ih raw s₁ hx hpos₁ hlen₁
      | false =>
        rw [pointed, if_pos (bne_eq_false_iff_eq.mp hmore)]
        exact .pure rfl hpos₁
    rw [hbehind]
    refine hrest.bind fun r s₂ _ hbuf₂ hpos₂ => ?_
    exact (hf raw r.2).map (f := fun q => (q.1 :: r.1, q.2)) (fun _ => rfl) s₂ hpos₂
      (hbuf₂ ▸ hlen₁)

/-- The elements of a list without a cache. -/
lemma covers_elements {k : RawType} {next : k.Field} {own : Raw T k → List Item}
    {finish : Raw T k → Decode α}
    (hbehind : ∀ raw, behind k raw = pointed (raw.usize next) (.pod k) ++ own raw)
    (hf : ∀ raw, Covers T seen (fun _ => seen) (own raw) (finish raw)) :
    Covers T seen (fun _ => seen) [.pod k] (elements T next finish) := by
  have hfinish : ∀ raw (_ : Unit),
      Covers T seen (fun _ => seen) (own raw) (finish raw >>= fun a => Pure.pure (a, ())) :=
    fun raw _ => (hf raw).map fun _ => rfl
  exact (covers_chain hbehind hfinish ()).map fun _ => rfl

/-! ## The decoders -/

/-- A text covers a leaf, if the pointer is not null. -/
lemma covers_readOptCstring (ptr : Nat) :
    Covers T seen (fun _ => seen) (pointed ptr .leaf) (readOptCstring T ptr) :=
  .pointed (.pure rfl) (covers_leaf.map fun _ => rfl)

/-- Bytes cover a leaf, if the pointer is not null. -/
lemma covers_readOptBytes (ptr : Nat) :
    Covers T seen (fun _ => seen) (pointed ptr .leaf) (readOptBytes T ptr) :=
  .pointed (.pure rfl) (covers_leaf.map fun _ => rfl)

/-- The list of interfaces covers its root. -/
lemma covers_interfaces : Covers T seen (fun _ => seen) [.pod .interfaceList] (interfaces T) := by
  refine covers_pod fun list => .pointed (.pure rfl) ?_
  refine covers_elements (fun _ => rfl) fun raw => ?_
  exact (covers_readOptCstring _).bind fun name => (covers_readOptCstring _).map fun _ => rfl

/-- The management addresses cover their first structure. -/
lemma covers_decodeMgmtChain : Covers T seen (fun _ => seen) [.pod .mgmt] (decodeMgmtChain T) := by
  refine covers_elements (fun _ => rfl) fun raw => ?_
  rw [finishMgmt_eq]
  exact .pure rfl

/-- A chassis covers its structure. -/
lemma covers_decodeChassis : Covers T seen (fun _ => seen) [.pod .chassis] (decodeChassis T) := by
  refine covers_pod fun raw => ?_
  refine (covers_readOptBytes _).bind fun id => (covers_readOptCstring _).bind fun name => ?_
  refine (covers_readOptCstring _).bind fun description => ?_
  refine (Covers.pointed_ne covers_decodeMgmtChain (.pure rfl)).bind fun mgmt => ?_
  refine (covers_readOptCstring _).bind fun hw => (covers_readOptCstring _).bind fun fw => ?_
  refine (covers_readOptCstring _).bind fun sw => (covers_readOptCstring _).bind fun sn => ?_
  refine (covers_readOptCstring _).bind fun manuf => (covers_readOptCstring _).bind fun model => ?_
  exact (covers_readOptCstring _).map fun _ => rfl

/-- A location covers its items. -/
lemma covers_decodeMedLocationMarker (loc : Raw T .medLoc) :
    Covers T seen (fun _ => seen) (medLocItems loc) (decodeMedLocationMarker T loc) :=
  covers_marker.bind fun _ => (covers_readOptBytes _).map fun _ => rfl

/-- The VLANs cover their first structure. -/
lemma covers_discardVlanChain : Covers T seen (fun _ => seen) [.pod .vlan] (discardVlanChain T) :=
  (covers_elements (fun _ => rfl) fun _ => covers_readOptCstring _).map fun _ => rfl

/-- The PPVIDs cover their first structure. -/
lemma covers_discardPpvidChain : Covers T seen (fun _ => seen) [.pod .ppvid] (discardPpvidChain T) :=
  (covers_elements (fun _ => rfl) fun _ => .pure rfl).map fun _ => rfl

/-- The protocol identities cover their first structure. -/
lemma covers_discardPiChain : Covers T seen (fun _ => seen) [.pod .pi] (discardPiChain T) :=
  (covers_elements (fun _ => rfl) fun _ => covers_readOptBytes _).map fun _ => rfl

/-- What a port sends after its chassis covers its items. -/
lemma covers_portRest (raw : Raw T .port) :
    Covers T seen (fun _ => seen) (portItems raw) (portRest T raw) := by
  refine (covers_readOptBytes _).bind fun id => (covers_readOptCstring _).bind fun description => ?_
  refine (covers_readOptCstring _).bind fun pattern => ?_
  refine (covers_decodeMedLocationMarker _).bind fun _ => ?_
  refine (covers_decodeMedLocationMarker _).bind fun _ => ?_
  refine (covers_decodeMedLocationMarker _).bind fun _ => ?_
  refine (Covers.pointed_ne covers_discardVlanChain (.pure rfl)).bind fun _ => ?_
  refine (Covers.pointed_ne covers_discardPpvidChain (.pure rfl)).bind fun _ => ?_
  exact (Covers.pointed_ne covers_discardPiChain (.pure rfl)).map fun _ => rfl

end

/-! ## Ports -/

/-- The pointers of the chassis that have been sent. -/
def ChassisCache.keys (cache : ChassisCache) : List Nat := cache.map Prod.fst

section
variable {α : Type} {seen seen' : List Nat} {items items' : List Item}

/-- Items that are filled by the same. -/
lemma CoversAt.congr {s : Cursor} {after : α → List Nat} {d : Decode α}
    (h : ∀ stop rest, Fills T s.buf stop s.pos seen (items ++ rest) ↔
      Fills T s.buf stop s.pos seen' (items' ++ rest))
    (hd : CoversAt T s seen' after items' d) : CoversAt T s seen after items d :=
  ⟨hd.inside, fun stop rest => (h stop rest).trans (hd.goes stop rest)⟩

/-- The chassis of a port covers its item, and the cache holds the chassis that have been sent. -/
lemma covers_portChassis {ptr : Nat} (hptr : ptr ≠ 0) (cache : ChassisCache) :
    Covers T cache.keys (fun r => r.2.keys) [.chassis ptr] (portChassis T ptr cache) := by
  intro self hpos hlen
  unfold portChassis
  rw [if_neg hptr]
  cases hget : cache.get ptr with
  | some cached =>
    have hmem : ptr ∈ cache.keys := by
      by_contra hmem
      rw [get_eq_none.mpr hmem] at hget
      cases hget
    exact .congr (fun _ _ => fills_known hptr hmem) (.pure rfl hpos)
  | none =>
    have hmem : ptr ∉ cache.keys := get_eq_none.mp hget
    have hchassis : Covers T (ptr :: cache.keys)
        (fun r : Option (Arc Chassis) × ChassisCache => r.2.keys) [.pod .chassis]
        (decodeChassis T >>= fun chassis =>
          Pure.pure (some (cache.alloc chassis), cache.insert ptr (cache.alloc chassis))) :=
      covers_decodeChassis.map fun _ => rfl
    exact .congr (fun _ _ => fills_unknown hptr hmem) (hchassis self hpos hlen)

/-- A port has a chassis exactly when its pointer is not null. -/
lemma decodePortFields_chassis {raw : Raw T .port} {cache : ChassisCache}
    {r : PortFields × ChassisCache} {self self' : Cursor}
    (h : decodePortFields T raw cache self = .ok r self') :
    r.1.chassis = none ↔ raw.usize .pChassis = 0 := by
  obtain ⟨⟨chassis, cache₁⟩, self₁, hchassis, h₁⟩ := bind_eq_ok h
  obtain ⟨⟨id, description⟩, self₂, hrest, h₂⟩ := bind_eq_ok h₁
  cases h₂
  show chassis = none ↔ _
  unfold portChassis at hchassis
  split at hchassis
  case isTrue hptr =>
    cases hchassis
    exact iff_of_true rfl hptr
  case isFalse hptr =>
    refine iff_of_false (fun hnone => ?_) hptr
    subst hnone
    cases hget : cache.get (raw.usize .pChassis) with
    | some cached =>
      rw [hget] at hchassis
      cases hchassis
    | none =>
      rw [hget] at hchassis
      obtain ⟨_, _, _, hpure⟩ := bind_eq_ok hchassis
      cases hpure

/-- What a port points to covers its items. -/
lemma covers_decodePortFields (raw : Raw T .port) (cache : ChassisCache) :
    Covers T cache.keys (fun r => r.2.keys)
      (pointed (raw.usize .pChassis) (.chassis (raw.usize .pChassis)) ++ portItems raw)
      (decodePortFields T raw cache) := by
  have hchassis : Covers T cache.keys (fun r => r.2.keys)
      (pointed (raw.usize .pChassis) (.chassis (raw.usize .pChassis)))
      (portChassis T (raw.usize .pChassis) cache) := by
    by_cases hptr : raw.usize .pChassis = 0
    · rw [pointed, portChassis, if_pos hptr, if_pos hptr]
      exact .pure rfl
    · rw [pointed, if_neg hptr]
      exact covers_portChassis hptr cache
  exact hchassis.bind fun r => (covers_portRest raw).map fun _ => rfl

/-- A neighbor covers its items, and its chassis is not null. -/
lemma covers_buildNeighbor (raw : Raw T .port) (cache : ChassisCache) :
    Covers T cache.keys (fun r => r.2.keys) (.chassis (raw.usize .pChassis) :: portItems raw)
      (buildNeighbor T raw cache) := by
  intro self hpos hlen
  have hfields := covers_decodePortFields raw cache self hpos hlen
  by_cases hptr : raw.usize .pChassis = 0
  · -- without a chassis nothing is accepted, as the grammar says
    have herr : ∀ a self', buildNeighbor T raw cache self ≠ .ok a self' := by
      intro a self' h
      obtain ⟨⟨fields, cache₁⟩, self₁, hf, h₁⟩ := bind_eq_ok h
      have hnone : fields.chassis = none := (decodePortFields_chassis hf).mpr hptr
      dsimp only at h₁
      rw [hnone] at h₁
      cases h₁
    rw [hptr]
    refine ⟨fun a self' h => absurd h (herr a self'), fun stop rest => ?_⟩
    refine iff_of_false not_fills_null fun h => ?_
    cases hx : buildNeighbor T raw cache self with
    | ok a self' => exact herr a self' hx
    | error e self' =>
      rw [hx] at h
      exact h
  · rw [pointed, if_neg hptr] at hfields
    rw [← List.append_nil (Item.chassis _ :: _)]
    refine hfields.bind fun r self' hx hbuf hpos' => ?_
    have hsome := mt (decodePortFields_chassis hx).mp hptr
    obtain ⟨⟨chassis, id, description⟩, cache₁⟩ := r
    cases chassis with
    | none => exact absurd rfl hsome
    | some chassis => exact .pure rfl hpos'

/-- The neighbors cover their first structure. -/
lemma covers_decodeNeighborChain (cache : ChassisCache) :
    Covers T cache.keys (fun r => r.2.keys) [.pod .port] (decodeNeighborChain T cache) :=
  covers_chain (fun _ => rfl) covers_buildNeighbor cache

end

/-! ## Whole payloads -/

/-- From `s` on the decoder succeeds exactly when its items take the payload up to where it ends. -/
structure Accepts (T : Target) (s : Cursor) {α : Type} (seen : List Nat) (items : List Item)
    (d : Decode α) : Prop where
  inside : ∀ a s', d s = .ok a s' → s'.buf = s.buf ∧ s'.pos ≤ s'.buf.length
  ends : ∀ stop, Fills T s.buf stop s.pos seen items ↔ ∃ a s', d s = .ok a s' ∧ s'.pos = stop

section
variable {α β : Type} {seen : List Nat} {items items' : List Item} {s : Cursor}

/-- What covers its items accepts them. -/
lemma CoversAt.accepts {after : α → List Nat} {d : Decode α} (h : CoversAt T s seen after items d) :
    Accepts T s seen items d := by
  refine ⟨h.inside, fun stop => ?_⟩
  have hgoes := h.goes stop []
  rw [List.append_nil] at hgoes
  rw [hgoes]
  cases hx : d s with
  | ok a s' =>
    refine fills_nil.trans ⟨fun hstop => ⟨a, s', rfl, hstop⟩, ?_⟩
    rintro ⟨b, s'', hok, hstop⟩
    cases hok
    exact hstop
  | error e s' => exact iff_of_false id (by rintro ⟨b, s'', hok, -⟩; cases hok)

/-- A step that covers its items and then one that accepts its own. -/
lemma CoversAt.bind_accepts {mid : α → List Nat} {d : Decode α} {f : α → Decode β}
    (hd : CoversAt T s seen mid items d)
    (hf : ∀ a s', d s = .ok a s' → s'.buf = s.buf → s'.pos ≤ s'.buf.length →
      Accepts T s' (mid a) items' (f a)) : Accepts T s seen (items ++ items') (d >>= f) := by
  refine ⟨fun b s'' h => ?_, fun stop => ?_⟩
  · obtain ⟨a, s', hx, hy⟩ := bind_eq_ok h
    obtain ⟨hbuf, hpos⟩ := hd.inside a s' hx
    obtain ⟨hbuf', hpos'⟩ := (hf a s' hx hbuf hpos).inside b s'' hy
    exact ⟨hbuf'.trans hbuf, hpos'⟩
  · rw [hd.goes]
    cases hx : d s with
    | ok a s' =>
      obtain ⟨hbuf, hpos⟩ := hd.inside a s' hx
      rw [bind_ok hx, ← hbuf]
      exact (hf a s' hx hbuf hpos).ends stop
    | error e s' =>
      rw [bind_error hx]
      exact iff_of_false id (by rintro ⟨b, s'', hok, -⟩; cases hok)

/-- The last step consumes nothing. -/
lemma Accepts.map {d : Decode α} {f : α → β} (hd : Accepts T s seen items d) :
    Accepts T s seen items (d >>= fun a => Pure.pure (f a)) := by
  refine ⟨fun b s'' h => ?_, fun stop => ?_⟩
  · obtain ⟨a, s', hx, hy⟩ := bind_eq_ok h
    cases hy
    exact hd.inside a s'' hx
  · rw [hd.ends]
    refine ⟨fun ⟨a, s', hx, hstop⟩ => ⟨f a, s', bind_ok hx, hstop⟩, ?_⟩
    rintro ⟨b, s'', h, hstop⟩
    obtain ⟨a, s', hx, hy⟩ := bind_eq_ok h
    cases hy
    exact ⟨a, s'', hx, hstop⟩

/-- What is refused whatever comes. -/
lemma accepts_never {e : Fault} :
    Accepts T s seen (.never :: items) (MonadExcept.throw e : Decode α) := by
  refine ⟨nofun, fun stop => iff_of_false not_fills_never ?_⟩
  rintro ⟨a, s', h, -⟩
  cases h

/-- A structure accepts its item when what is behind it accepts what it asks for. -/
lemma accepts_pod {k : RawType} {f : Raw T k → Decode β} (hpos : s.pos ≤ s.buf.length)
    (hlen : s.buf.length ≤ T.isizeMax)
    (hf : ∀ raw s', readChunkPod T k s = .ok raw s' → s'.buf = s.buf → s'.pos ≤ s'.buf.length →
      Accepts T s' seen (behind k raw) (f raw)) :
    Accepts T s seen [.pod k] (readChunkPod T k >>= f) := by
  obtain ⟨raw, s', hok, hbuf, hpos', hfills⟩ | ⟨⟨e, s', herr⟩, hnot⟩ :=
    readChunkPod_fills k hpos hlen
  · have hraw := hf raw s' hok hbuf hpos'
    refine ⟨fun b s'' h => ?_, fun stop => ?_⟩
    · rw [bind_ok hok] at h
      obtain ⟨hbuf', hpos''⟩ := hraw.inside b s'' h
      exact ⟨hbuf'.trans hbuf, hpos''⟩
    · have hrest := hfills stop seen []
      rw [List.append_nil] at hrest
      rw [bind_ok hok, hrest]
      exact hraw.ends stop
  · refine ⟨fun b s'' h => ?_, fun stop => ?_⟩
    · rw [bind_error herr] at h
      cases h
    · rw [bind_error herr]
      exact iff_of_false (hnot stop seen []) (by rintro ⟨b, s'', hok, -⟩; cases hok)

end

section
variable {s : Cursor} (hpos : s.pos ≤ s.buf.length) (hlen : s.buf.length ≤ T.isizeMax)
include hpos hlen

/-- The details of an interface accept their items. -/
lemma accepts_hardwareFields {k : RawType} [HardwareFields k] (raw : Raw T k) :
    Accepts T s [] (hardwareItems raw) (hardwareFields T raw) := by
  refine (covers_marker s hpos hlen).bind_accepts fun _ s₁ _ hbuf₁ hpos₁ => ?_
  have hlen₁ : s₁.buf.length ≤ T.isizeMax := hbuf₁ ▸ hlen
  by_cases hnext : raw.hLport.usize .tqeNext = 0
  · rw [pointed, if_pos hnext, if_neg (not_not.mpr hnext), List.nil_append]
    refine (covers_decodePortFields raw.hLport [] s₁ hpos₁ hlen₁).bind_accepts
      fun r s₂ _ hbuf₂ hpos₂ => ?_
    have hlen₂ : s₂.buf.length ≤ T.isizeMax := hbuf₂ ▸ hlen₁
    have hneighbors : Covers T r.2.keys (fun q => q.2.keys) (pointed raw.hRportsTqhFirst (.pod .port))
        (if raw.hRportsTqhFirst ≠ 0 then decodeNeighborChain T r.2 else Pure.pure ([], r.2)) :=
      .pointed_ne (covers_decodeNeighborChain r.2) (.pure rfl)
    refine (hneighbors s₂ hpos₂ hlen₂).bind_accepts fun q s₃ _ hbuf₃ hpos₃ => ?_
    have hlen₃ : s₃.buf.length ≤ T.isizeMax := hbuf₃ ▸ hlen₂
    rw [untilNul_eq]
    exact (covers_readOptCstring raw.hIfalias s₃ hpos₃ hlen₃).accepts.map
  · rw [pointed, if_neg hnext, if_pos hnext]
    exact accepts_never

/-- A payload is accepted exactly when it is what one of these structures asks for, to its end. -/
lemma accepts_hardware {k : RawType} [HardwareFields k]
    (hbehind : ∀ raw : Raw T k, behind k raw = hardwareItems raw) :
    Accepts T s [] [.pod k] (readChunkPod T k >>= hardwareFields T) := by
  refine accepts_pod hpos hlen fun raw s₁ _ hbuf₁ hpos₁ => ?_
  rw [hbehind]
  exact accepts_hardwareFields hpos₁ (hbuf₁ ▸ hlen) raw

end

section
variable {p : List UInt8} (hlen : p.length ≤ T.isizeMax)
include hlen

/-- A list of interfaces is accepted exactly when some of the payload is one. -/
lemma decodeInterfaces_ok :
    (∃ v, decodeInterfaces T p = .ok v) ↔ ∃ stop, Fills T p stop 0 [] [.pod .interfaceList] := by
  have hcovers : Covers T [] (fun _ => []) [.pod .interfaceList] (interfaces T) := covers_interfaces
  have hends := (hcovers (Cursor.new p) (Nat.zero_le _) hlen).accepts.ends
  refine ⟨fun ⟨v, hv⟩ => ?_, fun ⟨stop, hfills⟩ => ?_⟩
  · obtain ⟨stop, self, hok, hstop⟩ := decode_eq_ok.mp hv
    exact ⟨stop, (hends stop).mpr ⟨v, self, hok, hstop⟩⟩
  · obtain ⟨v, self, hok, hstop⟩ := (hends stop).mp hfills
    exact ⟨v, decode_eq_ok.mpr ⟨stop, self, hok, hstop⟩⟩

/-- The details of an interface are accepted exactly when all of the payload is such a structure with
what it asks for. -/
lemma decodeHardwareAs_ok {k : RawType} [HardwareFields k]
    (hbehind : ∀ raw : Raw T k, behind k raw = hardwareItems raw) :
    (∃ v, decodeHardwareAs T k p = .ok v) ↔ Fills T p p.length 0 [] [.pod k] := by
  have haccepts := accepts_hardware (s := Cursor.new p) (Nat.zero_le _) hlen hbehind
  have hassoc : hardware T k = (readChunkPod T k >>= hardwareFields T) >>= requireExhausted :=
    (bind_assoc _ _ _).symm
  refine ⟨fun ⟨v, hv⟩ => ?_, fun hfills => ?_⟩
  · obtain ⟨_, self, hok, -⟩ := decode_eq_ok.mp hv
    rw [hassoc] at hok
    obtain ⟨details, self', hfields, hend⟩ := bind_eq_ok hok
    rw [requireExhausted_eq] at hend
    split at hend
    case isTrue hpos =>
      refine (haccepts.ends p.length).mpr ⟨details, self', hfields, ?_⟩
      rw [hpos, (haccepts.inside details self' hfields).1]
      rfl
    case isFalse => cases hend
  · obtain ⟨v, self, hok, hstop⟩ := (haccepts.ends p.length).mp hfills
    have hbuf : self.buf = p := (haccepts.inside v self hok).1
    refine ⟨v, decode_eq_ok.mpr ⟨p.length, self, ?_, hstop⟩⟩
    rw [hassoc, bind_ok hok, requireExhausted_eq, if_pos (by rw [hstop, hbuf])]

end

end Rlldpctl.Wire
