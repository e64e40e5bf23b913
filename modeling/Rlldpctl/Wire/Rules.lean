import Rlldpctl.Wire.Decode

/-!
# Rules for all decoders

A property of decoders that holds of the chunk readers and is kept by sequencing and by chains holds of
every decoder: `Rules` is what has to be shown, and the lemmas about it go through the decoders once, for
all properties. The first is that no decoder panics on a payload that fits a slice.
-/

namespace Rlldpctl.Wire
open ByteReader CLayout NativeBytes Utf8

/-- What makes a property hold of the decoders that read structures of the kinds `K` only. -/
structure Rules (T : Target) (K : RawType → Prop) (P : ∀ {α : Type}, Decode α → Prop) : Prop where
  pure : ∀ {α : Type} (a : α), P (Pure.pure a : Decode α)
  throw : ∀ {α : Type} (msg : String), P (throw (protocol msg) : Decode α)
  bind : ∀ {α β : Type} {d : Decode α} {f : α → Decode β}, P d → (∀ a, P (f a)) → P (d >>= f)
  leaf : P (leaf T)
  marker : P (consumeSubstructMarker T)
  pod : ∀ k : RawType, K k → P (readChunkPod T k)
  chain : ∀ {k : RawType} {α τ : Type} {more : Raw T k → Bool}
    {finish : Raw T k → τ → Decode (α × τ)}, K k → (∀ raw t, P (finish raw t)) →
    ∀ t, P (chain (readChunkPod T k) more finish (advances_readChunkPod k) t)

/-- Structures of every kind. -/
def anyKind (_ : RawType) : Prop := True

namespace Rules
variable {T : Target} {K : RawType → Prop} {P : ∀ {α : Type}, Decode α → Prop}

/-- The rule for a branch. -/
lemma ite {α : Type} {c : Prop} [Decidable c] {d d' : Decode α} (hd : P d) (hd' : P d') :
    P (if c then d else d') := by
  split
  · exact hd
  · exact hd'

variable (r : Rules T K P)
include r

/-- The rule for a text. -/
lemma readOptCstring (ptrField : Nat) : P (readOptCstring T ptrField) :=
  ite (r.pure none) (r.bind r.leaf fun p => r.pure (some (fromUtf8Lossy (stripNul p.2))))

/-- The rule for bytes. -/
lemma readOptBytes (ptrField : Nat) : P (readOptBytes T ptrField) :=
  ite (r.pure none) (r.bind r.leaf fun p => r.pure (some p.2))

/-- The rule for a list, from the rule for what follows each element. -/
lemma elements {k : RawType} {α : Type} {next : k.Field} {finish : Raw T k → Decode α} (hk : K k)
    (hf : ∀ raw, P (finish raw)) : P (elements T next finish) :=
  r.bind (r.chain hk (fun raw _ => r.bind (hf raw) fun a => r.pure (a, ())) ()) fun p => r.pure p.1

/-- The rule for what follows an interface. -/
lemma finishInterface (raw : Raw T .interface) : P (finishInterface T raw) :=
  r.bind (r.readOptCstring _) fun _ => r.bind (r.readOptCstring _) fun _ => r.pure _

/-- The rule for what follows a management address. -/
lemma finishMgmt (raw : Raw T .mgmt) : P (finishMgmt T raw) := by
  rw [finishMgmt_eq]
  exact r.pure _

/-- The rule for the management addresses of a chassis. -/
lemma decodeMgmtChain (hmgmt : K .mgmt) : P (decodeMgmtChain T) :=
  r.elements hmgmt r.finishMgmt

/-- After its own structure `decode_chassis` reads no structures but management addresses. -/
lemma decodeChassis_eq (hmgmt : K .mgmt) :
    ∃ f, decodeChassis T = readChunkPod T .chassis >>= f ∧ ∀ raw, P (f raw) := by
  refine ⟨_, rfl, fun raw => ?_⟩
  refine r.bind (r.readOptBytes _) fun id => ?_
  refine r.bind (r.readOptCstring _) fun name => ?_
  refine r.bind (r.readOptCstring _) fun description => ?_
  refine r.bind (ite (r.decodeMgmtChain hmgmt) (r.pure [])) fun mgmt => ?_
  refine r.bind (r.readOptCstring _) fun hw => ?_
  refine r.bind (r.readOptCstring _) fun fw => ?_
  refine r.bind (r.readOptCstring _) fun sw => ?_
  refine r.bind (r.readOptCstring _) fun sn => ?_
  refine r.bind (r.readOptCstring _) fun manuf => ?_
  refine r.bind (r.readOptCstring _) fun model => ?_
  exact r.bind (r.readOptCstring _) fun _ => r.pure _

/-- The rule for a chassis. -/
lemma decodeChassis (hchassis : K .chassis) (hmgmt : K .mgmt) : P (decodeChassis T) := by
  obtain ⟨f, heq, hf⟩ := r.decodeChassis_eq hmgmt
  rw [heq]
  exact r.bind (r.pod .chassis hchassis) hf

/-- The rule for the marker of a location and what follows it. -/
lemma decodeMedLocationMarker (loc : Raw T .medLoc) : P (decodeMedLocationMarker T loc) :=
  r.bind r.marker fun _ => r.bind (r.readOptBytes _) fun _ => r.pure ()

/-- The rule for the VLANs of a port. -/
lemma discardVlanChain (hvlan : K .vlan) : P (discardVlanChain T) :=
  r.bind (r.elements hvlan fun _ => r.readOptCstring _) fun _ => r.pure ()

/-- The rule for the PPVIDs of a port. -/
lemma discardPpvidChain (hppvid : K .ppvid) : P (discardPpvidChain T) :=
  r.bind (r.elements hppvid fun _ => r.pure ()) fun _ => r.pure ()

/-- The rule for the protocol identities of a port. -/
lemma discardPiChain (hpi : K .pi) : P (discardPiChain T) :=
  r.bind (r.elements hpi fun _ => r.readOptBytes _) fun _ => r.pure ()

/-- The rule for what a port sends after its chassis. -/
lemma portRest (hvlan : K .vlan) (hppvid : K .ppvid) (hpi : K .pi) (raw : Raw T .port) :
    P (portRest T raw) := by
  refine r.bind (r.readOptBytes _) fun id => ?_
  refine r.bind (r.readOptCstring _) fun description => ?_
  refine r.bind (r.readOptCstring _) fun pattern => ?_
  refine r.bind (r.decodeMedLocationMarker _) fun _ => ?_
  refine r.bind (r.decodeMedLocationMarker _) fun _ => ?_
  refine r.bind (r.decodeMedLocationMarker _) fun _ => ?_
  refine r.bind (ite (r.discardVlanChain hvlan) (r.pure ())) fun _ => ?_
  refine r.bind (ite (r.discardPpvidChain hppvid) (r.pure ())) fun _ => ?_
  exact r.bind (ite (r.discardPiChain hpi) (r.pure ())) fun _ => r.pure (id, description)

variable (hK : ∀ k, K k)
include hK

/-- The rule for the list of interfaces. -/
lemma interfaces : P (interfaces T) :=
  r.bind (r.pod .interfaceList (hK _)) fun _ =>
    ite (r.pure []) (r.elements (hK _) r.finishInterface)

/-- The rule for the chassis of a port, sent before or now. -/
lemma portChassis (ptr : Nat) (cache : ChassisCache) : P (portChassis T ptr cache) := by
  refine ite (r.pure _) ?_
  cases cache.get ptr with
  | some cached => exact r.pure _
  | none => exact r.bind (r.decodeChassis (hK _) (hK _)) fun _ => r.pure _

/-- The rule for what a port points to. -/
lemma decodePortFields (raw : Raw T .port) (cache : ChassisCache) :
    P (decodePortFields T raw cache) :=
  r.bind (r.portChassis hK _ cache) fun _ =>
    r.bind (r.portRest (hK _) (hK _) (hK _) raw) fun _ => r.pure _

/-- The rule for a neighbor. -/
lemma buildNeighbor (raw : Raw T .port) (cache : ChassisCache) : P (buildNeighbor T raw cache) := by
  refine r.bind (r.decodePortFields hK raw cache) fun p => ?_
  obtain ⟨⟨chassis, id, description⟩, cache'⟩ := p
  cases chassis with
  | none => exact r.throw _
  | some chassis => exact r.pure _

/-- The rule for the neighbors of an interface. -/
lemma decodeNeighborChain (cache : ChassisCache) : P (decodeNeighborChain T cache) :=
  r.chain (hK _) (r.buildNeighbor hK) cache

/-- The rule for the details of an interface, without the check that follows them. -/
lemma hardwareFields {k : RawType} [HardwareFields k] (raw : Raw T k) :
    P (hardwareFields T raw) := by
  refine r.bind r.marker fun _ => ite (r.throw _) ?_
  refine r.bind (r.decodePortFields hK _ _) fun p => ?_
  refine r.bind (ite (r.decodeNeighborChain hK p.2) (r.pure ([], p.2))) fun q => ?_
  refine r.bind (r.readOptCstring _) fun _ => ?_
  rw [untilNul_eq]
  exact r.pure _

/-- The rule for the details of an interface. -/
lemma hardware (h : ∀ details, P (requireExhausted details)) (k : RawType) [HardwareFields k] :
    P (hardware T k) :=
  r.bind (r.pod k (hK k)) fun raw => r.bind (r.hardwareFields hK raw) h

/-- The rule for what follows a notified port. -/
lemma finishNotified (raw : Raw T .port) : P (finishNotified T raw) :=
  ite (r.throw _) (r.bind (r.buildNeighbor hK raw []) fun p => r.pure p.1)

/-- The rule for the neighbor of a notification. -/
lemma notifiedNeighbor (ptr : Nat) : P (notifiedNeighbor T ptr) :=
  ite (r.pure none) (r.bind (r.pod .port (hK _)) fun raw =>
    r.bind (r.finishNotified hK raw) fun neighbor => r.pure (some neighbor))

/-- The rule for a notification. -/
lemma neighborChange : P (neighborChange T) := by
  refine r.bind (r.pod .neighborChange (hK _)) fun raw => ?_
  refine r.bind (r.readOptCstring _) fun name => ?_
  refine r.bind (r.readOptCstring _) fun ifalias => ?_
  exact r.bind (r.notifiedNeighbor hK _) fun neighbor => r.pure _

end Rules

/-! ## No panic -/

variable {T : Target}

/-- A protocol error is no panic. -/
lemma protocol_ne_panic (msg : String) : protocol msg ≠ .panic := nofun

/-- Looking at the cursor is safe. -/
lemma safe_get : Safely T (get : Decode Cursor) :=
  fun self hin _ => ⟨.refl self, hin⟩

/-- Every kind of structure is allowed. -/
lemma all_anyKind : ∀ k, anyKind k := fun _ => trivial

/-- Safety is kept by all rules. -/
lemma rules_safely (T : Target) : Rules T anyKind (Safely T) where
  pure a := .pure a
  throw msg := .throw (protocol_ne_panic msg)
  bind hd hf := .bind hd hf
  leaf := safe_leaf
  marker := safe_consumeSubstructMarker
  pod _ _ := safe_readChunkPod
  chain _ hf t := safe_chain safe_readChunkPod hf t

/-- The check for bytes left over is safe. -/
lemma safe_requireExhausted (details : InterfaceDetails) : Safely T (requireExhausted details) :=
  .bind safe_get fun _ => .ite (.throw (protocol_ne_panic _)) (.pure _)

/-- A safe decoder does not panic on a payload that fits a slice. -/
lemma decode_ne_panic {α : Type} {d : Decode α} (hd : Safely T d) {payload : List UInt8}
    (hlen : payload.length ≤ T.isizeMax) : decode d payload ≠ .error .panic := by
  have h := hd (Cursor.new payload) (Nat.zero_le _) hlen
  unfold decode
  cases hx : d (Cursor.new payload) with
  | ok a s => nofun
  | error e s =>
    rw [hx] at h
    intro he
    cases he
    exact h.2 rfl

/-! ## Payloads -/

/-- On the payload `p` the decoder returns `v` and ends at the offset `k`. -/
def DecodesTo {α : Type} (d : Decode α) (p : List UInt8) (v : α) (k : Nat) : Prop :=
  ∃ self : Cursor, d (Cursor.new p) = .ok v self ∧ self.pos = k

section
variable {α : Type} {d : Decode α} {p : List UInt8} {v : α} {k : Nat}

/-- A payload is decoded when some run over it ends well. -/
lemma decode_eq_ok : decode d p = .ok v ↔ ∃ k, DecodesTo d p v k := by
  unfold decode DecodesTo
  cases hx : d (Cursor.new p) with
  | ok a self =>
    refine ⟨fun h => ?_, fun ⟨k, self', h, hk⟩ => ?_⟩
    · cases h
      exact ⟨self.pos, self, rfl, rfl⟩
    · cases h
      rfl
  | error e self =>
    refine ⟨fun h => ?_, fun ⟨k, self', h, hk⟩ => ?_⟩
    · cases h
    · cases h

/-- A run that ends well decodes the payload. -/
lemma DecodesTo.decode_eq (h : DecodesTo d p v k) : decode d p = .ok v :=
  decode_eq_ok.mpr ⟨k, h⟩

end

end Rlldpctl.Wire
