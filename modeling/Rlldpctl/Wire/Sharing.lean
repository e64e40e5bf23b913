import Rlldpctl.Wire.ReadsTree

/-!
# Sharing

The chassis cache against the keys the serializer has come across. `Cached` says that the cache holds
exactly the chassis serialized so far, each under the pointer value that stands for it and at the address
given by `order`, the order in which all keys of the message come up. The value of a port's chassis is
then the same wherever the port stands in the message.
-/

namespace Rlldpctl.Wire
open ByteReader CLayout Nesting NativeBytes Utf8

variable {T : Target} {κ : Type}

/-- The keys serialized so far. -/
def Marshaller.seen (st : Marshaller κ) : List κ := st.refs.map Prod.fst

section
variable [DecidableEq κ] (nm : Naming T) (heap : κ → ChassisNode T) (order : List κ)

/-- The cache of a decoder that has read what was serialized so far. Pointer values tell chassis apart
as long as there are no more chunks than bytes in a buffer. -/
structure Cached (st : Marshaller κ) (cache : ChassisCache) : Prop where
  seen : st.seen <+: order
  length : cache.length = st.refs.length
  numbered : ∀ r ∈ st.refs, 0 < r.2 ∧ r.2 ≤ st.count
  hit : st.count ≤ T.isizeMax → ∀ key o, st.refs.lookup key = some o →
    cache.get (nm.ptr o % 256 ^ T.ptrSize) = some (arcOf heap order key)
  miss : st.count ≤ T.isizeMax → ∀ v c, cache.get v = some c →
    ∃ r ∈ st.refs, v = nm.ptr r.2 % 256 ^ T.ptrSize

variable {nm heap order}

/-- At first nothing is cached. -/
lemma Cached.empty (count : Nat) : Cached nm heap order ⟨count, []⟩ [] where
  seen := List.nil_prefix
  length := rfl
  numbered _ hr := absurd hr List.not_mem_nil
  hit _ _ _ h := by cases h
  miss _ _ _ h := by cases h

/-- Chunks that are not chassis leave the cache as it is. -/
lemma Cached.mono {st st' : Marshaller κ} {cache : ChassisCache}
    (h : Cached nm heap order st cache) (hrefs : st'.refs = st.refs) (hle : st.count ≤ st'.count) :
    Cached nm heap order st' cache where
  seen := by
    rw [Marshaller.seen, hrefs]
    exact h.seen
  length := by
    rw [hrefs]
    exact h.length
  numbered r hr := by
    obtain ⟨hpos, hcount⟩ := h.numbered r (hrefs ▸ hr)
    exact ⟨hpos, hcount.trans hle⟩
  hit hmax key o hkey := h.hit (hle.trans hmax) key o (hrefs ▸ hkey)
  miss hmax v c hv := by
    rw [hrefs]
    exact h.miss (hle.trans hmax) v c hv

/-- What is looked up is in the list. -/
lemma lookup_mem {refs : List (κ × Nat)} {key : κ} {o : Nat} (h : refs.lookup key = some o) :
    (key, o) ∈ refs := by
  obtain ⟨as, bs, rfl, -⟩ := List.lookup_eq_some_iff.mp h
  exact List.mem_append_right as List.mem_cons_self

/-- A key that is found has been seen. -/
lemma mem_seen_of_lookup {st : Marshaller κ} {key : κ} {o : Nat}
    (h : st.refs.lookup key = some o) : key ∈ st.seen :=
  List.mem_map.mpr ⟨(key, o), lookup_mem h, rfl⟩

/-- A key that is not found has not been seen. -/
lemma not_mem_seen_of_lookup {st : Marshaller κ} {key : κ} (h : st.refs.lookup key = none) :
    key ∉ st.seen := by
  intro hmem
  obtain ⟨r, hr, rfl⟩ := List.mem_map.mp hmem
  have hne := List.lookup_eq_none_iff.mp h r hr
  exact (bne_iff_ne.mp hne) rfl

/-- A chassis is found under the pointer it was kept under. -/
lemma get_insert_self (cache : ChassisCache) (v : Nat) (c : Arc Chassis) :
    (cache.insert v c).get v = some c :=
  List.lookup_cons_self

/-- The other pointers are unchanged. -/
lemma get_insert_of_ne (cache : ChassisCache) {v v' : Nat} (c : Arc Chassis) (h : v' ≠ v) :
    (cache.insert v c).get v' = cache.get v' := by
  show List.lookup v' ((v, c) :: cache) = _
  rw [List.lookup_cons, beq_eq_false_iff_ne.mpr h]
  rfl

/-- A key that comes up for the first time. -/
lemma Cached.insert {st : Marshaller κ} {cache : ChassisCache} (hc : Cached nm heap order st cache)
    {key : κ} (hpre : st.seen ++ [key] <+: order) {count : Nat}
    (hcount : st.count + 1 ≤ count) :
    Cached nm heap order ⟨count, st.refs ++ [(key, st.count + 1)]⟩
      (cache.insert (nm.ptr (st.count + 1) % 256 ^ T.ptrSize) (arcOf heap order key)) where
  seen := by
    show (st.refs ++ [(key, st.count + 1)]).map Prod.fst <+: order
    rw [List.map_append]
    exact hpre
  length := by
    show cache.length + 1 = (st.refs ++ [(key, st.count + 1)]).length
    rw [hc.length, List.length_append]
    rfl
  numbered r hr := by
    obtain hr | hr := List.mem_append.mp hr
    · obtain ⟨hpos, hle⟩ := hc.numbered r hr
      exact ⟨hpos, hle.trans ((Nat.le_succ _).trans hcount)⟩
    · rw [List.mem_singleton.mp hr]
      exact ⟨Nat.succ_pos _, hcount⟩
  hit hmax key' o hkey := by
    have hmax' : st.count + 1 ≤ T.isizeMax := hcount.trans hmax
    obtain ho | ⟨hnone, ho⟩ : st.refs.lookup key' = some o ∨
        st.refs.lookup key' = none ∧ [(key, st.count + 1)].lookup key' = some o := by
      rw [List.lookup_append] at hkey
      cases h : st.refs.lookup key' with
      | some o' =>
        rw [h] at hkey
        exact Or.inl hkey
      | none =>
        rw [h] at hkey
        exact Or.inr ⟨rfl, hkey⟩
    · obtain ⟨hpos, hle⟩ := hc.numbered _ (lookup_mem ho)
      have hne : nm.ptr o % 256 ^ T.ptrSize ≠ nm.ptr (st.count + 1) % 256 ^ T.ptrSize := by
        intro heq
        have hinj := nm.inj _ _ hpos (by omega) (Nat.succ_pos _) hmax' heq
        have hle' : o ≤ st.count := hle
        omega
      rw [get_insert_of_ne _ _ hne]
      exact hc.hit ((Nat.le_succ _).trans hmax') key' o ho
    · have hmem := lookup_mem ho
      cases List.mem_singleton.mp hmem
      exact get_insert_self _ _ _
  miss hmax v c hv := by
    have hmax' : st.count + 1 ≤ T.isizeMax := hcount.trans hmax
    by_cases hve : v = nm.ptr (st.count + 1) % 256 ^ T.ptrSize
    · exact ⟨(key, st.count + 1), List.mem_append_right _ List.mem_cons_self, hve⟩
    · rw [get_insert_of_ne _ _ hve] at hv
      obtain ⟨r, hr, hrv⟩ := hc.miss ((Nat.le_succ _).trans hmax') v c hv
      exact ⟨r, List.mem_append_left _ hr, hrv⟩

/-- A shared node that was sent is a pointer only. -/
lemma run_shared_of_some {key : κ} {node : Marshal κ (Nat × List UInt8)} {st : Marshaller κ} {o : Nat}
    (h : st.refs.lookup key = some o) : run (shared nm key node) st = (⟨nm.ptr o, []⟩, st) := by
  simp only [shared, run, bind, StateT.bind, get, getThe, MonadStateOf.get, StateT.get, pure, h]
  rfl

/-- A shared node that was not sent is sent and remembered. -/
lemma run_shared_of_none {key : κ} {node : Marshal κ (Nat × List UInt8)} {st : Marshaller κ}
    (h : st.refs.lookup key = none) :
    run (shared nm key node) st =
      (⟨nm.ptr (run node st).1.1, [(run node st).1.2]⟩,
        ⟨(run node st).2.count, (run node st).2.refs ++ [(key, (run node st).1.1)]⟩) := by
  simp only [shared, run, bind, StateT.bind, get, getThe, MonadStateOf.get, StateT.get, pure, h]
  rfl

/-- A key is added where it comes up first. -/
lemma seen_chassisRef (hT : ReadsWords T) (key : κ) (st : Marshaller κ) :
    (run (chassisRef nm heap key) st).2.seen = visit st.seen key := by
  cases h : st.refs.lookup key with
  | some o =>
    rw [chassisRef, run_shared_of_some h, visit, if_pos (mem_seen_of_lookup h)]
  | none =>
    obtain ⟨-, -, hrefs, -⟩ := behind_chassis hT nm (heap key) st
    rw [chassisRef, run_shared_of_none h, visit, if_neg (not_mem_seen_of_lookup h), Marshaller.seen,
      hrefs, List.map_append]
    rfl

/-- The address of a chassis that is sent now is the number of those sent before. -/
lemma arcOf_new {seen : List κ} {key : κ} (hnew : key ∉ seen) (hpre : seen ++ [key] <+: order) :
    arcOf heap order key = ⟨seen.length, (heap key).value⟩ := by
  obtain ⟨rest, rfl⟩ := hpre
  have hidx : (seen ++ [key] ++ rest).idxOf key = seen.length := by
    rw [List.append_assoc, List.idxOf_append_of_notMem hnew]
    simp
  rw [arcOf, hidx]

variable (nm heap order) in
/-- A pointer and what is behind it decode to `a`, on a decoder that threads the cache through: the keys
`keys` come up, in this order. -/
def Threads {α : Type} (ref : Marshal κ Ref)
    (d : Nat → ChassisCache → Decode (α × ChassisCache)) (keys : List κ) (a : α) : Prop :=
  ∀ st, (run ref st).2.seen = keys.foldl visit st.seen ∧
    ∀ cache, Cached nm heap order st cache → (run ref st).2.seen <+: order →
      ∃ cache', Cached nm heap order (run ref st).2 cache' ∧
        Reading T st.count (d ((run ref st).1.value % 256 ^ T.ptrSize) cache) (run ref st).1.chunks
          (a, cache') (run ref st).2.count

/-- A chassis that has not come up yet is decoded and goes into the cache; one that has is found
there. -/
lemma threads_chassisRef (hT : ReadsWords T) (key : κ) :
    Threads nm heap order (chassisRef nm heap key) (portChassis T) [key]
      (some (arcOf heap order key)) := by
  refine fun st => ⟨seen_chassisRef hT key st, fun cache hc hpre => ?_⟩
  cases h : st.refs.lookup key with
  | some o =>
    rw [chassisRef, run_shared_of_some h]
    refine ⟨cache, hc, le_rfl, fun s hs hn => ?_⟩
    have hmax : st.count ≤ T.isizeMax := hn.trans (hs.pos.trans hs.len)
    obtain ⟨hpos, hle⟩ := hc.numbered _ (lookup_mem h)
    have hne := nm.ne_zero o hpos (hle.trans hmax)
    have hd : portChassis T (nm.ptr o % 256 ^ T.ptrSize) cache =
        pure (some (arcOf heap order key), cache) := by
      rw [portChassis, if_neg hne, hc.hit hmax key o h]
    show Moves (portChassis T (nm.ptr o % 256 ^ T.ptrSize) cache) s _ _ ∧ _
    rw [hd]
    exact (Consumes.pure _).2 s hs hn
  | none =>
    obtain ⟨horig, hnode, hrefs, hle, hread⟩ := behind_chassis hT nm (heap key) st
    have hnew := not_mem_seen_of_lookup h
    rw [seen_chassisRef hT, visit, if_neg hnew] at hpre
    rw [chassisRef, run_shared_of_none h, horig, hrefs]
    have harc : arcOf heap order key = cache.alloc (heap key).value := by
      rw [arcOf_new hnew hpre, ChassisCache.alloc, hc.length, Marshaller.seen, List.length_map]
    refine ⟨cache.insert (nm.ptr (st.count + 1) % 256 ^ T.ptrSize) (arcOf heap order key),
      hc.insert hpre hle, (Nat.le_succ _).trans hle, fun s hs hn => ?_⟩
    obtain ⟨hmax, hne⟩ := nm.ne_zero_of_holds hnode hs hn
    have hmiss : cache.get (nm.ptr (st.count + 1) % 256 ^ T.ptrSize) = none := by
      cases hget : cache.get (nm.ptr (st.count + 1) % 256 ^ T.ptrSize) with
      | none => rfl
      | some c =>
        obtain ⟨r, hr, hv⟩ := hc.miss ((Nat.le_succ _).trans hmax) _ c hget
        obtain ⟨hpos, hle⟩ := hc.numbered r hr
        have heq := nm.inj _ _ (Nat.succ_pos _) hmax hpos (by omega) hv
        omega
    have hd : portChassis T (nm.ptr (st.count + 1) % 256 ^ T.ptrSize) cache =
        decodeChassis T >>= fun chassis => pure (some (cache.alloc chassis),
          cache.insert (nm.ptr (st.count + 1) % 256 ^ T.ptrSize) (cache.alloc chassis)) := by
      rw [portChassis, if_neg hne, hmiss]
    have hmap := reading_pure_map hread fun chassis => (some (cache.alloc chassis),
      cache.insert (nm.ptr (st.count + 1) % 256 ^ T.ptrSize) (cache.alloc chassis))
    show Moves (portChassis T (nm.ptr (st.count + 1) % 256 ^ T.ptrSize) cache) s _ _ ∧ _
    rw [hd, harc]
    exact hmap.2 s hs hn

/-- A null pointer leaves the cache alone. -/
lemma threads_null {α : Type} {d : Nat → ChassisCache → Decode (α × ChassisCache)} {a : α}
    (h : ∀ cache, d 0 cache = pure (a, cache)) : Threads nm heap order null d [] a := by
  refine fun st => ⟨rfl, fun cache hc _ => ⟨cache, hc, ?_⟩⟩
  show Reading T st.count (d (0 % _) cache) [] _ st.count
  rw [Nat.zero_mod, h]
  exact .pure _

/-- The optional reference to a chassis is read through the cache. -/
lemma threads_chassisRef? (hT : ReadsWords T) (key : Option κ) :
    Threads nm heap order (chassisRef? nm heap key) (portChassis T) key.toList
      (key.map (arcOf heap order)) := by
  cases key with
  | none => exact threads_null fun _ => rfl
  | some key => exact threads_chassisRef hT key

/-! ## Ports -/

variable (order) in
/-- The fields of a port that has been read. -/
lemma threads_port (hT : ReadsWords T) {χ : Type} (p : PortNode T χ) {chassis : Marshal κ Ref}
    {keys : List κ} {value : Option (Arc Chassis)}
    (hch : Threads nm heap order chassis (portChassis T) keys value) (raw : Raw T .port)
    (st : Marshaller κ) (hw : Written raw (run (runLinks (p.ownLinks nm chassis)) st).1.1) :
    raw.u8 .pIdSubtype = p.idSubtype ∧ raw.u16 .pTtl = p.ttl ∧
    (run (runLinks (p.ownLinks nm chassis)) st).2.seen = keys.foldl visit st.seen ∧
    ∀ cache, Cached nm heap order st cache →
      (run (runLinks (p.ownLinks nm chassis)) st).2.seen <+: order →
      ∃ cache', Cached nm heap order (run (runLinks (p.ownLinks nm chassis)) st).2 cache' ∧
        Reading T st.count (decodePortFields T raw cache)
          (run (runLinks (p.ownLinks nm chassis)) st).1.2 (⟨value, p.id, p.description⟩, cache')
          (run (runLinks (p.ownLinks nm chassis)) st).2.count := by
  have hsub : T.endian.nat (raw.get .pIdSubtype) = p.idSubtype.toNat % 256 ^ 1 := by
    have hg : raw.get .pIdSubtype = T.endian.bytes 1 p.idSubtype.toNat := hw.head
    rw [hg, Endian.nat_bytes]
  have httl : T.endian.nat (raw.get .pTtl) = p.ttl.toNat % 256 ^ 2 := by
    have hg : raw.get .pTtl = T.endian.bytes 2 p.ttl.toNat := hw.tail.head
    rw [hg, Endian.nat_bytes]
  have hptr : raw.usize .pChassis = (run chassis st).1.value % 256 ^ T.ptrSize :=
    hw.tail.tail.usize rfl
  obtain ⟨hrefs, hrest⟩ := follows_portRest hT nm p raw (run chassis st).2 hw.tail.tail.tail
  obtain ⟨hseen, hread⟩ := hch st
  have hseen' : (run (runLinks (p.ownLinks nm chassis)) st).2.seen = (run chassis st).2.seen := by
    exact congrArg (List.map Prod.fst) hrefs
  refine ⟨u8_eq hsub, u16_eq httl, hseen'.trans hseen, fun cache hc hpre => ?_⟩
  obtain ⟨cache', hc', hr⟩ := hread cache hc (hseen' ▸ hpre)
  refine ⟨cache', hc'.mono hrefs hrest.1, ?_⟩
  rw [← hptr] at hr
  exact hr.bind (reading_pure_map hrest fun q => (PortFields.mk value q.1 q.2, cache'))

/-- A visit keeps what was seen before. -/
lemma prefix_visit (seen : List κ) (key : κ) : seen <+: visit seen key := by
  rw [visit]
  split
  · exact List.prefix_rfl
  · exact List.prefix_append _ _

/-- Visits keep what was seen before. -/
lemma prefix_foldl_visit (seen keys : List κ) : seen <+: keys.foldl visit seen := by
  induction keys generalizing seen with
  | nil => exact List.prefix_rfl
  | cons key keys ih => exact (prefix_visit seen key).trans (ih _)

/-- A neighbor that has been read, when its port has a chassis. -/
lemma reading_buildNeighbor {raw : Raw T .port} {cache cache' : ChassisCache} {n n' : Nat}
    {bs : List (List UInt8)} {chassis : Arc Chassis} {id : Option (List UInt8)}
    {description : Option String}
    (h : Reading T n (decodePortFields T raw cache) bs (⟨some chassis, id, description⟩, cache') n') :
    Reading T n (buildNeighbor T raw cache) bs
      (⟨chassis, .from (raw.u8 .pIdSubtype), id.getD [], description, raw.u16 .pTtl⟩, cache') n' := by
  have hb : Reading T n (buildNeighbor T raw cache) (bs ++ []) _ n' := h.bind (.pure _)
  rwa [List.append_nil] at hb

/-- A neighbor and the rest of the list, after the neighbor's own structure. -/
def neighborAfter (cache : ChassisCache) (raw : Raw T .port) :
    Decode (List Neighbor × ChassisCache) :=
  restOf (raw.usize .tqeNext != 0) (decodeNeighborChain T cache) cache >>= fun r =>
    buildNeighbor T raw r.2 >>= fun q => pure (q.1 :: r.1, q.2)

/-- The first neighbor is read, and then the others after it. -/
lemma decodeNeighborChain_eq (cache : ChassisCache) :
    decodeNeighborChain T cache = readChunkPod T .port >>= neighborAfter cache := by
  rw [decodeNeighborChain, chain_eq]
  rfl

variable (nm heap order) in
/-- The neighbors are finished from the last to the first. -/
lemma threads_neighborList (hT : ReadsWords T) (ports : List (PortNode T κ)) :
    Threads nm heap order (neighborList nm heap ports)
      (fun v cache => restOf (v != 0) (decodeNeighborChain T cache) cache)
      (ports.map PortNode.chassis).reverse (ports.map (PortNode.value heap order)) := by
  induction ports with
  | nil => exact threads_null fun _ => rfl
  | cons p ports ih =>
    intro st
    have hw := written_fill (nodup_portLinks nm p (neighborList nm heap ports)
      (chassisRef nm heap p.chassis)) p.body ⟨st.count + 1, st.refs⟩
    obtain ⟨hseen₁, hread₁⟩ := ih ⟨st.count + 1, st.refs⟩
    obtain ⟨hsub, httl, hseen₂, hread₂⟩ :=
      threads_port order hT p (threads_chassisRef hT p.chassis) _
        (run (neighborList nm heap ports) ⟨st.count + 1, st.refs⟩).2 hw.tail
    have hnext := hw.usize rfl
    refine ⟨?_, fun cache hc hpre => ?_⟩
    · refine hseen₂.trans ?_
      rw [hseen₁, List.map_cons, List.reverse_cons, List.foldl_append]
      rfl
    · have hpre₂ := hpre
      rw [show (run (neighborList nm heap (p :: ports)) st).2.seen = _ from hseen₂] at hpre₂
      obtain ⟨cache₁, hc₁, hr₁⟩ := hread₁ cache (hc.mono rfl (Nat.le_succ _))
        ((prefix_visit _ p.chassis).trans hpre₂)
      obtain ⟨cache₂, hc₂, hr₂⟩ := hread₂ cache₁ hc₁ hpre
      have hr₃ := reading_buildNeighbor hr₂
      rw [hsub, httl] at hr₃
      rw [← hnext] at hr₁
      have hr₄ := reading_pure_map hr₃ fun q =>
        (q.1 :: ports.map (PortNode.value heap order), q.2)
      have hr₅ := hr₁.bind (f := fun r => buildNeighbor T _ r.2 >>= fun q =>
        pure (q.1 :: r.1, q.2)) hr₄
      refine ⟨cache₂, hc₂, ?_⟩
      have hr₆ := reading_struct hT p.body
        (p.links nm (neighborList nm heap ports) (chassisRef nm heap p.chassis)) st
        (f := neighborAfter cache) hr₅
      rw [← decodeNeighborChain_eq] at hr₆
      have hd : ∀ v, v ≠ 0 →
          restOf (v != 0) (decodeNeighborChain T cache) cache = decodeNeighborChain T cache := by
        intro v hv
        rw [bne_iff_ne.mpr hv]
        rfl
      exact reading_present nm (chunk_ne_nil _ _ _) hd hr₆

end

end Rlldpctl.Wire
