import Mathlib.Data.List.Nodup
import Rlldpctl.Lib.Chains
import Rlldpctl.Wire.Calls
import Rlldpctl.Wire.RoundTrip

/-!
# Which port reads which chassis

A port finds its chassis in the cache or reads it and puts it there. `PortRun` is what one port does in a
run, `PortRun.Steps` what that does to the cache and `PortRun.Runs` what ports do one after another: what
holds of every cache that is reached (`Shared`) is proved about these. The decoders are then compared with
them: the local port, and the neighbors from the last element of their list to the first.
-/

namespace Rlldpctl.Wire
open ByteReader CLayout NativeBytes Utf8

variable {T : Target}

/-- A port in a run: the value of its `p_chassis`, the calls made after its own structure, and the chassis
it was given. -/
structure PortRun where
  ptr : Nat
  calls : List Call
  chassis : Option (Arc Chassis)

/-- How many chassis structures are read. -/
def chassisReads (cs : List Call) : Nat :=
  cs.countP (·.kind = .pod .chassis)

namespace PortRun

/-- What one port does to the cache. -/
inductive Steps : ChassisCache → PortRun → ChassisCache → Prop where
  | null {cache calls} :
    chassisReads calls = 0 →
    Steps cache ⟨0, calls, none⟩ cache
  | hit {cache ptr calls chassis} :
    ptr ≠ 0 →
    cache.get ptr = some chassis →
    chassisReads calls = 0 →
    Steps cache ⟨ptr, calls, some chassis⟩ cache
  | miss {cache ptr calls chassis} :
    ptr ≠ 0 →
    cache.get ptr = none →
    chassisReads calls = 1 →
    Steps cache ⟨ptr, calls, some (cache.alloc chassis)⟩ (cache.insert ptr (cache.alloc chassis))

/-- What ports do to the cache one after another. -/
inductive Runs : ChassisCache → List PortRun → ChassisCache → Prop where
  | nil {cache} :
    Runs cache [] cache
  | snoc {cache ports cache' port cache''} :
    Runs cache ports cache' →
    Steps cache' port cache'' →
    Runs cache (ports ++ [port]) cache''

/-- The ports of two runs, one after the other. -/
lemma Runs.append {cache cache' cache'' : ChassisCache} {ports ports' : List PortRun}
    (h : Runs cache ports cache') (h' : Runs cache' ports' cache'') :
    Runs cache (ports ++ ports') cache'' := by
  induction h' with
  | nil => rwa [List.append_nil]
  | snoc _ hstep ih =>
    rw [← List.append_assoc]
    exact .snoc ih hstep

/-- A port is a run of one. -/
lemma Runs.single {cache cache' : ChassisCache} {port : PortRun} (h : Steps cache port cache') :
    Runs cache [port] cache' :=
  .snoc .nil h

/-- The values of `p_chassis`. -/
def ptrs (ports : List PortRun) : List Nat :=
  ports.map ptr

end PortRun

open PortRun (ptrs)

/-! ## The cache -/

/-- What is found is in the cache. -/
lemma get_mem {cache : ChassisCache} {v : Nat} {chassis : Arc Chassis} (h : cache.get v = some chassis) :
    (v, chassis) ∈ cache := by
  obtain ⟨as, bs, rfl, -⟩ := List.lookup_eq_some_iff.mp h
  exact List.mem_append_right as List.mem_cons_self

/-- What is found after a chassis was kept. -/
lemma get_insert (cache : ChassisCache) (v v' : Nat) (chassis : Arc Chassis) :
    (cache.insert v chassis).get v' = if v' = v then some chassis else cache.get v' := by
  show List.lookup v' ((v, chassis) :: cache) = _
  rw [List.lookup_cons]
  by_cases h : v' = v
  · rw [if_pos h, beq_iff_eq.mpr h]
  · rw [if_neg h, beq_eq_false_iff_ne.mpr h]
    rfl

/-- What holds of a cache after ports that started with an empty one. -/
structure Shared (ports : List PortRun) (cache : ChassisCache) : Prop where
  /-- No entry was overwritten. -/
  keys : (cache.map Prod.fst).Nodup
  /-- The entries are those of the pointers that are not null. -/
  entries : ∀ v, v ∈ cache.map Prod.fst ↔ v ≠ 0 ∧ v ∈ ptrs ports
  /-- Every entry is an allocation of its own. -/
  addrs : (cache.map (·.2.addr)) = (List.range cache.length).reverse
  /-- Every port was given the entry under its own pointer. -/
  found : ∀ port ∈ ports, port.chassis = if port.ptr = 0 then none else cache.get port.ptr
  /-- A chassis is read by the first port that carries its pointer and by no other. -/
  reads : ∀ i (h : i < ports.length),
    chassisReads ports[i].calls =
      if ports[i].ptr = 0 ∨ ports[i].ptr ∈ ptrs (ports.take i) then 0 else 1

/-- Without ports nothing is shared. -/
lemma Shared.nil : Shared [] [] where
  keys := List.nodup_nil
  entries _ := ⟨nofun, fun h => nomatch h.2⟩
  addrs := rfl
  found := List.forall_mem_nil _
  reads i h := absurd h (Nat.not_lt_zero i)

/-- The condition on `reads` for one more port. -/
lemma reads_snoc {ports : List PortRun} {port : PortRun}
    (h : ∀ i (h : i < ports.length), chassisReads ports[i].calls =
      if ports[i].ptr = 0 ∨ ports[i].ptr ∈ ptrs (ports.take i) then 0 else 1)
    (hport : chassisReads port.calls = if port.ptr = 0 ∨ port.ptr ∈ ptrs ports then 0 else 1) :
    ∀ i (h : i < (ports ++ [port]).length), chassisReads (ports ++ [port])[i].calls =
      if (ports ++ [port])[i].ptr = 0 ∨ (ports ++ [port])[i].ptr ∈ ptrs ((ports ++ [port]).take i)
        then 0 else 1 := by
  intro i hi
  rw [List.length_append, List.length_singleton] at hi
  obtain hlt | rfl := Nat.lt_succ_iff_lt_or_eq.mp hi
  · rw [List.getElem_append_left hlt, List.take_append_of_le_length hlt.le]
    exact h i hlt
  · rw [List.getElem_concat_length rfl, List.take_left]
    exact hport

/-- The pointers of two groups of ports. -/
lemma ptrs_append (ports ports' : List PortRun) : ptrs (ports ++ ports') = ptrs ports ++ ptrs ports' :=
  List.map_append

/-- One more port. -/
lemma Shared.step {ports : List PortRun} {port : PortRun} {cache cache' : ChassisCache}
    (h : Shared ports cache) (hstep : PortRun.Steps cache port cache') :
    Shared (ports ++ [port]) cache' := by
  cases hstep with
  | null hreads =>
    refine ⟨h.keys, fun v => ?_, h.addrs, ?_, reads_snoc h.reads ?_⟩
    · rw [h.entries, ptrs_append, List.mem_append]
      refine and_congr_right fun hv => ⟨Or.inl, fun hmem => hmem.resolve_right fun h0 => hv ?_⟩
      exact List.mem_singleton.mp h0
    · exact List.forall_mem_append.mpr ⟨h.found, List.forall_mem_singleton.mpr rfl⟩
    · rw [if_pos (Or.inl rfl)]
      exact hreads
  | @hit ptr _ chassis hne hget hreads =>
    have hmem : ptr ∈ ptrs ports :=
      ((h.entries ptr).mp (List.mem_map.mpr ⟨_, get_mem hget, rfl⟩)).2
    refine ⟨h.keys, fun v => ?_, h.addrs, ?_, reads_snoc h.reads ?_⟩
    · rw [h.entries, ptrs_append, List.mem_append]
      refine and_congr_right fun _ => ⟨Or.inl, fun hv => hv.elim id fun heq => ?_⟩
      rwa [List.mem_singleton.mp heq]
    · refine List.forall_mem_append.mpr ⟨h.found, List.forall_mem_singleton.mpr ?_⟩
      rw [if_neg hne, hget]
    · rw [if_pos (Or.inr hmem)]
      exact hreads
  | @miss ptr _ chassis hne hget hreads =>
    have hnew : ptr ∉ cache.map Prod.fst := get_eq_none.mp hget
    have hnot : ptr ∉ ptrs ports := fun hmem => hnew ((h.entries ptr).mpr ⟨hne, hmem⟩)
    refine ⟨List.nodup_cons.mpr ⟨hnew, h.keys⟩, fun v => ?_, ?_, ?_, reads_snoc h.reads ?_⟩
    · rw [ptrs_append, List.mem_append]
      show v ∈ ptr :: cache.map Prod.fst ↔ _
      rw [List.mem_cons, h.entries]
      refine ⟨?_, ?_⟩
      · rintro (rfl | ⟨hv, hmem⟩)
        · exact ⟨hne, Or.inr List.mem_cons_self⟩
        · exact ⟨hv, Or.inl hmem⟩
      · rintro ⟨hv, hmem | heq⟩
        · exact Or.inr ⟨hv, hmem⟩
        · exact Or.inl (List.mem_singleton.mp heq)
    · show cache.length :: cache.map (·.2.addr) = (List.range (cache.length + 1)).reverse
      rw [h.addrs, List.range_succ, List.reverse_append]
      rfl
    · refine List.forall_mem_append.mpr ⟨fun port hport => ?_, List.forall_mem_singleton.mpr ?_⟩
      · -- the entry of an earlier port is not the new one
        rw [h.found port hport, get_insert]
        have hptr : port.ptr ≠ ptr := fun heq => hnot (heq ▸ List.mem_map_of_mem hport)
        rw [if_neg hptr]
      · rw [if_neg hne, get_insert, if_pos rfl]
    · rw [if_neg (not_or.mpr ⟨hne, hnot⟩)]
      exact hreads

/-- A run from the empty cache shares the chassis by their pointers. -/
lemma PortRun.Runs.shared {ports : List PortRun} {cache : ChassisCache}
    (h : PortRun.Runs [] ports cache) : Shared ports cache := by
  induction h with
  | nil => exact .nil
  | snoc _ hstep ih => exact ih.step hstep

/-- Two allocations in the cache are the same exactly when they are under one key. -/
lemma Shared.addr_inj {ports : List PortRun} {cache : ChassisCache} (h : Shared ports cache)
    {v v' : Nat} {chassis chassis' : Arc Chassis} (hv : cache.get v = some chassis)
    (hv' : cache.get v' = some chassis') : chassis.addr = chassis'.addr ↔ v = v' := by
  refine ⟨fun haddr => ?_, fun heq => ?_⟩
  · have hnodup : (cache.map (·.2.addr)).Nodup := by
      rw [h.addrs]
      exact List.nodup_reverse.mpr List.nodup_range
    have heq := List.inj_on_of_nodup_map hnodup (get_mem hv) (get_mem hv') haddr
    exact congrArg Prod.fst heq
  · subst heq
    rw [hv] at hv'
    cases hv'
    rfl

/-! ## The decoders -/

/-- The fields of the port were decoded from its structure, after the calls `before` and by the calls of the
port: the cache was `cache` then and is `cache'` after them. -/
structure PortRun.Decoded (T : Target) (buf : List UInt8) (raw : Raw T .port) (before : List Call)
    (cache cache' : ChassisCache) (port : PortRun) : Prop where
  ptr : raw.usize .pChassis = port.ptr
  run : ∃ (fields : PortFields) (s s' : Cursor), s.buf = buf ∧ s.calls = before ∧
    decodePortFields T raw cache s = .ok (fields, cache') s' ∧ s'.calls = before ++ port.calls ∧
    fields.chassis = port.chassis

/-- After the calls `before` the ports whose structures were read by `heads` were decoded one after another,
the last one of the list first. -/
inductive PortRun.Decodes (T : Target) (buf : List UInt8) (before : List Call) :
    ChassisCache → List Call → List PortRun → ChassisCache → Prop where
  | nil {cache} :
    Decodes T buf before cache [] [] cache
  | snoc {cache heads ports cache' c raw port cache''} :
    Decodes T buf before cache heads ports cache' →
    c.kind = .pod .port →
    raw.bytes = c.bytes T buf →
    Decoded T buf raw (before ++ ports.flatMap PortRun.calls) cache' cache'' port →
    Decodes T buf before cache (c :: heads) (ports ++ [port]) cache''

/-- Structures of the kinds that are neither chassis nor ports. -/
def besidePorts (k : RawType) : Prop := k ≠ .chassis ∧ k ≠ .port

/-- No port structure is read. -/
def NoPorts (cs : List Call) : Prop :=
  ∀ c ∈ cs, c.kind ≠ .pod .port

/-- Calls for what is beside ports read no port. -/
lemma noPorts_of_besidePorts {cs : List Call} (h : ∀ c ∈ cs, ∀ k, c.kind = .pod k → besidePorts k) :
    NoPorts cs :=
  fun c hc hkind => (h c hc .port hkind).2 rfl

/-- Calls for what is beside ports read no chassis. -/
lemma chassisReads_of_besidePorts {cs : List Call}
    (h : ∀ c ∈ cs, ∀ k, c.kind = .pod k → besidePorts k) : chassisReads cs = 0 := by
  refine List.countP_eq_zero.mpr fun c hc hkind => ?_
  exact (h c hc .chassis (of_decide_eq_true hkind)).1 rfl

/-- The chassis that two groups of calls read. -/
lemma chassisReads_append (cs cs' : List Call) :
    chassisReads (cs ++ cs') = chassisReads cs + chassisReads cs' :=
  List.countP_append

/-- Two groups of calls that read no port. -/
lemma NoPorts.append {cs cs' : List Call} (h : NoPorts cs) (h' : NoPorts cs') : NoPorts (cs ++ cs') :=
  List.forall_mem_append.mpr ⟨h, h'⟩

/-- Reading more does not change what a port does to the cache. -/
lemma PortRun.Steps.more {cache cache' : ChassisCache} {ptr : Nat} {cs cs' : List Call}
    {chassis : Option (Arc Chassis)} (h : Steps cache ⟨ptr, cs, chassis⟩ cache')
    (hcs : chassisReads cs' = 0) : Steps cache ⟨ptr, cs ++ cs', chassis⟩ cache' := by
  have hadd : chassisReads (cs ++ cs') = chassisReads cs := by
    rw [chassisReads_append, hcs, Nat.add_zero]
  cases h with
  | null h0 => exact .null (hadd.trans h0)
  | hit hne hget h0 => exact .hit hne hget (hadd.trans h0)
  | miss hne hget h1 => exact .miss hne hget (hadd.trans h1)

section
variable {self self' : Cursor} (hin : self.pos ≤ self.buf.length) (hlen : self.buf.length ≤ T.isizeMax)
include hin hlen

omit hin hlen in
/-- The calls between two cursors are those of the port that was decoded. -/
lemma decoded_of_reached {raw : Raw T .port} {cache cache' : ChassisCache} {fields : PortFields}
    {cs : List Call} (h : decodePortFields T raw cache self = .ok (fields, cache') self')
    (hreach : Reached self self' cs) :
    PortRun.Decoded T self.buf raw self.calls cache cache'
      ⟨raw.usize .pChassis, cs, fields.chassis⟩ :=
  ⟨rfl, fields, self, self', rfl, rfl, h, hreach.calls, rfl⟩

/-- A structure that was read is what the buffer holds at the call. -/
lemma reached_readChunkPod {k : RawType} {raw : Raw T k}
    (h : readChunkPod T k self = .ok raw self') :
    Reached self self' [⟨.pod k, self.pos⟩] ∧
      raw.bytes = (⟨.pod k, self.pos⟩ : Call).bytes T self.buf := by
  have hfits := podFits_of_ok hin hlen h
  rw [readChunkPod_ok hlen hfits] at h
  cases h
  exact ⟨⟨rfl, hfits.1, rfl⟩, rfl⟩

/-- A chassis is one read of a chassis and of no port. -/
lemma decodeChassis_reads {chassis : Chassis} (h : decodeChassis T self = .ok chassis self') :
    ∃ cs, Reached self self' cs ∧ chassisReads cs = 1 ∧ NoPorts cs := by
  obtain ⟨f, heq, hf⟩ := (allows_readsOnly T besidePorts).rules.decodeChassis_eq ⟨nofun, nofun⟩
  rw [heq] at h
  obtain ⟨raw, self₁, hpod, h⟩ := bind_eq_ok h
  obtain ⟨hreach, -⟩ := reached_readChunkPod hin hlen hpod
  obtain ⟨cs, hreach', hkinds⟩ := (hf raw).reached hreach.pos (hreach.length_le hlen) h
  refine ⟨_, hreach.trans hreach', ?_, ?_⟩
  · rw [chassisReads_append, chassisReads_of_besidePorts hkinds]
    rfl
  · exact .append (List.forall_mem_singleton.mpr nofun) (noPorts_of_besidePorts hkinds)

/-- The chassis of a port is a step of the cache. -/
lemma portChassis_steps {ptr : Nat} {cache cache' : ChassisCache} {chassis : Option (Arc Chassis)}
    (h : portChassis T ptr cache self = .ok (chassis, cache') self') :
    ∃ cs, Reached self self' cs ∧ NoPorts cs ∧ PortRun.Steps cache ⟨ptr, cs, chassis⟩ cache' := by
  unfold portChassis at h
  split at h
  case isTrue hzero =>
    cases h
    subst hzero
    exact ⟨[], .refl hin, List.forall_mem_nil _, .null rfl⟩
  case isFalse hne =>
    cases hget : cache.get ptr with
    | some cached =>
      rw [hget] at h
      cases h
      exact ⟨[], .refl hin, List.forall_mem_nil _, .hit hne hget rfl⟩
    | none =>
      rw [hget] at h
      obtain ⟨value, self₁, hchassis, h⟩ := bind_eq_ok h
      cases h
      obtain ⟨cs, hreach, hone, hports⟩ := decodeChassis_reads hin hlen hchassis
      exact ⟨cs, hreach, hports, .miss hne hget hone⟩

/-- What a port points to is a step of the cache. -/
lemma decodePortFields_steps {raw : Raw T .port} {cache cache' : ChassisCache} {fields : PortFields}
    (h : decodePortFields T raw cache self = .ok (fields, cache') self') :
    ∃ cs, Reached self self' cs ∧ NoPorts cs ∧
      PortRun.Steps cache ⟨raw.usize .pChassis, cs, fields.chassis⟩ cache' := by
  obtain ⟨⟨chassis, cache₁⟩, self₁, hchassis, h⟩ := bind_eq_ok h
  obtain ⟨⟨id, description⟩, self₂, hrest, h⟩ := bind_eq_ok h
  cases h
  have hkinds := (allows_readsOnly T besidePorts).rules.portRest ⟨nofun, nofun⟩ ⟨nofun, nofun⟩
    ⟨nofun, nofun⟩ raw
  obtain ⟨cs, hreach, hports, hsteps⟩ := portChassis_steps hin hlen hchassis
  obtain ⟨cs', hreach', hbeside⟩ := hkinds.reached hreach.pos (hreach.length_le hlen) hrest
  refine ⟨cs ++ cs', hreach.trans hreach', hports.append (noPorts_of_besidePorts hbeside), ?_⟩
  exact hsteps.more (chassisReads_of_besidePorts hbeside)

/-- A neighbor is a step of the cache, made of what its own port asks for. -/
lemma buildNeighbor_steps {raw : Raw T .port} {cache cache' : ChassisCache} {neighbor : Neighbor}
    (h : buildNeighbor T raw cache self = .ok (neighbor, cache') self') :
    ∃ cs, Reached self self' cs ∧ NoPorts cs ∧
      PortRun.Steps cache ⟨raw.usize .pChassis, cs, some neighbor.chassis⟩ cache' ∧
      PortRun.Decoded T self.buf raw self.calls cache cache'
        ⟨raw.usize .pChassis, cs, some neighbor.chassis⟩ := by
  obtain ⟨⟨⟨chassis, id, description⟩, cache₁⟩, self₁, hfields, h⟩ := bind_eq_ok h
  cases chassis with
  | none => cases h
  | some chassis =>
    cases h
    obtain ⟨cs, hreach, hports, hsteps⟩ := decodePortFields_steps hin hlen hfields
    exact ⟨cs, hreach, hports, hsteps, decoded_of_reached hfields hreach⟩

end

/-- A call that read the structure of a port. -/
def HeadOf (T : Target) (buf : List UInt8) (c : Call) (port : PortRun) : Prop :=
  c.kind = .pod .port ∧
    ∃ raw : Raw T .port, raw.bytes = c.bytes T buf ∧ raw.usize .pChassis = port.ptr

/-- A list of neighbors that was decoded: its structures were read first, in list order, and then its
ports were finished, the last one first. -/
structure NeighborRun (T : Target) (s s' : Cursor) (cache cache' : ChassisCache)
    (neighbors : List Neighbor) (heads : List Call) (ports : List PortRun) : Prop where
  reached : Reached s s' (heads ++ ports.flatMap PortRun.calls)
  decodes : PortRun.Decodes T s.buf (s.calls ++ heads) cache heads ports cache'
  heads : List.Forall₂ (HeadOf T s.buf) heads.reverse ports
  noPorts : ∀ port ∈ ports, NoPorts port.calls
  runs : PortRun.Runs cache ports cache'
  chassis : neighbors.map (fun n => some n.chassis) = (ports.map PortRun.chassis).reverse

/-- Without neighbors no call is made. -/
lemma NeighborRun.nil {self : Cursor} (hin : self.pos ≤ self.buf.length) (cache : ChassisCache) :
    NeighborRun T self self cache cache [] [] [] :=
  ⟨.refl hin, .nil, .nil, List.forall_mem_nil _, .nil, rfl⟩

/-- A list of neighbors is a run of the cache, last neighbor first. -/
lemma decodeNeighborChain_runs {self : Cursor} {cache cache' : ChassisCache}
    (hin : self.pos ≤ self.buf.length) (hlen : self.buf.length ≤ T.isizeMax)
    {neighbors : List Neighbor} {self' : Cursor}
    (h : decodeNeighborChain T cache self = .ok (neighbors, cache') self') :
    ∃ heads ports, NeighborRun T self self' cache cache' neighbors heads ports := by
  unfold decodeNeighborChain at h
  induction self using chain_induction (advances_readChunkPod (T := T) .port)
    generalizing neighbors cache' self' with
  | step self ih =>
    obtain ⟨raw, self₁, rest, cache₁, self₂, neighbor, hhead, hrest, hfinish, rfl⟩ := chain_ok h
    obtain ⟨hreach, hbytes⟩ := reached_readChunkPod hin hlen hhead
    obtain ⟨heads, ports, hrun⟩ : ∃ heads ports,
        NeighborRun T self₁ self₂ cache cache₁ rest heads ports := by
      cases hmore : (raw.usize .tqeNext != 0) with
      | true =>
        rw [hmore] at hrest
        exact ih raw self₁ hhead hreach.pos (hreach.length_le hlen) hrest
      | false =>
        rw [hmore] at hrest
        cases hrest
        exact ⟨[], [], .nil hreach.pos cache⟩
    have hreach₂ := hreach.trans hrun.reached
    obtain ⟨cs, hreach', hports, hsteps, hdecoded⟩ :=
      buildNeighbor_steps hreach₂.pos (hreach₂.length_le hlen) hfinish
    let port : PortRun := ⟨raw.usize .pChassis, cs, some neighbor.chassis⟩
    refine ⟨⟨.pod .port, self.pos⟩ :: heads, ports ++ [port], ?_, ?_, ?_, ?_, hrun.runs.snoc hsteps, ?_⟩
    · have hall := hreach₂.trans hreach'
      rw [List.flatMap_append, List.flatMap_singleton]
      rw [List.append_assoc, List.append_assoc] at hall
      exact hall
    · have hdecodes := hrun.decodes
      rw [hreach.buf, hreach.calls, List.append_assoc] at hdecodes
      rw [hreach₂.buf, hreach₂.calls, ← List.append_assoc, ← List.append_assoc,
        List.append_assoc self.calls] at hdecoded
      exact hdecodes.snoc rfl hbytes hdecoded
    · have hheads := hrun.heads
      rw [hreach.buf] at hheads
      rw [List.reverse_cons]
      exact List.rel_append hheads (.cons ⟨rfl, raw, hbytes, rfl⟩ .nil)
    · exact List.forall_mem_append.mpr ⟨hrun.noPorts, List.forall_mem_singleton.mpr hports⟩
    · rw [List.map_cons, hrun.chassis, List.map_append, List.reverse_append]
      rfl

/-! ## One interface -/

/-- The calls of a run of `decode_hardware_as`: the root structure and what belongs to it, the local port,
the structures of the neighbors, their ports in decode order, and the alias. -/
structure Laid (calls front heads tail : List Call) (lport : PortRun) (ports : List PortRun) :
    Prop where
  parts : calls = front ++ (lport.calls ++ (heads ++ (ports.flatMap PortRun.calls ++ tail)))
  structures : calls.filter (·.kind = .pod .port) = heads
  elsewhere : chassisReads (front ++ heads ++ tail) = 0

/-- What a run of `decode_hardware_as` that succeeded with `details` has done about chassis: `lport` is the
local port, `ports` are those of the neighbors in decode order, and `cache` is the cache it ended with. -/
structure SharesChassis (T : Target) {k : RawType} [HardwareFields k] (p : List UInt8) (raw : Raw T k)
    (details : InterfaceDetails) (calls : List Call) (lport : PortRun) (ports : List PortRun)
    (cache : ChassisCache) : Prop where
  root : calls.head? = some ⟨.pod k, 0⟩ ∧ raw.bytes = (⟨.pod k, 0⟩ : Call).bytes T p
  laid : ∃ front heads tail cache₁, Laid calls front heads tail lport ports ∧
    List.Forall₂ (HeadOf T p) heads.reverse ports ∧
    lport.Decoded T p raw.hLport front [] cache₁ ∧
    PortRun.Decodes T p (front ++ (lport.calls ++ heads)) cache₁ heads ports cache
  lport_ptr : lport.ptr = raw.hLport.usize .pChassis
  localChassis : details.localChassis = lport.chassis
  neighbors : details.neighbors.map (fun n => some n.chassis) = (ports.map PortRun.chassis).reverse
  final : ∃ cache₁ s s', (if raw.hRportsTqhFirst ≠ 0 then decodeNeighborChain T cache₁
    else pure ([], cache₁)) s = .ok (details.neighbors, cache) s'
  linked : ∀ port ∈ ports, port.ptr ≠ 0
  shared : Shared (lport :: ports) cache
  same : ∀ port ∈ lport :: ports, ∀ port' ∈ lport :: ports, ∀ chassis chassis',
    port.chassis = some chassis → port'.chassis = some chassis' →
    (chassis.addr = chassis'.addr ↔ port.ptr = port'.ptr) ∧
    (chassis = chassis' ↔ port.ptr = port'.ptr)

/-- The chassis of a port is the one the cache has for its pointer. -/
lemma Shared.get_of_chassis {ports : List PortRun} {cache : ChassisCache} (h : Shared ports cache)
    {port : PortRun} (hport : port ∈ ports) {chassis : Arc Chassis}
    (hc : port.chassis = some chassis) : cache.get port.ptr = some chassis := by
  have hfound := h.found port hport
  rw [hc] at hfound
  split at hfound
  · cases hfound
  · exact hfound.symm

/-- Two ports have one chassis exactly when their pointers are equal. -/
lemma Shared.same {ports : List PortRun} {cache : ChassisCache} (h : Shared ports cache)
    {port port' : PortRun} (hport : port ∈ ports) (hport' : port' ∈ ports)
    {chassis chassis' : Arc Chassis} (hc : port.chassis = some chassis)
    (hc' : port'.chassis = some chassis') :
    (chassis.addr = chassis'.addr ↔ port.ptr = port'.ptr) ∧
      (chassis = chassis' ↔ port.ptr = port'.ptr) := by
  have hget := h.get_of_chassis hport hc
  have hget' := h.get_of_chassis hport' hc'
  have haddr := h.addr_inj hget hget'
  refine ⟨haddr, fun heq => haddr.mp (congrArg Arc.addr heq), fun hptr => ?_⟩
  rw [hptr, hget'] at hget
  exact (Option.some.inj hget).symm

/-- A neighbor's port was given a chassis, so its pointer is not null. -/
lemma linked_of_chassis {neighbors : List Neighbor} {ports : List PortRun} {cache : ChassisCache}
    {lport : PortRun} (h : Shared (lport :: ports) cache)
    (hchassis : neighbors.map (fun n => some n.chassis) = (ports.map PortRun.chassis).reverse) :
    ∀ port ∈ ports, port.ptr ≠ 0 := by
  intro port hport hzero
  have hfound := h.found port (List.mem_cons_of_mem _ hport)
  rw [if_pos hzero] at hfound
  have hmem : none ∈ neighbors.map (fun n => some n.chassis) := by
    rw [hchassis, List.mem_reverse, ← hfound]
    exact List.mem_map_of_mem hport
  obtain ⟨n, -, hn⟩ := List.mem_map.mp hmem
  cases hn

/-- No port is among calls that read none. -/
lemma filter_noPorts {cs : List Call} (h : NoPorts cs) : cs.filter (·.kind = .pod .port) = [] :=
  List.filter_eq_nil_iff.mpr fun c hc hkind => h c hc (of_decide_eq_true hkind)

/-- The heads of a list of ports are all ports and no chassis. -/
lemma filter_heads {buf : List UInt8} {heads : List Call} {ports : List PortRun}
    (h : List.Forall₂ (HeadOf T buf) heads.reverse ports) :
    heads.filter (·.kind = .pod .port) = heads ∧ chassisReads heads = 0 := by
  have hkind : ∀ c ∈ heads, c.kind = .pod .port := by
    intro c hc
    obtain ⟨i, hi, rfl⟩ := List.getElem_of_mem (List.mem_reverse.mpr hc)
    exact ((List.forall₂_iff_get.mp h).2 i hi (h.length_eq ▸ hi)).1
  refine ⟨List.filter_eq_self.mpr fun c hc => decide_eq_true (hkind c hc), ?_⟩
  refine List.countP_eq_zero.mpr fun c hc hchassis => ?_
  have hc' := of_decide_eq_true hchassis
  rw [hkind c hc] at hc'
  cases hc'

/-- A structure that embeds a local port is neither a chassis nor a port. -/
lemma HardwareFields.besidePorts (k : RawType) [HardwareFields k] : besidePorts k := by
  have hne : ∀ k : RawType, k = .chassis ∨ k = .port → ∀ f : k.Field,
      ((layout .lp64le k).ty f).size ≠ sizeOf .lp64le .port := by
    rintro k (rfl | rfl) f
    · cases f <;> decide +kernel
    · cases f with
      | pMedLocation i => decide +kernel +revert
      | _ => decide +kernel
  have hlport := congrArg CType.size (HardwareFields.hLport_ty (k := k) .lp64le)
  exact ⟨fun hk => hne k (Or.inl hk) _ hlport, fun hk => hne k (Or.inr hk) _ hlport⟩

section
variable {k : RawType} [HardwareFields k] {p : List UInt8}

/-- The neighbors of an interface, if it has any, are a run of the cache. -/
lemma neighbors_runs {cache cache' : ChassisCache} {self self' : Cursor}
    (hin : self.pos ≤ self.buf.length) (hlen : self.buf.length ≤ T.isizeMax)
    {neighbors : List Neighbor} {v : Nat}
    (h : (if v ≠ 0 then decodeNeighborChain T cache else pure ([], cache)) self =
      .ok (neighbors, cache') self') :
    ∃ heads ports, NeighborRun T self self' cache cache' neighbors heads ports := by
  split at h
  case isTrue => exact decodeNeighborChain_runs hin hlen h
  case isFalse =>
    cases h
    exact ⟨[], [], .nil hin cache⟩

/-- The calls of the parts, put together. -/
lemma laid_of_reached {s s₁ s₂ s₃ s₄ : Cursor} {front heads tail : List Call}
    {lport : PortRun} {ports : List PortRun} {buf : List UInt8} (hs : s.calls = [])
    (hfront : Reached s s₁ front) (hlport : Reached s₁ s₂ lport.calls)
    (hports : Reached s₂ s₃ (heads ++ ports.flatMap PortRun.calls)) (htail : Reached s₃ s₄ tail)
    (hfrontKind : NoPorts front ∧ chassisReads front = 0)
    (htailKind : NoPorts tail ∧ chassisReads tail = 0) (hlportKind : NoPorts lport.calls)
    (hportsKind : ∀ port ∈ ports, NoPorts port.calls)
    (hheads : List.Forall₂ (HeadOf T buf) heads.reverse ports) :
    Laid s₄.calls front heads tail lport ports := by
  obtain ⟨hfilter, hzero⟩ := filter_heads hheads
  have hcalls : s₄.calls =
      front ++ (lport.calls ++ (heads ++ (ports.flatMap PortRun.calls ++ tail))) := by
    rw [htail.calls, hports.calls, hlport.calls, hfront.calls, hs, List.nil_append]
    simp only [List.append_assoc]
  have hflat : NoPorts (ports.flatMap PortRun.calls) := by
    intro c hc
    obtain ⟨port, hport, hc⟩ := List.mem_flatMap.mp hc
    exact hportsKind port hport c hc
  refine ⟨hcalls, ?_, ?_⟩
  · rw [hcalls]
    simp only [List.filter_append, filter_noPorts hfrontKind.1, filter_noPorts hlportKind,
      filter_noPorts hflat, filter_noPorts htailKind.1, hfilter, List.nil_append, List.append_nil]
  · rw [chassisReads_append, chassisReads_append, hfrontKind.2, hzero, htailKind.2]

/-- What `decode_hardware_as` has read when it succeeds. -/
lemma hardware_parts {s s₅ : Cursor} {details : InterfaceDetails}
    (h : hardware T k s = .ok details s₅) :
    ∃ (raw : Raw T k) (s₁ s₂ s₃ s₄ : Cursor) (fields : PortFields) (cache₁ cache : ChassisCache),
      readChunkPod T k s = .ok raw s₁ ∧ consumeSubstructMarker T s₁ = .ok () s₂ ∧
      decodePortFields T raw.hLport [] s₂ = .ok (fields, cache₁) s₃ ∧
      (if raw.hRportsTqhFirst ≠ 0 then decodeNeighborChain T cache₁ else pure ([], cache₁)) s₃ =
        .ok (details.neighbors, cache) s₄ ∧
      readOptCstring T raw.hIfalias s₄ = .ok details.alias s₅ ∧
      details.name = cText raw.hIfname.1 ∧ details.macAddress = raw.hLladdr ∧
      details.localChassis = fields.chassis := by
  obtain ⟨raw, s₁, hroot, h⟩ := bind_eq_ok h
  obtain ⟨details', s₅', h, hend⟩ := bind_eq_ok h
  rw [requireExhausted_eq] at hend
  split at hend
  case isFalse => cases hend
  cases hend
  obtain ⟨_, s₂, hmarker, h⟩ := bind_eq_ok h
  split at h
  case isTrue => cases h
  obtain ⟨⟨fields, cache₁⟩, s₃, hlocal, h⟩ := bind_eq_ok h
  obtain ⟨⟨neighbors, cache⟩, s₄, hneighbors, h⟩ := bind_eq_ok h
  obtain ⟨ifalias, s₅', halias, h⟩ := bind_eq_ok h
  rw [untilNul_eq] at h
  cases h
  exact ⟨raw, s₁, s₂, s₃, s₄, fields, cache₁, cache, hroot, hmarker, hlocal, hneighbors, halias, rfl,
    rfl, rfl⟩

/-- The details of an interface share the chassis of its ports. -/
lemma hardware_shares (hlen : p.length ≤ T.isizeMax) {details : InterfaceDetails} {self : Cursor}
    (h : hardware T k (Cursor.new p) = .ok details self) :
    ∃ (raw : Raw T k) (lport : PortRun) (ports : List PortRun) (cache : ChassisCache),
      SharesChassis T p raw details self.calls lport ports cache := by
  have hr := (allows_readsOnly T besidePorts).rules
  obtain ⟨raw, s₁, s₂, s₃, s₄, fields, cache₁, cache, hroot, hmarker, hlocal, hneighbors, halias, -,
    -, hchassis⟩ := hardware_parts h
  -- each part leaves the cursor inside the payload
  obtain ⟨hreach₁, hbytes⟩ := reached_readChunkPod (Nat.zero_le _) hlen hroot
  obtain ⟨marker, hreach₂, hmarkerKind⟩ :=
    hr.marker.reached hreach₁.pos (hreach₁.length_le hlen) hmarker
  have hfront := hreach₁.trans hreach₂
  obtain ⟨cs, hreach₃, hlportKind, hsteps⟩ :=
    decodePortFields_steps hfront.pos (hfront.length_le hlen) hlocal
  have hreach₃' := hfront.trans hreach₃
  obtain ⟨heads, ports, hrun⟩ := neighbors_runs hreach₃'.pos (hreach₃'.length_le hlen) hneighbors
  have hreach₄ := hreach₃'.trans hrun.reached
  obtain ⟨tail, hreach₅, htailKind⟩ :=
    (hr.readOptCstring _).reached hreach₄.pos (hreach₄.length_le hlen) halias
  let lport : PortRun := ⟨raw.hLport.usize .pChassis, cs, fields.chassis⟩
  have hshared : Shared (lport :: ports) cache := ((PortRun.Runs.single hsteps).append hrun.runs).shared
  have hheads : List.Forall₂ (HeadOf T p) heads.reverse ports := by
    have hheads := hrun.heads
    rwa [hreach₃'.buf] at hheads
  have hfrontKind : ∀ c ∈ [⟨.pod k, 0⟩] ++ marker, ∀ k', c.kind = .pod k' → besidePorts k' := by
    refine List.forall_mem_append.mpr ⟨List.forall_mem_singleton.mpr ?_, hmarkerKind⟩
    rintro _ ⟨⟩
    exact HardwareFields.besidePorts k
  have hlaid : Laid self.calls ([⟨.pod k, 0⟩] ++ marker) heads tail lport ports :=
    laid_of_reached rfl hfront hreach₃ hrun.reached hreach₅
      ⟨noPorts_of_besidePorts hfrontKind, chassisReads_of_besidePorts hfrontKind⟩
      ⟨noPorts_of_besidePorts htailKind, chassisReads_of_besidePorts htailKind⟩ hlportKind
      hrun.noPorts hheads
  -- each port was decoded by the calls that are its own
  have hlportDecoded := decoded_of_reached hlocal hreach₃
  rw [hfront.buf, hfront.calls] at hlportDecoded
  have hdecodes := hrun.decodes
  rw [hreach₃'.buf, hreach₃'.calls] at hdecodes
  have hcalls : (([⟨.pod k, 0⟩] ++ marker) ++ cs) ++ heads =
      ([⟨.pod k, 0⟩] ++ marker) ++ (lport.calls ++ heads) := List.append_assoc _ _ _
  change PortRun.Decodes T p ((([⟨.pod k, 0⟩] ++ marker) ++ cs) ++ heads) _ _ _ _ at hdecodes
  rw [hcalls] at hdecodes
  refine ⟨raw, lport, ports, cache, ⟨?_, hbytes⟩,
    ⟨_, heads, tail, cache₁, hlaid, hheads, hlportDecoded, hdecodes⟩, rfl, hchassis,
    hrun.chassis, ⟨cache₁, s₃, s₄, hneighbors⟩, linked_of_chassis hshared hrun.chassis, hshared,
    fun port hport port' hport' chassis chassis' hc hc' => hshared.same hport hport' hc hc'⟩
  rw [hlaid.parts]
  rfl

/-- The chassis cache is exact. When `decode_hardware_as` succeeds a chassis is read by the first port, in
decode order, that carries its pointer, every port is given the entry of the final cache under its own
pointer, and nothing is overwritten, so ports share a chassis exactly when their pointers are equal. A
neighbor without a chassis makes it fail. -/
theorem chassis_sharing_exact (k : RawType) [HardwareFields k] {p : List UInt8}
    (hlen : p.length ≤ T.isizeMax) :
    (∀ details, decodeHardwareAs T k p = .ok details →
      ∃ self : Cursor, hardware T k (Cursor.new p) = .ok details self ∧
        ∃ (raw : Raw T k) (lport : PortRun) (ports : List PortRun) (cache : ChassisCache),
          SharesChassis T p raw details self.calls lport ports cache) ∧
    (∀ c ∈ (final (hardware T k (Cursor.new p))).calls, ∀ port : PortRun,
      HeadOf T p c port → port.ptr = 0 → ∀ details, decodeHardwareAs T k p ≠ .ok details) := by
  have hshares : ∀ details, decodeHardwareAs T k p = .ok details →
      ∃ self : Cursor, hardware T k (Cursor.new p) = .ok details self ∧
        ∃ (raw : Raw T k) (lport : PortRun) (ports : List PortRun) (cache : ChassisCache),
          SharesChassis T p raw details self.calls lport ports cache := by
    intro details h
    obtain ⟨stop, self, hok, -⟩ := decode_eq_ok.mp h
    exact ⟨self, hok, hardware_shares hlen hok⟩
  refine ⟨hshares, fun c hc port hport hzero details h => ?_⟩
  obtain ⟨self, hok, raw, lport, ports, cache, hs⟩ := hshares details h
  obtain ⟨front, heads, tail, -, hlaid, hheads, -, -⟩ := hs.laid
  rw [hok] at hc
  -- the structure of the port is one of those of the neighbors
  have hmem : c ∈ heads.reverse := by
    rw [List.mem_reverse, ← hlaid.structures]
    exact List.mem_filter.mpr ⟨hc, decide_eq_true hport.1⟩
  obtain ⟨i, hi, rfl⟩ := List.getElem_of_mem hmem
  have hi' : i < ports.length := hheads.length_eq ▸ hi
  obtain ⟨-, raw₁, hbytes₁, hptr₁⟩ := hport
  obtain ⟨-, raw₂, hbytes₂, hptr₂⟩ := (List.forall₂_iff_get.mp hheads).2 i hi hi'
  have hraw : raw₁ = raw₂ := Pod.ext (hbytes₁.trans hbytes₂.symm)
  refine hs.linked ports[i] (List.getElem_mem hi') ?_
  rw [← hzero, ← hptr₁, hraw]
  exact hptr₂.symm

end

/-- The message of two neighbors on one chassis. -/
def sampleMessage : List UInt8 :=
  hardwareMessage (Naming.orig .lp64le) (sampleHeap .lp64le) (sampleHardware .lp64le)

/-- The sample, with two neighbors on one chassis. -/
theorem chassis_sharing_exact_sampleMessage :
    ∃ self : Cursor, hardware .lp64le .hardware (Cursor.new sampleMessage) =
        .ok ((sampleHardware .lp64le).value (sampleHeap .lp64le)) self ∧
      ∃ (raw : Raw .lp64le .hardware) (lport : PortRun) (ports : List PortRun) (cache : ChassisCache),
        SharesChassis .lp64le sampleMessage raw
          ((sampleHardware .lp64le).value (sampleHeap .lp64le)) self.calls lport ports cache :=
  (chassis_sharing_exact .hardware length_sampleHardware).1 _
    (decodeHardwareAs_hardwareMessage _ _ (Or.inl rfl) _ length_sampleHardware)

end Rlldpctl.Wire
