import Rlldpctl.Listing

/-!
# Names of interfaces

The name of an interface is a byte string without NULs, of any encoding. The list of interfaces is read
lossily and a name that is asked for is the text of what was read, so an interface is asked for under its
own name when the name is valid UTF-8, and under another name when it is not.
-/

namespace Rlldpctl.Wire
open ByteReader CLayout NativeBytes Utf8

variable {T : Target} {κ : Type}

/-! ## Lists of names -/

/-- A `lldpd_interface` whose name is any byte string a C string can hold. -/
structure NamedNode (T : Target) where
  body : Raw T .interface
  name : List UInt8
  «alias» : Option (List UInt8)
  name_ne_nil : name ≠ []
  nulFree : 0 ∉ name

/-- What a listed interface points to. -/
def NamedNode.links (nm : Naming T) (x : NamedNode T) : List (Link T κ .interface) :=
  [.ptr .name (bstring nm ((some x.name).map (· ++ [0]))),
    .ptr .alias (bstring nm (x.alias.map (· ++ [0])))]

/-- What is read of it. -/
def NamedNode.value (x : NamedNode T) : Interface :=
  ⟨fromUtf8Lossy x.name, x.alias.map fromUtf8Lossy⟩

/-- The payload of a `GET_INTERFACES` reply. -/
def namesMessage (body : Raw T .interfaceList) (xs : List (NamedNode T)) : List UInt8 :=
  message (κ := Empty) (struct body [.ptr .tqhFirst (listOf (Naming.orig T) .interface .nextTqeNext
    NamedNode.body (NamedNode.links (Naming.orig T)) xs)])

/-- The texts of a listed interface are read lossily. -/
lemma follows_named (hT : ReadsWords T) (nm : Naming T) (x : NamedNode T)
    (raw : Raw T .interface) :
    Follows (κ := κ) (x.links nm) raw (finishInterface T raw) x.value := by
  refine .ptr rfl (reads_terminated hT nm (some x.name)) ?_
  refine .ptr rfl (reads_terminated hT nm x.alias) ?_
  exact .nil x.value

/-- The list is read back, its names lossily. -/
lemma decodeInterfaces_namesMessage (hT : ReadsWords T) (body : Raw T .interfaceList)
    (xs : List (NamedNode T)) (hlen : (namesMessage body xs).length ≤ T.isizeMax) :
    decodeInterfaces T (namesMessage body xs) = .ok (xs.map NamedNode.value) := by
  have hlist := reads_list (κ := Empty) hT (Naming.orig T) (k := .interface) .nextTqeNext rfl
    NamedNode.body (NamedNode.links (Naming.orig T))
    (fun _ => (by decide : [InterfaceField.nextTqeNext, .name, .alias].Nodup))
    (follows_named hT (Naming.orig T)) xs
  have hfirst := hlist.congr (fun v => if v = 0 then pure [] else decodeInterfaceChain T)
    fun v => (ite_not _ _ _).symm
  have hroot := behind_struct hT body [.ptr .tqhFirst _]
    (List.nodup_singleton InterfaceListField.tqhFirst) fun raw =>
      Follows.last (k := .interfaceList) (f := .tqhFirst) rfl hfirst
  obtain ⟨-, -, -, -, hread⟩ := hroot ⟨0, []⟩
  obtain ⟨self, hok, -⟩ := decode_message hread hlen
  exact decode_eq_ok.mpr ⟨_, self, hok, rfl⟩

end Rlldpctl.Wire

namespace Rlldpctl
open AsyncClient (sentBy block)
open ByteReader CLayout NativeBytes Utf8
open Wire (NamedNode Raw namesMessage)

variable {T : Target}

/-! ## Requests -/

/-- The request for the interface of this name, on any target: behind the header that `encode_header` writes, the
chunk holds the name and one NUL. -/
def nameRequest (T : Target) (name : List UInt8) : List UInt8 :=
  let content := name ++ [0]
  let payload := Wire.front T 1 (2 * T.ptrSize + content.length) content
  encodeHeader T .getInterface payload.length ++ payload

/-- What is in front of the name in a request. -/
def nameOffset (T : Target) : Nat := headerLen T + 2 * T.ptrSize

/-- The name is at the end of its request. -/
lemma drop_nameRequest (name : List UInt8) : (nameRequest T name).drop (nameOffset T) = name ++ [0] := by
  have hlen : ∀ n size, (encodeHeader T .getInterface n ++ (T.word 1 ++ T.word size)).length =
      nameOffset T := by
    intro n size
    rw [List.length_append, List.length_append, T.length_word, T.length_word, encodeHeader_eq,
      Header.length_bytes, nameOffset, Nat.two_mul]
  unfold nameRequest Wire.front
  dsimp only
  rw [← List.append_assoc]
  exact List.drop_left' (hlen _ _)

/-- A name is found in its request, whatever comes behind it. -/
lemma takeWhile_nameRequest {name : List UInt8} (h : 0 ∉ name) (rest : List UInt8) :
    ((nameRequest T name ++ rest).drop (nameOffset T)).takeWhile (· ≠ 0) = name := by
  have hle : nameOffset T ≤ (nameRequest T name).length := by
    by_contra hlt
    have hnil := drop_nameRequest (T := T) name
    rw [List.drop_eq_nil_of_le (not_le.mp hlt).le] at hnil
    exact List.append_ne_nil_of_right_ne_nil _ (List.cons_ne_nil 0 []) hnil.symm
  have hall : ∀ b ∈ name, decide (b ≠ 0) = true :=
    fun b hb => decide_eq_true fun h0 => h (h0 ▸ hb)
  rw [List.drop_append_of_le_length hle, drop_nameRequest, List.append_assoc,
    List.takeWhile_append_of_pos hall]
  exact List.append_nil name

/-- Requests for different names are different. -/
lemma nameRequests_inj {names names' : List (List UInt8)} (h : ∀ name ∈ names, 0 ∉ name)
    (h' : ∀ name ∈ names', 0 ∉ name) (hlen : names.length = names'.length)
    (heq : names.flatMap (nameRequest T) = names'.flatMap (nameRequest T)) : names = names' := by
  induction names generalizing names' with
  | nil => exact (List.length_eq_zero_iff.mp hlen.symm).symm
  | cons name names ih =>
    cases names' with
    | nil => cases hlen
    | cons name' names' =>
      obtain ⟨hhead, htail⟩ := List.forall_mem_cons.mp h
      obtain ⟨hhead', htail'⟩ := List.forall_mem_cons.mp h'
      rw [List.flatMap_cons, List.flatMap_cons] at heq
      have hname : name = name' := by
        rw [← takeWhile_nameRequest (T := T) hhead (names.flatMap (nameRequest T)), heq,
          takeWhile_nameRequest hhead']
      subst hname
      rw [ih htail htail' (Nat.succ.inj hlen) (List.append_cancel_left heq)]

/-! ## A list that is not read -/

/-- The empty payload is no list. -/
lemma decodeInterfaces_nil : ∃ e, Wire.decodeInterfaces T [] = .error e := by
  have hrej := Wire.readChunkPod_rejects (T := T) (k := .interfaceList) (Nat.le_refl 0)
    (Nat.zero_le _) fun hfits : Wire.PodFits T .interfaceList (Wire.Cursor.new []) => by
      have hend := hfits.1
      have hpos := (Wire.sizeOf_bound T .interfaceList).1
      change _ ≤ 0 at hend
      omega
  cases hx : Wire.readChunkPod T .interfaceList (Wire.Cursor.new []) with
  | ok raw s =>
    rw [hx] at hrej
    exact hrej.elim
  | error e s =>
    refine ⟨e, ?_⟩
    rw [Wire.decodeInterfaces, Wire.decode, Wire.interfaces, bind_error hx]

/-- A list that is too large, or whose length is not read back, ends in an error before anything else is
sent. -/
lemma interfaces_unread {listing : Frame T} (hty : listing.ty = HmsgType.getInterfaces.toI32)
    (h : ¬ (ReadsWords T ∧ listing.Small)) (input out : List UInt8) :
    ∃ e rest, Client.interfaces T ⟨listing.bytes ++ input, out⟩ =
      .error e ⟨rest, out ++ sentBy T .interfaces⟩ := by
  by_cases hT : ReadsWords T
  · have hlarge : ¬ listing.Small := fun hsmall => h ⟨hT, hsmall⟩
    exact ⟨_, _, exchange_of (r := .error _) (readMessage_large (Or.inl hT) hlarge _ _ _)⟩
  · -- the length is read as zero, and an empty payload is no list
    obtain ⟨e, he⟩ := decodeInterfaces_nil (T := T)
    have hread : ∀ out, readMessage T .getInterfaces ⟨listing.bytes ++ input, out⟩ =
        (ofExcept (.ok []) : Io _) ⟨listing.payload ++ input, out⟩ := by
      intro out
      rw [Frame.bytes, Frame.header, List.append_assoc, readMessage_header, if_neg hT, hty]
      rfl
    refine ⟨e, listing.payload ++ input, ?_⟩
    have hrun : Client.interfaces T ⟨listing.bytes ++ input, out⟩ =
        (ofExcept (Wire.decodeInterfaces T []) : Io _)
          ⟨listing.payload ++ input, out ++ sentBy T .interfaces⟩ :=
      exchange_of (r := .ok []) (hread _)
    rwa [he] at hrun

/-! ## Asking by name -/

/-- Whatever the daemon replies after the list, the requests are those for the names at its front, and
for all of them when no reply ends the loop. -/
def AsksByName (prog : Io (List InterfaceDetails)) (listing : Frame T) (names : List (List UInt8)) :
    Prop :=
  ∀ fs : List (Frame T), fs.length = names.length → (∀ f ∈ fs, f.Small) → ∀ rest out, ∃ m,
    (final (prog ⟨(listing :: fs).flatMap Frame.bytes ++ rest, out⟩)).output =
      out ++ sentBy T .interfaces ++ (names.take m).flatMap (nameRequest T) ∧
    ((∀ f ∈ fs, f.Answers) → m = names.length)

/-- A rejection without a payload. -/
def refusal (T : Target) : Frame T := .of T .none [] (Nat.zero_le _)

/-- Refusals are small and do not end the loop. -/
lemma refusals (n : Nat) :
    ∀ f ∈ List.replicate n (refusal T), f.Small ∧ f.Answers := by
  intro f hf
  rw [List.eq_of_mem_replicate hf]
  exact ⟨Nat.zero_le _, Or.inl rfl⟩

/-- What is sent when every interface is refused. -/
lemma AsksByName.refused {prog : Io (List InterfaceDetails)} {listing : Frame T}
    {names : List (List UInt8)} (h : AsksByName prog listing names) :
    (final (prog ⟨(listing :: List.replicate names.length (refusal T)).flatMap Frame.bytes ++ [],
      []⟩)).output = [] ++ sentBy T .interfaces ++ names.flatMap (nameRequest T) := by
  have hrefusals := refusals (T := T) names.length
  obtain ⟨m, hsent, hall⟩ := h _ List.length_replicate (fun f hf => (hrefusals f hf).1) [] []
  rw [hsent, hall fun f hf => (hrefusals f hf).2, List.take_length]

/-- The loop asks for the lossy readings of the names. -/
lemma queries_names (xs : List (NamedNode T)) :
    queries T (xs.map NamedNode.value) =
      (xs.map fun x => utf8Bytes (fromUtf8Lossy x.name)).flatMap (nameRequest T) := by
  rw [queries, List.flatMap_map, List.flatMap_map]
  rfl

section
variable {listing : Frame T} (hty : listing.ty = HmsgType.getInterfaces.toI32)
  {body : Raw T .interfaceList} {xs : List (NamedNode T)}
  (hpayload : listing.payload = namesMessage body xs)
include hty

/-- Nothing is asked for after a list that is not read. -/
lemma asksByName_unread (h : ¬ (ReadsWords T ∧ listing.Small)) (names : List (List UInt8)) :
    AsksByName (Client.allInterfaces T) listing names ↔ names = [] := by
  have hsent : ∀ input out,
      (final (Client.allInterfaces T ⟨listing.bytes ++ input, out⟩)).output =
        out ++ sentBy T .interfaces := by
    intro input out
    obtain ⟨e, rest, he⟩ := interfaces_unread hty h input out
    unfold Client.allInterfaces
    rw [bind_error he]
    rfl
  refine ⟨fun hasks => ?_, ?_⟩
  · have hnames := hasks.refused
    rw [List.flatMap_cons, List.append_assoc, hsent] at hnames
    cases names with
    | nil => rfl
    | cons name names =>
      -- a request is not empty
      have hnil := List.append_right_eq_self.mp hnames.symm
      have hhead : nameRequest T name = [] := (List.append_eq_nil_iff.mp hnil).1
      have hdrop := drop_nameRequest (T := T) name
      rw [hhead, List.drop_nil] at hdrop
      exact absurd hdrop.symm (List.append_ne_nil_of_right_ne_nil _ (List.cons_ne_nil 0 []))
  · rintro rfl fs hlen hsmall rest out
    refine ⟨0, ?_, fun _ => rfl⟩
    rw [List.flatMap_cons, List.append_assoc, hsent]
    exact (List.append_nil _).symm

include hpayload

/-- After the list the loop runs on the interfaces that are on it. -/
lemma allInterfaces_names (hT : ReadsWords T) (hsmall : listing.Small) (input out : List UInt8) :
    Client.allInterfaces T ⟨listing.bytes ++ input, out⟩ =
      Client.details T (xs.map NamedNode.value) ⟨input, out ++ sentBy T .interfaces⟩ := by
  have hlen : (namesMessage body xs).length ≤ T.isizeMax := by
    rw [← hpayload]
    exact small_le_isizeMax hsmall
  have hverdict : listing.verdict .getInterfaces = .ok (namesMessage body xs) := by
    rw [Frame.verdict, hty, hpayload]
    rfl
  have h : Client.interfaces T ⟨listing.bytes ++ input, out⟩ =
      (ofExcept (Wire.decodeInterfaces T (namesMessage body xs)) : Io _)
        ⟨input, out ++ sentBy T .interfaces⟩ := by
    rw [interfaces_frame hT hsmall, hverdict]
    rfl
  rw [Wire.decodeInterfaces_namesMessage hT body xs hlen] at h
  exact bind_ok h

/-- The names that are asked for are those that were read. -/
lemma asksByName_read (hT : ReadsWords T) (hsmall : listing.Small) :
    AsksByName (Client.allInterfaces T) listing (xs.map NamedNode.name) ↔
      ∀ x ∈ xs, ∃ s, utf8Bytes s = x.name := by
  have hread := allInterfaces_names hty hpayload hT hsmall
  refine ⟨fun hasks => ?_, fun hvalid => ?_⟩
  · have hnames := hasks.refused
    have hrefusals := refusals (T := T) (xs.map NamedNode.value).length
    obtain ⟨m, hsent, hall⟩ := details_output hT List.length_replicate
      (fun f hf => (hrefusals f hf).1) [] ([] ++ sentBy T .interfaces)
    have hm := hall fun f hf => (hrefusals f hf).2
    rw [hm, List.take_length, queries_names, List.length_map] at hsent
    rw [List.flatMap_cons, List.append_assoc, hread, List.length_map, hsent] at hnames
    have hsame := nameRequests_inj ?_ ?_ ?_ (List.append_cancel_left hnames)
    · intro x hx
      rw [← utf8Bytes_fromUtf8Lossy]
      exact List.map_inj_left.mp hsame x hx
    · intro name hname
      obtain ⟨x, -, rfl⟩ := List.mem_map.mp hname
      exact nul_notMem_lossy x.nulFree
    · intro name hname
      obtain ⟨x, -, rfl⟩ := List.mem_map.mp hname
      exact x.nulFree
    · rw [List.length_map, List.length_map]
  · intro fs hlen hsmallAll rest out
    rw [List.length_map] at hlen
    have hlen' : fs.length = (xs.map NamedNode.value).length := by rw [hlen, List.length_map]
    obtain ⟨m, hsent, hall⟩ := details_output hT hlen' hsmallAll rest (out ++ sentBy T .interfaces)
    refine ⟨m, ?_, fun h => ?_⟩
    · have hsame : (xs.take m).map (fun x => utf8Bytes (fromUtf8Lossy x.name)) =
          (xs.take m).map NamedNode.name := by
        refine List.map_congr_left fun x hx => ?_
        exact (utf8Bytes_fromUtf8Lossy _).mpr (hvalid x (List.mem_of_mem_take hx))
      rw [List.flatMap_cons, List.append_assoc, hread, hsent, ← List.map_take, queries_names,
        ← List.map_take, hsame]
    · rw [hall h, List.length_map, List.length_map]

end

/-- The interfaces of a list are asked for under their own names exactly when the list is read and every
name in it is valid UTF-8, or when there are none. -/
theorem asks_by_name {listing : Frame T} (hty : listing.ty = HmsgType.getInterfaces.toI32)
    {body : Raw T .interfaceList} {xs : List (NamedNode T)}
    (hpayload : listing.payload = namesMessage body xs) :
    (AsksByName (Client.allInterfaces T) listing (xs.map NamedNode.name) ↔
      xs = [] ∨ (ReadsWords T ∧ listing.Small ∧ ∀ x ∈ xs, ∃ s, utf8Bytes s = x.name)) ∧
    (AsksByName (block (AsyncClient.allInterfaces T)) listing (xs.map NamedNode.name) ↔
      xs = [] ∨ (ReadsWords T ∧ listing.Small ∧ ∀ x ∈ xs, ∃ s, utf8Bytes s = x.name)) := by
  rw [AsyncClient.block_allInterfaces, and_self]
  by_cases h : ReadsWords T ∧ listing.Small
  · obtain ⟨hT, hsmall⟩ := h
    rw [asksByName_read hty hpayload hT hsmall]
    refine ⟨fun hvalid => Or.inr ⟨hT, hsmall, hvalid⟩, ?_⟩
    rintro (rfl | ⟨-, -, hvalid⟩)
    · exact List.forall_mem_nil _
    · exact hvalid
  · rw [asksByName_unread hty h, List.map_eq_nil_iff]
    refine ⟨Or.inl, fun hcond => hcond.resolve_right ?_⟩
    rintro ⟨hT, hsmall, -⟩
    exact h ⟨hT, hsmall⟩

/-- The reply with a list of names. -/
def namesReply (xs : List (NamedNode .lp64le))
    (h : (namesMessage (.zeroed _ _) xs).length ≤ Target.lp64le.usizeMax) : Frame .lp64le :=
  .of .lp64le .getInterfaces (namesMessage (.zeroed _ _) xs) h

/-- An interface with the name `eth0`. -/
def eth0Node : NamedNode .lp64le :=
  ⟨.zeroed _ _, [0x65, 0x74, 0x68, 0x30], none, by decide, by decide⟩

/-- A list with one interface. -/
theorem asks_by_name_eth0 :
    AsksByName (Client.allInterfaces .lp64le) (namesReply [eth0Node] (by decide +kernel))
      [eth0Node.name] := by
  have hsmall : (namesReply [eth0Node] (by decide +kernel)).Small := by decide +kernel
  have hutf8 : ∀ x ∈ [eth0Node], ∃ s, utf8Bytes s = x.name :=
    List.forall_mem_singleton.mpr ⟨"eth0", by decide⟩
  have hasks := @asks_by_name .lp64le (namesReply [eth0Node] (by decide +kernel)) rfl _ [eth0Node] rfl
  exact hasks.1.mpr (Or.inr ⟨Or.inl rfl, hsmall, hutf8⟩)

/-- Two interfaces whose names are not UTF-8. -/
def twoNamed : List (NamedNode .lp64le) :=
  [⟨.zeroed _ _, [0xfe], none, by decide, by decide⟩,
    ⟨.zeroed _ _, [0xff], none, by decide, by decide⟩]

/-- Both are asked for under the name U+FFFD. -/
theorem asks_by_name_twoNamed :
    (final (Client.allInterfaces .lp64le
        ⟨[namesReply twoNamed (by decide +kernel), refusal _, refusal _].flatMap Frame.bytes, []⟩)).output =
      sentBy .lp64le .interfaces ++
        [[0xef, 0xbf, 0xbd], [0xef, 0xbf, 0xbd]].flatMap (nameRequest .lp64le) ∧
    ¬ AsksByName (Client.allInterfaces .lp64le) (namesReply twoNamed (by decide +kernel))
      (twoNamed.map NamedNode.name) := by
  have hsent : (final (Client.allInterfaces .lp64le
        ⟨[namesReply twoNamed (by decide +kernel), refusal _, refusal _].flatMap Frame.bytes ++ [],
          []⟩)).output =
      sentBy .lp64le .interfaces ++
        [[0xef, 0xbf, 0xbd], [0xef, 0xbf, 0xbd]].flatMap (nameRequest .lp64le) := by
    decide +kernel
  refine ⟨by rwa [List.append_nil] at hsent, fun hasks => ?_⟩
  have hnames := hasks.refused
  have hdiffer : sentBy .lp64le .interfaces ++
      [[0xef, 0xbf, 0xbd], [0xef, 0xbf, 0xbd]].flatMap (nameRequest .lp64le) ≠
      [] ++ sentBy .lp64le .interfaces ++
        (twoNamed.map NamedNode.name).flatMap (nameRequest .lp64le) := by decide +kernel
  exact hdiffer (hsent.symm.trans hnames)

end Rlldpctl
