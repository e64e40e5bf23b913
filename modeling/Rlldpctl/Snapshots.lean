import Mathlib.Data.List.ReduceOption
import Rlldpctl.Lib.Progress
import Rlldpctl.Linearization
import Rlldpctl.Wire.Consumption

/-!
# Asking for everything while it changes

`all_interfaces` is many calls, and the daemon is free to change between them. As a program of operations it
asks for the list and then for each interface on it. So what it returns need not have been all there at one
moment: each interface is as it was when it was asked for, and one that is gone by then is left out, as is one
whose name is not valid UTF-8, since it is asked for by another name. And it never gets stuck halfway.
-/

namespace Rlldpctl
open Async Exchange Transitions
open AsyncClient (AsyncIo sentBy block)
open Utf8 (utf8Bytes)
open Wire (NamedNode)

variable {T : Target} {κ σ α : Type}

/-! ## The program -/

/-- What `interfaces` has returned. -/
def Returned.list : Returned → Except Fault (List Interface)
  | .reply (.ok (.interfaces ifaces)) => .ok ifaces
  | .reply (.error e) => .error e
  | _ => .error .panic

/-- What `interface` has returned. -/
def Returned.details : Returned → Except Fault InterfaceDetails
  | .reply (.ok (.interface details)) => .ok details
  | .reply (.error e) => .error e
  | _ => .error .panic

/-- The loop of `all_interfaces`, with what is in `out`. No request is too large for its frame. -/
def detailsScript (T : Target) : List Interface → List InterfaceDetails →
    Script (Operation T) Returned (Except Fault (List InterfaceDetails))
  | [], out => .done (.ok out)
  | iface :: rest, out =>
    if hfit : (Method.request T (.call (.interface iface.name))).length ≤ T.isizeMax then
      .call ⟨_, hfit⟩ fun r =>
        match r.details with
        | .ok details => detailsScript T rest (out ++ [details])
        | .error (.error .requestRejected) => detailsScript T rest out
        | .error e => .done (.error e)
    else
      .done (.error .panic)

/-- A header has sixteen bytes at most. -/
lemma headerLen_le (T : Target) : headerLen T ≤ 16 := by
  unfold headerLen
  obtain h | h := T.ptrSize_eq
  · rw [h]
    decide
  · rw [h]
    decide

/-- A request that is not very large fits in memory. -/
lemma fits_of_le {c : Call} (h : (c.payload T).length ≤ 2 ^ 30) :
    (Method.request T (.call c)).length ≤ T.isizeMax := by
  have hheader := headerLen_le T
  have hmax := T.isizeMax_ge
  show (encodeHeader T _ _ ++ c.payload T).length ≤ _
  rw [List.length_append, encodeHeader_eq, Header.length_bytes]
  omega

/-- The request for the list is short. -/
lemma fits_interfaces (T : Target) : (Method.request T (.call .interfaces)).length ≤ T.isizeMax :=
  fits_of_le (Nat.zero_le _)

/-- `all_interfaces` as a program of operations. -/
def allInterfacesScript (T : Target) :
    Script (Operation T) Returned (Except Fault (List InterfaceDetails)) :=
  .call ⟨_, fits_interfaces T⟩ fun r =>
    match r.list with
    | .ok ifaces => detailsScript T ifaces []
    | .error e => .done (.error e)

/-- The names in a list that is not too large can be asked for. -/
lemma fits_listed {f : Frame T} (hsmall : f.Small) {ifaces : List Interface}
    (h : f.verdict .getInterfaces >>= Wire.decodeInterfaces T = .ok ifaces) {iface : Interface}
    (hmem : iface ∈ ifaces) :
    (Method.request T (.call (.interface iface.name))).length ≤ T.isizeMax := by
  have hdecode : Wire.decodeInterfaces T f.payload = .ok ifaces := by
    unfold Frame.verdict at h
    split at h
    · cases h
    · split at h
      · cases h
      · exact h
  have hname := Wire.length_name_le (small_le_isizeMax hsmall) hdecode hmem
  have hptr := T.ptrSize_le
  have hle : f.payload.length ≤ 2 ^ 19 := hsmall
  refine fits_of_le ?_
  show (Wire.encodeInterfaceNameRequest T iface.name).length ≤ _
  rw [Wire.encodeInterfaceNameRequest_eq, Wire.length_front, List.length_append, List.length_singleton]
  omega

/-! ## The future runs the program -/

/-- A future that matches on a result. -/
lemma run_attempt {β : Type} (x : AsyncIo α) (f : Except Fault α → AsyncIo β) :
    ExceptT.run (AsyncClient.attempt x >>= f) = ExceptT.run x >>= fun r => ExceptT.run (f r) := by
  have hrun : ExceptT.run (AsyncClient.attempt x) =
      ExceptT.run x >>= fun r => Fut.done (Except.ok r) := rfl
  rw [AsyncClient.run_bind, hrun, bind_assoc]
  rfl

/-- A program that begins with a call of `interfaces`. -/
lemma run_interfaces (k : Except Fault (List Interface) → Fut α) :
    (ExceptT.run (AsyncClient.interfaces T) >>= k) =
      (Method.call .interfaces).fut T >>= fun r => k r.list := by
  show _ = ((ExceptT.run (AsyncClient.interfaces T >>= fun ifaces => pure (Reply.interfaces ifaces))) >>=
    fun r => Fut.done (Returned.reply r)) >>= _
  rw [AsyncClient.run_bind, bind_assoc, bind_assoc]
  refine congrArg _ (funext fun r => ?_)
  cases r with
  | ok ifaces => rfl
  | error e => rfl

/-- A program that begins with a call of `interface`. -/
lemma run_interface (name : String) (k : Except Fault InterfaceDetails → Fut α) :
    (ExceptT.run (AsyncClient.interface T name) >>= k) =
      (Method.call (.interface name)).fut T >>= fun r => k r.details := by
  show _ = ((ExceptT.run (AsyncClient.interface T name >>= fun details =>
    pure (Reply.interface details))) >>= fun r => Fut.done (Returned.reply r)) >>= _
  rw [AsyncClient.run_bind, bind_assoc, bind_assoc]
  refine congrArg _ (funext fun r => ?_)
  cases r with
  | ok details => rfl
  | error e => rfl

section
variable (hT : ReadsWords T)

/-- No call opens a subscription. -/
lemma not_opens_call {c : Call} (hfit : (Method.request T (.call c)).length ≤ T.isizeMax) :
    ¬ (session hT).opens ((session hT).request ⟨.call c, hfit⟩) := by
  obtain ⟨f, hframe, hty, -⟩ := sentBy_frame hT hfit
  show requestTy T (sentBy T c) ≠ _
  rw [hframe, Frame.requestTy, hty]
  have hne : HmsgType.getInterfaces.toI32 ≠ HmsgType.subscribe.toI32 ∧
      HmsgType.getInterface.toI32 ≠ HmsgType.subscribe.toI32 ∧
      HmsgType.setPort.toI32 ≠ HmsgType.subscribe.toI32 := by decide
  cases c with
  | interfaces => exact hne.1
  | interface ifname => exact hne.2.1
  | setPortDescription ifname description => exact hne.2.2

/-- The loop runs as its script. -/
lemma runs_details {ifaces : List Interface}
    (hfits : ∀ iface ∈ ifaces, (Method.request T (.call (.interface iface.name))).length ≤ T.isizeMax)
    (out : List InterfaceDetails) :
    (session hT).Runs False (detailsScript T ifaces out)
      (ExceptT.run (AsyncClient.details T ifaces) >>= fun r => .done (r.map (out ++ ·))) := by
  induction ifaces generalizing out with
  | nil =>
    show Fut.done (Except.ok (out ++ [])) = _
    rw [List.append_nil]
  | cons iface rest ih =>
    obtain ⟨hfit, hfits⟩ := List.forall_mem_cons.mp hfits
    rw [detailsScript, dif_pos hfit, AsyncClient.details, run_attempt, bind_assoc, run_interface]
    refine ⟨iff_of_false id (AsyncClient.sentBy_ne_nil _), _, rfl, fun m => ?_⟩
    rw [eq_false (not_opens_call hT hfit), or_false]
    dsimp only
    generalize ((session hT).outcome ⟨_, hfit⟩ m).details = r
    cases r with
    | ok details =>
      -- the loop of the future returns what is still to come, the program collects it
      have hpush : (ExceptT.run (AsyncClient.details T rest >>= fun ds => pure (details :: ds)) >>=
            fun r => Fut.done (r.map (out ++ ·))) =
          ExceptT.run (AsyncClient.details T rest) >>=
            fun r => Fut.done (r.map (out ++ [details] ++ ·)) := by
        rw [AsyncClient.run_bind, bind_assoc]
        refine congrArg _ (funext fun r => ?_)
        cases r with
        | ok ds => exact congrArg (fun ds => Fut.done (Except.ok ds)) (List.append_cons out details ds)
        | error e => rfl
      show (session hT).Runs False (detailsScript T rest (out ++ [details])) _
      rw [hpush]
      exact ih hfits (out ++ [details])
    | error e =>
      cases e with
      | panic => rfl
      | error e =>
        cases e with
        | requestRejected => exact ih hfits out
        | io kind => rfl
        | unexpectedMessageType expected got => rfl
        | protocol msg => rfl

/-- What `interfaces` has returned after a reply. -/
lemma list_outcome (f : Frame T) : (Returned.reply (f.outcome .interfaces)).list =
    f.verdict .getInterfaces >>= Wire.decodeInterfaces T := by
  show (Returned.reply (f.verdict .getInterfaces >>= Call.decode T .interfaces)).list = _
  cases f.verdict .getInterfaces with
  | error e => rfl
  | ok payload =>
    show (Returned.reply ((Wire.decodeInterfaces T payload).map Reply.interfaces)).list =
      Wire.decodeInterfaces T payload
    cases Wire.decodeInterfaces T payload with
    | ok ifaces => rfl
    | error e => rfl

/-- `all_interfaces` runs its program. -/
lemma runs_allInterfaces : (session hT).Runs False (allInterfacesScript T)
    (ExceptT.run (AsyncClient.allInterfaces T)) := by
  rw [AsyncClient.allInterfaces, AsyncClient.run_bind, run_interfaces]
  refine ⟨iff_of_false id (AsyncClient.sentBy_ne_nil _), _, rfl, fun m => ?_⟩
  rw [eq_false (not_opens_call hT (fits_interfaces T)), or_false]
  have hlist : ((session hT).outcome ⟨_, fits_interfaces T⟩ m).list =
      m.1.verdict .getInterfaces >>= Wire.decodeInterfaces T := list_outcome m.1
  dsimp only
  generalize hr : ((session hT).outcome ⟨_, fits_interfaces T⟩ m).list = r
  rw [hlist] at hr
  cases r with
  | error e => rfl
  | ok ifaces =>
    have h := runs_details hT (fun iface hmem => fits_listed m.2 hr hmem) []
    have hid : ∀ r : Except Fault (List InterfaceDetails), r.map ([] ++ ·) = r := by
      intro r
      cases r with
      | ok ds => rfl
      | error e => rfl
    simp only [hid] at h
    rwa [Fut.bind_eq, Fut.bind_done] at h

end

/-! ## What it returns -/

/-- The name by which a listed interface is asked for: its own, with what is not valid UTF-8 replaced. -/
def Wire.NamedNode.askedName (x : NamedNode T) : List UInt8 :=
  utf8Bytes (Utf8.fromUtf8Lossy x.name)

/-- The details of an interface, when the daemon knows its name. -/
def Lldpd.details [DecidableEq κ] (D : Lldpd T κ σ) (before : σ) (iface : Interface) :
    Option InterfaceDetails :=
  (D.hardware before (Wire.cString (Wire.stringContent iface.name))).map fun x => x.value (D.heap before)

section
variable [DecidableEq κ] {D : Lldpd T κ σ}

/-- The loop asks for one interface after another and keeps those that the daemon knows then. -/
lemma details_played {ifaces : List Interface}
    (hfits : ∀ iface ∈ ifaces, (Method.request T (.call (.interface iface.name))).length ≤ T.isizeMax)
    {out : List InterfaceDetails} {completed : List (Completed (Operation T) Returned)}
    {r : Except Fault (List InterfaceDetails)}
    (hplayed : Played (detailsScript T ifaces out) completed (.done r))
    {es : List (Sent σ (Message T) × Nat)} (hsaw : List.Forall₂ D.Saw completed es) :
    completed.map (fun c => c.op.1) = ifaces.map (fun iface => .call (.interface iface.name)) ∧
      r = .ok (out ++ (List.zipWith (fun iface e => D.details e.1.before iface) ifaces es).reduceOption) := by
  induction ifaces generalizing out completed es with
  | nil =>
    obtain ⟨rfl, rfl⟩ := hplayed.done_inv
    exact ⟨rfl, congrArg Except.ok (List.append_nil out).symm⟩
  | cons iface rest ih =>
    obtain ⟨hfit, hfits⟩ := List.forall_mem_cons.mp hfits
    rw [detailsScript, dif_pos hfit] at hplayed
    obtain ⟨c, completed, rfl, hop, hrest⟩ := hplayed.call_inv
    cases hsaw with
    | @cons _ e _ es hhead htail =>
      have hresult : c.result = .reply (D.result e.1.before (.interface iface.name)) := by
        unfold Lldpd.Saw at hhead
        rw [hop] at hhead
        exact hhead.2.1
      have hops : ∀ {cs : List (Completed (Operation T) Returned)},
          cs.map (fun c => c.op.1) = rest.map (fun iface => .call (.interface iface.name)) →
          (c :: cs).map (fun c => c.op.1) =
            (iface :: rest).map (fun iface => .call (.interface iface.name)) := by
        intro cs h
        rw [List.map_cons, List.map_cons, h, hop]
      rw [hresult, Lldpd.result] at hrest
      cases hx : D.hardware e.1.before (Wire.cString (Wire.stringContent iface.name)) with
      | none =>
        have hgone : D.details e.1.before iface = none := by rw [Lldpd.details, hx, Option.map_none]
        rw [hx] at hrest
        obtain ⟨hcalls, hr⟩ := ih hfits hrest htail
        refine ⟨hops hcalls, ?_⟩
        rw [hr, List.zipWith_cons_cons, hgone, List.reduceOption_cons_of_none]
      | some x =>
        have hthere : D.details e.1.before iface = some (x.value (D.heap e.1.before)) := by
          rw [Lldpd.details, hx, Option.map_some]
        rw [hx] at hrest
        obtain ⟨hcalls, hr⟩ := ih hfits hrest htail
        refine ⟨hops hcalls, ?_⟩
        rw [hr, List.zipWith_cons_cons, hthere, List.reduceOption_cons_of_some, List.append_assoc]
        rfl

/-- The list is the one that the daemon had when it was asked for it. -/
lemma allInterfaces_played (hT : ReadsWords T)
    {completed : List (Completed (Operation T) Returned)} {r : Except Fault (List InterfaceDetails)}
    (hplayed : Played (allInterfacesScript T) completed (.done r))
    {es : List (Sent σ (Message T) × Nat)} (hexplains : List.Forall₂ (session hT).Explains completed es)
    (hsaw : List.Forall₂ D.Saw completed es) :
    ∃ listing replies, es = listing :: replies ∧
      let ifaces := (D.interfaces listing.1.before).2.map NamedNode.value
      completed.map (fun c => c.op.1) =
        (Call.interfaces :: ifaces.map (.interface ·.name)).map Method.call ∧
      r = .ok (List.zipWith (fun iface e => D.details e.1.before iface) ifaces replies).reduceOption := by
  obtain ⟨c, completed, rfl, hop, hrest⟩ := hplayed.call_inv
  cases hexplains with
  | @cons _ listing _ replies hexplains _ =>
    cases hsaw with
    | cons hhead htail =>
      have hresult : c.result = .reply (D.result listing.1.before .interfaces) := by
        unfold Lldpd.Saw at hhead
        rw [hop] at hhead
        exact hhead.2.1
      -- the names were in a reply, so they are not too long
      have hdecode : listing.1.message.1.verdict .getInterfaces >>= Wire.decodeInterfaces T =
          .ok ((D.interfaces listing.1.before).2.map NamedNode.value) := by
        have houtcome := hexplains.2
        rw [hop, hresult] at houtcome
        rw [← list_outcome]
        exact (congrArg Returned.list houtcome).symm
      rw [hresult] at hrest
      obtain ⟨hcalls, hr⟩ :=
        details_played (fun iface hmem => fits_listed listing.1.message.2 hdecode hmem) hrest htail
      refine ⟨listing, replies, rfl, ?_, hr⟩
      simp only [List.map_cons, hcalls, hop, List.map_map]
      rfl

end

/-- The details of a listed interface, when the daemon knows the name by which it is asked for. -/
def Lldpd.lookup [DecidableEq κ] (D : Lldpd T κ σ) (before : σ) (x : NamedNode T) :
    Option InterfaceDetails :=
  (D.hardware before x.askedName).map fun details => details.value (D.heap before)

/-- The lossy reading of a name has no NUL, so the daemon sees all of it. -/
lemma Lldpd.details_value [DecidableEq κ] (D : Lldpd T κ σ) (before : σ) (x : NamedNode T) :
    D.details before x.value = D.lookup before x := by
  have hname : Wire.cString (Wire.stringContent x.value.name) = x.askedName :=
    Wire.cString_stringContent (Utf8.nul_notMem_lossy x.nulFree)
  rw [details, hname]
  rfl

/-- However the bytes are split and whatever the daemon does meanwhile: when `all_interfaces` has returned,
the daemon was asked for the list and then once for each interface on it, in this order. The result is never
an error. It holds, in the order of the list, the interfaces for which the daemon still knew the name it was
asked for when it answered, each as it was then. On the same replies the blocking client returns the same.
This is on targets that read words back, and with the details in the layout of the released versions. -/
theorem all_interfaces_sees_daemon [DecidableEq κ] (hT : ReadsWords T) (D : Lldpd T κ σ) {server : σ}
    {t : Talk (Message T) (Except Fault (List InterfaceDetails)) σ}
    (h : Reach (session hT).turn ((session hT).Fair D.service)
      (.start server (ExceptT.run (AsyncClient.allInterfaces T))) t)
    {r : Except Fault (List InterfaceDetails)} (hdone : t.fut = .done r) :
    Legal D.service server t.history t.server ∧
      (∃ listing replies, sends t.history = listing :: replies ∧
        let listed := (D.interfaces listing.1.before).2
        (sends t.history).map (·.1.request) =
          some (nativeMessage T .getInterfaces []) ::
            listed.map (fun x => some (nativeNameRequest T x.askedName)) ∧
        r = .ok (List.zipWith (fun x e => D.lookup e.1.before x) listed replies).reduceOption) ∧
      ∀ rest out, Client.allInterfaces T ⟨(sends t.history).flatMap (·.1.message.1.bytes) ++ rest, out⟩ =
        (ofExcept r : Io _) ⟨rest, out ++ t.sent⟩ := by
  obtain ⟨hlegal, completed, hplayed, hexplains, hall⟩ :=
    Protocol.explained (runs_allInterfaces hT) h hdone
  obtain ⟨listing, replies, hes, hcalls, hr⟩ :=
    allInterfaces_played hT hplayed hexplains (Lldpd.saw_all hT (Lldpd.permits_sends hlegal) hexplains)
  have hcall : ∀ c ∈ completed, ∃ call, c.op.1 = .call call := by
    intro c hc
    have hmem : c.op.1 ∈ completed.map (fun c => c.op.1) := List.mem_map_of_mem hc
    rw [hcalls] at hmem
    obtain ⟨call, -, heq⟩ := List.mem_map.mp hmem
    exact ⟨call, heq.symm⟩
  have hne : ∀ c ∈ completed, (session hT).request c.op ≠ [] := by
    intro c hc
    obtain ⟨call, heq⟩ := hcall c hc
    show c.op.1.request T ≠ []
    rw [heq]
    exact AsyncClient.sentBy_ne_nil call
  -- no call opens a subscription, so every message that was sent has been returned
  obtain ⟨hlength, hstream⟩ | ⟨c, hc, hopens⟩ := hall
  · rw [hlength, List.take_length] at hexplains hes
    rw [List.zipWith_map_left] at hr
    simp only [Lldpd.details_value] at hr
    refine ⟨hlegal, ⟨listing, replies, hes, ?_, hr⟩, fun rest out => ?_⟩
    · have hrequests := congrArg (List.map fun m : Method => some (m.request T)) hcalls
      simp only [List.map_cons, List.map_map] at hrequests
      rw [Protocol.requests_of_explains hexplains hne]
      refine hrequests.trans (congrArg₂ _ (congrArg some (sentBy_interfaces hT)) ?_)
      exact List.map_congr_left fun x _ => congrArg some (sentBy_interface hT x.value.name)
    · -- the blocking client reads the same messages at once
      obtain ⟨taken, htaken, hrun⟩ := Protocol.replays h
      rw [hstream, List.append_nil] at htaken
      have hend := hrun rest
      rw [hdone, Fut.run, List.append_nil, htaken] at hend
      rw [← AsyncClient.block_allInterfaces]
      show AsyncClient.ended (Fut.run _ _) out = _
      rw [show (sends t.history).flatMap (·.1.message.1.bytes) =
        (sends t.history).flatMap ((session hT).bytes ·.1.message) from rfl, hend]
      cases r with
      | ok ds => rfl
      | error e => rfl
  · obtain ⟨⟨m, hfit⟩, began, result⟩ := c
    obtain ⟨call, rfl⟩ := hcall _ hc
    exact absurd hopens (not_opens_call hT hfit)

/-! ## A run -/

/-- An interface with the name `eth1`. -/
def eth1Node : NamedNode .lp64le :=
  ⟨.zeroed _ _, [0x65, 0x74, 0x68, 0x31], none, by decide, by decide⟩

/-- The details of `eth0` without neighbors. -/
def bareHardware : Wire.HardwareNode .lp64le Empty .hardware where
  body := .zeroed _ _
  ifname := (Wire.sampleHardware .lp64le).ifname
  lladdr := (Wire.sampleHardware .lp64le).lladdr
  ifalias := none
  lport :=
    { body := .zeroed _ _
      chassis := none
      idSubtype := 5
      id := none
      description := none
      vlanAdvertisePattern := none
      ttl := 120
      medLocation _ := ⟨.zeroed _ _, none⟩
      vlans := []
      ppvids := []
      pids := [] }
  rports := []

/-- A daemon that lists `eth0` and `eth1`, of which `eth1` may go away. -/
def leaving : Lldpd .lp64le Empty Bool where
  interfaces _ := (.zeroed _ _, [eth0Node, eth1Node])
  heap _ := Empty.elim
  hardware there name :=
    if name = eth0Node.name ∨ there = true ∧ name = eth1Node.name then
      some bareHardware
    else
      none
  setPort _ _ _ _ := none
  changes _ after := after = false
  notifies _ _ _ := False

/-- An answer is compared with the one that the daemon makes. -/
instance (before after : Bool) (request : List UInt8) (message : Message .lp64le) :
    Decidable (leaving.service.answers before request message after) :=
  inferInstanceAs (Decidable (leaving.Replies _ _ _ _))

/-- The daemon notifies nobody. -/
instance (before after : Bool) (message : Message .lp64le) :
    Decidable (leaving.service.notifies before message after) :=
  isFalse fun ⟨_, h, _⟩ => h

/-- An interface leaves and does not come back. -/
instance (before after : Bool) : Decidable (leaving.service.changes before after) :=
  inferInstanceAs (Decidable (after = false))

/-- The list is short. -/
lemma length_leaving : (Wire.namesMessage (.zeroed _ _) [eth0Node, eth1Node]).length ≤
    Target.lp64le.usizeMax := by
  decide +kernel

/-- So it is small. -/
lemma small_leaving : (namesReply [eth0Node, eth1Node] length_leaving).Small := by
  decide +kernel

/-- The details are short. -/
lemma length_bare : (Wire.hardwareMessage (Wire.Naming.orig _) Empty.elim bareHardware).length ≤
    Target.lp64le.usizeMax := by
  decide +kernel

/-- So they are small. -/
lemma small_bare : (Frame.of .lp64le .getInterface _ length_bare).Small := by
  decide +kernel

/-- A refusal is small. -/
lemma small_refusal : (refusal .lp64le).Small := Nat.zero_le _

/-- While `all_interfaces` asks for `eth0`, `eth1` goes away. -/
def leavingTurns : List (Turn (Message .lp64le) Bool) :=
  [.write 16, .answer ⟨_, small_leaving⟩ true, .arrive 100, .poll 10, .poll 6, .arrive 89, .poll 173,
    .write 37, .answer ⟨_, small_bare⟩ true, .change false, .arrive 3000, .poll 16, .poll 712,
    .write 37, .answer ⟨_, small_refusal⟩ false, .arrive 16, .poll 16]

/-- The interface that has left is not in the result. -/
theorem all_interfaces_sees_daemon_leaving :
    ∃ t r, Transitions.run (session readsWords_lp64le).turn
        ((session readsWords_lp64le).Fair leaving.service)
        (.start true (ExceptT.run (AsyncClient.allInterfaces .lp64le))) leavingTurns = some t ∧
      t.fut = .done r ∧ Legal leaving.service true t.history t.server ∧
      (∃ listing replies, sends t.history = listing :: replies ∧
        let listed := (leaving.interfaces listing.1.before).2
        (sends t.history).map (·.1.request) =
          some (nativeMessage .lp64le .getInterfaces []) ::
            listed.map (fun x => some (nativeNameRequest .lp64le x.askedName)) ∧
        r = .ok (List.zipWith (fun x e => leaving.lookup e.1.before x) listed replies).reduceOption) ∧
      ∀ rest out, Client.allInterfaces .lp64le
          ⟨(sends t.history).flatMap (·.1.message.1.bytes) ++ rest, out⟩ =
        (ofExcept r : Io _) ⟨rest, out ++ t.sent⟩ := by
  have hrun : (Transitions.run (session readsWords_lp64le).turn
      ((session readsWords_lp64le).Fair leaving.service)
      (.start true (ExceptT.run (AsyncClient.allInterfaces .lp64le))) leavingTurns).any
      fun t => t.fut.result?.isSome := by decide +kernel
  obtain ⟨t, ht, hdone⟩ := (Option.any_eq_true _ _).mp hrun
  obtain ⟨r, hr⟩ := Option.isSome_iff_exists.mp hdone
  have hr := Fut.result?_eq_some hr
  exact ⟨t, r, ht, hr,
    all_interfaces_sees_daemon readsWords_lp64le leaving (Reach.run .init ht) hr⟩

/-! ## That it returns -/

/-- The daemon builds no message that is too large. -/
def Lldpd.Fits (D : Lldpd T κ σ) [DecidableEq κ] : Prop :=
  ∀ before,
    (Wire.namesMessage (D.interfaces before).1 (D.interfaces before).2).length ≤ hmsgMaxSize ∧
    ∀ name, ∀ x ∈ D.hardware before name,
      (Wire.hardwareMessage (Wire.Naming.orig T) (D.heap before) x).length ≤ hmsgMaxSize

/-- The loop asks in every call. -/
lemma asks_details (hT : ReadsWords T) (ifaces : List Interface) (out : List InterfaceDetails) :
    (session hT).Asks (detailsScript T ifaces out) := by
  induction ifaces generalizing out with
  | nil => trivial
  | cons iface rest ih =>
    rw [detailsScript]
    split
    case isFalse => trivial
    case isTrue hfit =>
      refine ⟨AsyncClient.sentBy_ne_nil _, fun m => ?_⟩
      dsimp only
      generalize ((session hT).outcome ⟨_, hfit⟩ m).details = r
      cases r with
      | ok details => exact ih (out ++ [details])
      | error e =>
        cases e with
        | panic => trivial
        | error e =>
          cases e with
          | requestRejected => exact ih out
          | io kind => trivial
          | unexpectedMessageType expected got => trivial
          | protocol msg => trivial

/-- `all_interfaces` asks in every call. -/
lemma asks_allInterfaces (hT : ReadsWords T) : (session hT).Asks (allInterfacesScript T) := by
  refine ⟨AsyncClient.sentBy_ne_nil _, fun m => ?_⟩
  dsimp only
  generalize ((session hT).outcome ⟨_, fits_interfaces T⟩ m).list = r
  cases r with
  | ok ifaces => exact asks_details hT ifaces []
  | error e => trivial

/-- A message that is not too large. -/
lemma exists_message (ty : Int32) {payload : List UInt8} (h : payload.length ≤ hmsgMaxSize) :
    ∃ m : Message T, m.1.ty = ty ∧ m.1.payload = payload := by
  have hmax := T.two_mul_isizeMax
  have hle : payload.length ≤ T.isizeMax := small_le_isizeMax h
  have hle : payload.length ≤ T.usizeMax := by omega
  exact ⟨⟨⟨.zeroed T, ty, payload, hle⟩, h⟩, rfl, rfl⟩

/-- A daemon that builds no message that is too large answers every query. -/
lemma Lldpd.Fits.exists_replies [DecidableEq κ] {D : Lldpd T κ σ} (h : D.Fits) (before : σ)
    (query : Query T) : ∃ m : Message T, ∃ after, D.Replies before query m.1 after := by
  obtain ⟨hnames, hdetails⟩ := h before
  have hempty : ([] : List UInt8).length ≤ hmsgMaxSize := Nat.zero_le _
  obtain ⟨rejection, hrejection, -⟩ := exists_message (T := T) HmsgType.none.toI32 hempty
  cases query with
  | interfaces =>
    obtain ⟨m, hty, hpayload⟩ := exists_message HmsgType.getInterfaces.toI32 hnames
    exact ⟨m, before, rfl, hty, hpayload⟩
  | interface name =>
    cases hx : D.hardware before name with
    | none =>
      refine ⟨rejection, before, rfl, ?_⟩
      rw [hx]
      exact hrejection
    | some x =>
      obtain ⟨m, hty, hpayload⟩ :=
        exists_message HmsgType.getInterface.toI32 (hdetails name x hx)
      refine ⟨m, before, rfl, ?_⟩
      rw [hx]
      exact ⟨hty, hpayload⟩
  | setPort settings ifname description =>
    unfold Lldpd.Replies
    cases hx : D.setPort before settings ifname description with
    | none =>
      refine ⟨rejection, before, ?_⟩
      simp only [hx]
      exact ⟨trivial, hrejection⟩
    | some changed =>
      obtain ⟨m, hty, hpayload⟩ := exists_message HmsgType.setPort.toI32 hempty
      refine ⟨m, changed, ?_⟩
      simp only [hx]
      exact ⟨trivial, hty, hpayload⟩
  | subscribe =>
    obtain ⟨m, hty, hpayload⟩ := exists_message HmsgType.subscribe.toI32 hempty
    exact ⟨m, before, rfl, hty, hpayload⟩
  | unknown => exact ⟨rejection, before, rfl, hrejection⟩

/-- In every run in which the client goes on writing and polling, the daemon answers requests that are
complete and what was sent arrives, `all_interfaces` returns a list. Neither side ever waits for bytes that
the other has no reason to send. This is on targets that read words back, with a daemon that builds no message
that is too large and sends the details in the layout of the released versions. -/
theorem all_interfaces_returns [DecidableEq κ] (hT : ReadsWords T) (D : Lldpd T κ σ) (hfits : D.Fits)
    {server : σ} {r : Run (session hT).turn ((session hT).Fair D.service)}
    (hstart : r.state 0 = .start server (ExceptT.run (AsyncClient.allInterfaces T)))
    (hfair : ∀ d : Duty, r.Fair d.MetIn) : ∃ t details, (r.state t).fut = .done (.ok details) := by
  have htotal : (session hT).Answering D.service := fun before i _ =>
    hfits.exists_replies before (Query.parse T (i.1.request T))
  obtain ⟨t, result, hdone⟩ :=
    Protocol.eventually_done hfair htotal (asks_allInterfaces hT) (runs_allInterfaces hT) hstart
  have hreach := r.reach t
  rw [hstart] at hreach
  obtain ⟨hlegal, completed, hplayed, hexplains, -⟩ :=
    Protocol.explained (runs_allInterfaces hT) hreach hdone
  obtain ⟨listing, replies, -, -, hresult⟩ :=
    allInterfaces_played hT hplayed hexplains (Lldpd.saw_all hT (Lldpd.permits_sends hlegal) hexplains)
  exact ⟨t, _, hdone.trans (congrArg Fut.done hresult)⟩

/-- The daemon of this run builds no message that is too large. -/
lemma fits_leaving : leaving.Fits := by
  intro before
  refine ⟨small_leaving, fun name x hx => ?_⟩
  show (Wire.hardwareMessage _ Empty.elim x).length ≤ _
  obtain rfl : x = bareHardware := by
    change x ∈ (if _ then some bareHardware else none) at hx
    split at hx
    · exact (Option.some.inj hx).symm
    · cases hx
  exact small_bare

/-- `eth1` is gone when it is asked for. -/
theorem all_interfaces_returns_leaving :
    ∃ r : Run (session readsWords_lp64le).turn
        ((session readsWords_lp64le).Fair leaving.service),
      r.state 0 = .start true (ExceptT.run (AsyncClient.allInterfaces .lp64le)) ∧
      (∀ d : Duty, r.Fair d.MetIn) ∧ ∃ t details, (r.state t).fut = .done (.ok details) := by
  have hrun : (Transitions.run (session readsWords_lp64le).turn
      ((session readsWords_lp64le).Fair leaving.service)
      (.start true (ExceptT.run (AsyncClient.allInterfaces .lp64le))) leavingTurns).any fun t =>
        t.fut.result?.isSome ∧ t.wire = [] ∧ t.parsed = t.sent.length := by decide +kernel
  obtain ⟨t, ht, hend⟩ := (Option.any_eq_true _ _).mp hrun
  obtain ⟨hdone, hwire, hparsed⟩ := of_decide_eq_true hend
  obtain ⟨result, hresult⟩ := Option.isSome_iff_exists.mp hdone
  let r := Run.ofEvents ht
  have hfair : ∀ d : Duty, r.Fair d.MetIn := fun d =>
    Run.fair_ofEvents ht
      (Protocol.not_enabled_talk (Fut.result?_eq_some hresult) hwire hparsed)
  exact ⟨r, rfl, hfair, all_interfaces_returns readsWords_lp64le leaving fits_leaving rfl hfair⟩

end Rlldpctl
