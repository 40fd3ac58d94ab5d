/-
  PicoosLwip.Dhcps.Handshake — what a client that has an address gets for a
  DHCPREQUEST.

  The address a REQUEST asks for is the data of its last option 50 of length 4,
  or 0.0.0.0 when it has none.  A client that holds a slot gets an ACK exactly
  when that is the slot's address (`Serves.answer`), so:

    * `handshake_completes_iff` — an OFFER is followed by an ACK when the client
      asks for what it was offered, whatever other datagrams come between, as
      long as the server returns from each of them;
    * `handshake_stuck` — a REQUEST without END, from which it does not return;
    * `renewal_iff` — a REQUEST that carries the address in `ciaddr`, as a
      renewing client sends it, is refused, unless the address is 0.0.0.0.
-/
import PicoosLwip.Dhcps.Deliveries
import PicoosLwip.Dhcps.LeaseHistory

namespace PicoosLwip.Dhcps

open PicoosLwip.Framework

/-- The call returns after sending one message, which satisfies `good`. -/
def AnswersWith (cfg : Config) (s : Server) (d : Datagram) (good : List UInt8 → Prop) : Prop :=
  ∃ es s' msg, RecvStep cfg s (d, es) s' ∧ sentMsgs es = [msg] ∧ good msg

/-- An ACK of `addr`. -/
def IsAck (addr : Ip4Addr) (msg : List UInt8) : Prop :=
  HasType DHCPACK msg ∧ yiaddr msg = some addr

/-- A call has one outcome. -/
theorem AnswersWith.and {cfg : Config} {s : Server} {d : Datagram} {P Q : List UInt8 → Prop}
    (h : AnswersWith cfg s d P) (h' : AnswersWith cfg s d Q) :
    AnswersWith cfg s d fun msg => P msg ∧ Q msg := by
  obtain ⟨es, s', msg, hstep, hsent, hP⟩ := h
  obtain ⟨es', s'', msg', hstep', hsent', hQ⟩ := h'
  -- `dhcpRecv` is a function: the events are the same, and so is the message
  have hes : es = es' := congrArg Outcome.events (hstep.symm.trans hstep')
  subst hes
  obtain rfl : msg = msg' := by
    rw [hsent] at hsent'
    exact List.cons.inj hsent' |>.1
  exact ⟨es, s', msg, hstep, hsent, hP, hQ⟩

section Answer

variable {cfg : Config} {pool : List Ip4Addr} {c : Admitted EthAddr MAX_LEASES} {s : Server}
  {d : Datagram} {m : EthAddr} {addr : Ip4Addr} {ts : List Tlv} {b : List UInt8}

/-- **The answer to a client that holds `addr`**: the option scan alone decides. -/
theorem Serves.answer (h : Serves pool c s) (hheld : Admitted.holding pool c m = some addr)
    (hm : m ≠ freeMac) (hchaddr : d.p.chaddr = some m)
    (hopts : d.p.HasOptions (msgTypeOpt DHCPREQUEST :: ts)) (hbuf : replyBuf cfg d.rp = some b) :
    if (lastReqAddr ts).getD anyAddr = addr then AnswersWith cfg s d (IsAck addr)
    else AnswersWith cfg s d (HasType DHCPNAK) := by
  have halloc := h.allocateAddr_of_holding hm hheld
  have hscan := hopts.scan { s with leases := s.leases }
  rw [lastReqAddr_msgType] at hscan
  have hsize := (replyBuf_eq_some hbuf).2
  split
  next heq =>
    rw [heq] at hscan
    obtain ⟨es, mac, hstep, hsent, _⟩ := recv_ack hopts.handler_request hchaddr halloc hbuf hscan
    exact ⟨es, _, _, hstep, hsent, hasType_ackMsg hsize _ _, (grants_ackMsg hsize _ _).2⟩
  next hne =>
    obtain ⟨es, hstep, hsent⟩ := recv_nak hopts.handler_request hchaddr halloc hbuf hscan hne
    exact ⟨es, _, _, hstep, hsent, hasType_nakMsg hsize _⟩

end Answer

/-! ## §1. From the OFFER to the ACK. -/

/-- The history contains an OFFER of `addr` to `m`, the answer to a DISCOVER. -/
def OfferIn (ls : List (Datagram × List Event)) (m : EthAddr) (addr : Ip4Addr) : Prop :=
  ∃ d es msg, (d, es) ∈ ls ∧ d.p.handler = some .discover ∧ d.p.chaddr = some m
    ∧ msg ∈ sentMsgs es ∧ HasType DHCPOFFER msg ∧ yiaddr msg = some addr

/-- What a client that was offered `addr` is due when it asks for `asked`. -/
def DueAnswer (addr asked : Ip4Addr) (msg : List UInt8) : Prop :=
  if asked = addr then IsAck addr msg else HasType DHCPNAK msg

section Completes

variable {cfg : Config} {netif : Netif} {udpNew : Option Nat} {s₀ s : Server} {t : Option Server}
  {ls : List (Datagram × List Event)} {m : EthAddr} {addr asked : Ip4Addr} {d : Datagram}
  {ts : List Tlv} {b : List UInt8}

/-- Between datagrams that were all handled the OFFER is kept. -/
theorem answer_after_offer (hrun : Run (RecvStep cfg) (dhcpServerStartRaw netif udpNew s₀) ls s)
    (hm : m ≠ freeMac) (hoffer : OfferIn ls m addr) (hchaddr : d.p.chaddr = some m)
    (hopts : d.p.HasOptions (msgTypeOpt DHCPREQUEST :: ts)) (hbuf : replyBuf cfg d.rp = some b)
    (hreq : lastReqAddr ts = some asked) : AnswersWith cfg s d (DueAnswer addr asked) := by
  have hstart := serves_start netif udpNew s₀
  obtain ⟨d₀, es₀, msg, hin, hh, hm₀, hsent, htype, haddr⟩ := hoffer
  -- the OFFER put the client in, and it keeps its place through the run
  have hask : d₀.asker = some m := Datagram.asker_eq_some.mpr ⟨client_eq hh hm₀, hm⟩
  have hheld := hstart.holding_of_run hrun hin hask hsent ⟨.inl htype, haddr⟩
  have hanswer := (hstart.run hrun).answer hheld hm hchaddr hopts hbuf
  rw [hreq, Option.getD_some] at hanswer
  unfold DueAnswer
  split at hanswer
  next heq =>
    simp only [if_pos heq]
    exact hanswer
  next hne =>
    simp only [if_neg hne]
    exact hanswer

/-- **The handshake completes** exactly where the server has returned from every
call, whoever the datagrams in between come from. -/
theorem handshake_completes_iff
    (hrun : Run (Deliver cfg) (some (dhcpServerStartRaw netif udpNew s₀)) ls t)
    (hm : m ≠ freeMac) (hoffer : OfferIn ls m addr) (hchaddr : d.p.chaddr = some m)
    (hopts : d.p.HasOptions (msgTypeOpt DHCPREQUEST :: ts)) (hbuf : replyBuf cfg d.rp = some b)
    (hreq : lastReqAddr ts = some asked) :
    (∃ s, t = some s ∧ AnswersWith cfg s d (DueAnswer addr asked))
      ↔ EachStep (Deliver cfg) (some (dhcpServerStartRaw netif udpNew s₀)) (CallReturns cfg)
          ls := by
  constructor
  · rintro ⟨s, rfl, -⟩
    exact returns_of_deliveries hrun
  · intro hret
    obtain ⟨s, rfl, hhandled⟩ := handled_of_deliveries hrun hret
    exact ⟨s, rfl, answer_after_offer hhandled hm hoffer hchaddr hopts hbuf hreq⟩

end Completes

/-- The first client's DISCOVER, as an OFFER in a history. -/
theorem offerIn_of_discover {es : List Event} {mac : EthAddr} {msg : List UInt8} {addr : Ip4Addr}
    {ls : List (Datagram × List Event)} (hsent : sentMsgs es = [msg])
    (htype : HasType DHCPOFFER msg) (haddr : yiaddr msg = some addr) :
    OfferIn ((sampleMsg DHCPDISCOVER anyAddr mac [], es) :: ls) mac addr :=
  ⟨_, es, msg, List.mem_cons_self .., (clientMsg_hasOptions _ mac _).handler_discover,
    sampleMsg_chaddr _ _ mac _, by rw [hsent]; exact List.mem_singleton.mpr rfl, htype, haddr⟩

/-- The OFFER to one client, a DISCOVER of another, then the first one's REQUEST
for what it was offered. -/
theorem handshake_completes_interleaved :
    ∃ ls s, Run (Deliver sampleConfig)
        (some (dhcpServerStartRaw sampleNetif (some 1) bootServer)) ls (some s)
      ∧ ls.map (fun l => l.1) = [sampleMsg DHCPDISCOVER anyAddr macA [],
          sampleMsg DHCPDISCOVER anyAddr macB []]
      ∧ AnswersWith sampleConfig s
          (sampleMsg DHCPREQUEST anyAddr macA [reqIpOpt #v[192, 168, 7, 11]])
          (DueAnswer #v[192, 168, 7, 11] #v[192, 168, 7, 11]) := by
  obtain ⟨es₁, msg₁, hstep₁, hsent₁, htype₁, haddr₁⟩ := sampleServer_discover allocateAddr_macA
  obtain ⟨es₂, msg₂, hstep₂, _⟩ := sampleServer_discover allocateAddr_macB
  have hrun := deliveries_of_handled (Run.cons hstep₁ (Run.single hstep₂))
  rw [sampleServer_nil] at hrun
  refine ⟨_, _, hrun, rfl, ?_⟩
  obtain ⟨s, hs, hanswer⟩ := (handshake_completes_iff hrun (by decide)
    (offerIn_of_discover hsent₁ htype₁ haddr₁)
    (sampleMsg_chaddr DHCPREQUEST anyAddr macA [reqIpOpt #v[192, 168, 7, 11]])
    (clientMsg_hasOptions _ macA [msgTypeOpt DHCPREQUEST, reqIpOpt #v[192, 168, 7, 11]])
    (sampleMsg_buf DHCPREQUEST anyAddr macA [reqIpOpt #v[192, 168, 7, 11]])
    (lastReqAddr_reqIp _)).mpr (returns_of_deliveries hrun)
  obtain rfl := Option.some.inj hs
  exact hanswer

/-- A REQUEST of 243 bytes whose options are not closed, at the end of the
mapped memory. -/
def openRequest (mac : EthAddr) : Datagram where
  p := clientMsg anyAddr mac [OPT_MSGTYPE, 1, DHCPREQUEST]
  netif := sampleNetif
  rp := some (zeros sampleConfig.msgSize)

/-- The server does not return from it. -/
theorem openRequest_stuck {s : Server} {mac : EthAddr} (hslot : SlotFor mac s.leases) :
    ¬ ReturnsFrom sampleConfig s (openRequest mac) := by
  have hmem : (openRequest mac).p.mem.drop ofsOptions = [OPT_MSGTYPE, 1, DHCPREQUEST] := by
    show ((clientMsg anyAddr mac _).payload ++ []).drop ofsOptions = _
    rw [List.append_nil, clientMsg_options]
  intro hret
  have hfinds : FindsReply sampleConfig s (openRequest mac) .request := by
    refine ⟨Pbuf.handler_eq_request.mpr ?_, ⟨mac, clientMsg_chaddr _ mac _, hslot⟩,
      ⟨_, rfl, Nat.le_of_eq (zeros_length _).symm⟩⟩
    have hget := congrArg (fun bs => bs[2]?) hmem
    simpa [Pbuf.typeByte] using hget
  obtain ⟨ts, rest, hts⟩ := hret.closed hfinds
  -- no byte of the field is END
  have hend : OPT_END ∈ [OPT_MSGTYPE, 1, DHCPREQUEST] := by
    rw [← hmem, hts]
    simp
  exact absurd hend (by decide)

/-- The OFFER to one client, then such a REQUEST of another: the first one's
REQUEST is not answered. -/
theorem handshake_stuck :
    ∃ ls t, Run (Deliver sampleConfig)
        (some (dhcpServerStartRaw sampleNetif (some 1) bootServer)) ls t
      ∧ ls.map (fun l => l.1) = [sampleMsg DHCPDISCOVER anyAddr macA [], openRequest macB]
      ∧ OfferIn ls macA #v[192, 168, 7, 11]
      ∧ ¬ ∃ s, t = some s ∧ AnswersWith sampleConfig s
          (sampleMsg DHCPREQUEST anyAddr macA [reqIpOpt #v[192, 168, 7, 11]])
          (DueAnswer #v[192, 168, 7, 11] #v[192, 168, 7, 11]) := by
  obtain ⟨es₁, msg₁, hstep₁, hsent₁, htype₁, haddr₁⟩ := sampleServer_discover allocateAddr_macA
  obtain ⟨es₂, t, hstep₂⟩ :=
    exists_deliver sampleConfig (some (sampleServer [macA])) (openRequest macB)
  have hrun := Run.cons (Deliver.handled hstep₁) (Run.single hstep₂)
  rw [sampleServer_nil] at hrun
  refine ⟨_, t, hrun, rfl, offerIn_of_discover hsent₁ htype₁ haddr₁, ?_⟩
  rintro ⟨s, rfl, -⟩
  obtain ⟨s', hs', hrecv⟩ := hstep₂.of_some
  obtain rfl := Option.some.inj hs'
  exact openRequest_stuck (by decide) hrecv.returns

/-! ## §2. Renewal. -/

/-- **In every reachable state the table is that of a pool.** -/
theorem Reachable.serves {cfg : Config} {s : Server} (h : Reachable cfg s) :
    ∃ pool c, Serves pool c s := by
  obtain ⟨ls, hrun⟩ := h
  apply hrun.invariant fun s => ∃ pool c, Serves pool c s
  · exact ⟨List.replicate MAX_LEASES anyAddr, Admitted.empty,
      ⟨List.length_replicate, List.not_mem_nil, rfl⟩⟩
  · rintro s l s' ⟨pool, c, hs⟩ hstep
    cases hstep with
    | start hfresh => exact ⟨_, _, serves_start _ _ _⟩
    | stop => exact ⟨pool, c, hs.size, hs.unmarked, hs.leases⟩
    | recv hbound hrecv => exact ⟨pool, _, hs.step hrecv⟩

/-- Options other than 50 request no address. -/
theorem lastReqAddr_eq_none {ts : List Tlv} (h : ∀ t ∈ ts, t.code ≠ OPT_REQ_IP) :
    lastReqAddr ts = none := by
  have hnone : ts.filterMap Tlv.reqAddr? = [] := by
    rw [List.filterMap_eq_nil_iff]
    intro t ht
    unfold Tlv.reqAddr?
    rw [dif_neg fun hc => h t ht hc.1]
  rw [lastReqAddr, hnone]
  rfl

/-- The answer to a client that holds a slot of a reachable table. -/
theorem Reachable.answer {cfg : Config} {s : Server} {m : EthAddr} {addr : Ip4Addr}
    {d : Datagram} {ts : List Tlv} {b : List UInt8} (hs : Reachable cfg s) (hm : m ≠ freeMac)
    (hslot : ⟨m, addr⟩ ∈ s.leases) (hchaddr : d.p.chaddr = some m)
    (hopts : d.p.HasOptions (msgTypeOpt DHCPREQUEST :: ts)) (hbuf : replyBuf cfg d.rp = some b) :
    if (lastReqAddr ts).getD anyAddr = addr then AnswersWith cfg s d (IsAck addr)
    else AnswersWith cfg s d (HasType DHCPNAK) := by
  obtain ⟨pool, c, hserves⟩ := hs.serves
  exact hserves.answer (hserves.holding_of_slot hslot hm) hm hchaddr hopts hbuf

/-- **Renewal**: `ciaddr` is not looked at, so a REQUEST that names the client's
address there and nowhere else is granted only if 0.0.0.0 is that address. -/
theorem renewal_iff {cfg : Config} {s : Server} {m : EthAddr} {addr : Ip4Addr} {d : Datagram}
    {ts : List Tlv} {b : List UInt8} (hs : Reachable cfg s) (hm : m ≠ freeMac)
    (hslot : ⟨m, addr⟩ ∈ s.leases) (hchaddr : d.p.chaddr = some m)
    (_hciaddr : d.p.ciaddr = some addr) (hopts : d.p.HasOptions (msgTypeOpt DHCPREQUEST :: ts))
    (hts : ∀ t ∈ ts, t.code ≠ OPT_REQ_IP) (hbuf : replyBuf cfg d.rp = some b) :
    AnswersWith cfg s d (IsAck addr) ↔ addr = anyAddr := by
  have hanswer := hs.answer hm hslot hchaddr hopts hbuf
  rw [lastReqAddr_eq_none hts, Option.getD_none] at hanswer
  constructor
  · intro hack
    by_contra hne
    -- the call would answer with an ACK and with a NAK
    rw [if_neg fun h => hne h.symm] at hanswer
    obtain ⟨_, _, msg, _, _, hisAck, hisNak⟩ := hack.and hanswer
    exact absurd (hisAck.1.unique hisNak) (by decide)
  · intro hzero
    rw [if_pos hzero.symm] at hanswer
    exact hanswer

/-- The client at 192.168.7.11 renews, and gets no ACK. -/
theorem renewal_iff_macA :
    ¬ AnswersWith sampleConfig (sampleServer [macA])
        (sampleMsg DHCPREQUEST #v[192, 168, 7, 11] macA []) (IsAck #v[192, 168, 7, 11]) := by
  have hiff := renewal_iff reachable_macA (show macA ≠ freeMac by decide) (by decide)
    (sampleMsg_chaddr DHCPREQUEST #v[192, 168, 7, 11] macA []) (clientMsg_ciaddr _ macA _)
    (clientMsg_hasOptions _ macA [msgTypeOpt DHCPREQUEST]) (by simp)
    (sampleMsg_buf DHCPREQUEST #v[192, 168, 7, 11] macA [])
  rw [hiff]
  decide

/-- What it gets is a NAK. -/
theorem renewal_refused :
    Reachable sampleConfig (sampleServer [macA])
      ∧ ⟨macA, #v[192, 168, 7, 11]⟩ ∈ (sampleServer [macA]).leases
      ∧ AnswersWith sampleConfig (sampleServer [macA])
          (sampleMsg DHCPREQUEST #v[192, 168, 7, 11] macA []) (HasType DHCPNAK) := by
  have hslot : ⟨macA, #v[192, 168, 7, 11]⟩ ∈ (sampleServer [macA]).leases := by decide
  refine ⟨reachable_macA, hslot, ?_⟩
  have hanswer := reachable_macA.answer (by decide) hslot
    (sampleMsg_chaddr DHCPREQUEST #v[192, 168, 7, 11] macA [])
    (clientMsg_hasOptions _ macA [msgTypeOpt DHCPREQUEST])
    (sampleMsg_buf DHCPREQUEST #v[192, 168, 7, 11] macA [])
  rw [if_neg (by decide)] at hanswer
  exact hanswer

end PicoosLwip.Dhcps
