/-
  PicoosLwip.Dhcps.Conversation — the server as its clients see it.

  A client sends bytes and gets bytes.  What it asks is in the message type, in its last
  option 50 and in its hardware address; what it is told is in `yiaddr` and the options
  of the reply, which it finds in the bytes of the reply alone.  Seen so, the
  server is a pool of addresses that are given out first come, first served.

  Main results:
    * `answers_as_pool`  — whatever is asked, the replies are the answers of the pool;
    * `repeats_harmless` — a datagram of a client that has asked before may be lost, or
                           delivered once more, and nobody else is told anything different.
-/
import PicoosLwip.Dhcps.PadOptions
import PicoosLwip.Dhcps.ReplyFormat
import PicoosLwip.Framework.Granting

namespace PicoosLwip.Dhcps

open PicoosLwip.Framework

/-! ## §1. How a client reads a reply. -/

/-- The options up to END, each with its data; a PAD is a single byte. -/
def readOptions : List UInt8 → Option (List (UInt8 × List UInt8))
  | [] => none
  | [code] => if code = OPT_END then some [] else none
  | code :: len :: bs =>
      if code = OPT_END then some []
      else if code = OPT_PAD then readOptions (len :: bs)
      else if len.toNat ≤ bs.length then
        (readOptions (bs.drop len.toNat)).map fun opts => (code, bs.take len.toNat) :: opts
      else none
termination_by bs => bs.length
decreasing_by
  · exact Nat.lt_succ_self _
  · exact Nat.lt_succ_of_lt (Nat.lt_succ_of_le (List.drop_sublist _ _).length_le)

/-- Where the transaction's number is. -/
abbrev ofsXid : Nat := 4

/-- What a client reads in a reply. -/
structure Reply where
  xid : Vector UInt8 4
  yiaddr : Ip4Addr
  chaddr : EthAddr
  options : List (UInt8 × List UInt8)
  deriving DecidableEq

/-- A reply, read from its bytes. -/
def readReply (msg : List UInt8) : Option Reply :=
  if msg[ofsOp]? = some 2 ∧ peek msg ofsCookie 4 = magicCookie then do
    let xid ← peekVec msg ofsXid 4
    let yiaddr ← yiaddr msg
    let chaddr ← peekVec msg ofsChaddr 6
    let options ← readOptions (msg.drop ofsOptions)
    pure ⟨xid, yiaddr, chaddr, options⟩
  else none

/-- At END the list is over. -/
theorem readOptions_end (rest : List UInt8) : readOptions (OPT_END :: rest) = some [] := by
  cases rest with
  | nil => rw [readOptions, if_pos rfl]
  | cons len bs => rw [readOptions, if_pos rfl]

/-- One option, then the others. -/
theorem readOptions_tlv (t : Tlv) (hpad : t.code ≠ OPT_PAD) (rest : List UInt8) :
    readOptions (t.bytes ++ rest)
      = (readOptions rest).map fun opts => (t.code, t.data) :: opts := by
  show readOptions (t.code :: UInt8.ofNat t.data.length :: (t.data ++ rest)) = _
  rw [readOptions, if_neg t.code_ne_end, if_neg hpad]
  simp [t.lenByte_toNat]

/-- **What is encoded is read back.** -/
theorem readOptions_encode {ts : List Tlv} (hpad : ∀ t ∈ ts, t.code ≠ OPT_PAD) (rest : List UInt8) :
    readOptions (encodeOpts ts ++ OPT_END :: rest) = some (ts.map fun t => (t.code, t.data)) := by
  induction ts with
  | nil => exact readOptions_end rest
  | cons t ts ih =>
      rw [encodeOpts_cons, List.append_assoc, readOptions_tlv t (hpad t (List.mem_cons_self ..)),
        ih fun t' h => hpad t' (List.mem_cons_of_mem _ h)]
      rfl

/-- An option as it is read. -/
def OptCall.item (call : OptCall) : UInt8 × List UInt8 := (call.code, call.data)

/-- What the encoders write can be read back. -/
theorem readOptions_calls {calls : List OptCall}
    (hcode : ∀ call ∈ calls, call.code ≠ OPT_PAD ∧ call.code ≠ OPT_END) (rest : List UInt8) :
    readOptions (calls.flatMap OptCall.bytes ++ OPT_END :: rest)
      = some (calls.map OptCall.item) := by
  obtain ⟨ts, henc, hmap⟩ := exists_tlvs fun call h => (hcode call h).2
  rw [← henc, readOptions_encode, hmap]
  · rfl
  · intro t ht
    have hitem : (t.code, t.data) ∈ calls.map fun call => (call.code, call.data) := by
      rw [← hmap]
      exact List.mem_map_of_mem ht
    obtain ⟨call, hcall, heq⟩ := List.mem_map.mp hitem
    rw [← (Prod.mk.inj heq).1]
    exact (hcode call hcall).1

/-! ## §2. What a client asks. -/

/-- The content of a client's datagram. -/
structure Question where
  xid : Vector UInt8 4
  client : EthAddr
  /-- It should be 0.0.0.0; a NAK gives it back. -/
  yiaddr : Ip4Addr
  ask : Ask Ip4Addr

/-- The message type. -/
def msgType : Ask Ip4Addr → UInt8
  | .discover => DHCPDISCOVER
  | .request _ => DHCPREQUEST

/-- The options ask for that: a REQUEST without option 50 is one for 0.0.0.0. -/
def Names (ts : List Tlv) : Ask Ip4Addr → Prop
  | .discover => True
  | .request r => (lastReqAddr ts).getD anyAddr = r

/-- The datagram asks `q`: a client's header, option 53 and any other options, no PADs
among them. -/
structure Asks (p : Pbuf) (q : Question) : Prop where
  xid : peekVec p.mem ofsXid 4 = some q.xid
  yiaddr : peekVec p.mem ofsYiaddr 4 = some q.yiaddr
  chaddr : p.chaddr = some q.client
  client : q.client ≠ freeMac
  options : ∃ ts, p.HasOptions (msgTypeOpt (msgType q.ask) :: ts)
    ∧ (∀ t ∈ ts, t.code ≠ OPT_PAD) ∧ Names ts q.ask

/-- The datagram asks something, or is of no type that is handled. -/
inductive Heard : Datagram → Option Question → Prop
  | asks {d : Datagram} {q : Question} (h : Asks d.p q) : Heard d (some q)
  | other {d : Datagram} {t : UInt8} (ht : d.p.typeByte = some t) (hh : d.p.handler = none) :
      Heard d none

/-! ## §3. What it is told. -/

/-- The reply that gives an answer. -/
def Question.reply (netif : Netif) (q : Question) : Answer Ip4Addr → Reply
  | .offer addr => ⟨q.xid, addr, q.client, [(OPT_MSGTYPE, [DHCPOFFER]),
      (OPT_NETMASK, netif.netmask.toList), (OPT_SERVERID, netif.ip.toList)]⟩
  | .ack addr => ⟨q.xid, addr, q.client, [(OPT_MSGTYPE, [DHCPACK]),
      (OPT_RENEW_TIME, timeBytes 1800), (OPT_REBIND_TIME, timeBytes 3000),
      (OPT_LEASE_TIME, timeBytes 3600), (OPT_NETMASK, netif.netmask.toList),
      (OPT_SERVERID, netif.ip.toList)]⟩
  | .nak => ⟨q.xid, q.yiaddr, q.client, [(OPT_MSGTYPE, [DHCPNAK]),
      (OPT_SERVERID, netif.ip.toList)]⟩

/-- An ACK goes to the client's new address, the others to everyone. -/
def destOf : Answer Ip4Addr → Ip4Addr
  | .ack addr => addr
  | .offer _ | .nak => broadcastAddr

/-- What is sent, where to, and to which port. -/
@[simp] def Event.sentTo? : Event → Option (List UInt8 × Ip4Addr × Nat)
  | .send _ msg dest port => some (msg, dest, port)
  | _ => none

/-- All replies, with address and port. -/
def sentTo (es : List Event) : List (List UInt8 × Ip4Addr × Nat) := es.filterMap Event.sentTo?

@[simp] theorem sentTo_nil : sentTo [] = [] := rfl

@[simp] theorem sentTo_cons (e : Event) (es : List Event) :
    sentTo (e :: es) = e.sentTo?.toList ++ sentTo es := by
  unfold sentTo
  rw [List.filterMap_cons]
  cases e.sentTo? <;> rfl

/-- Two logs in a row. -/
@[simp] theorem sentTo_append (es es' : List Event) :
    sentTo (es ++ es') = sentTo es ++ sentTo es' := List.filterMap_append

/-- What a call does about an answer. -/
inductive Told (cfg : Config) (q : Question) (d : Datagram) (es : List Event) :
    Option (Answer Ip4Addr) → Prop
  | unanswered (h : sentTo es = []) : Told cfg q d es none
  /-- There is no buffer for the reply. -/
  | noBuffer (a : Answer Ip4Addr) (hbuf : replyBuf cfg d.rp = none) (h : sentTo es = []) :
      Told cfg q d es (some a)
  | told (a : Answer Ip4Addr) {msg : List UInt8}
      (hsent : sentTo es = [(msg, destOf a, LWIP_IANA_PORT_DHCP_CLIENT)])
      (hread : readReply msg = some (q.reply d.netif a)) : Told cfg q d es (some a)

/-- A step of the server beside one of the pool. -/
inductive Beside (cfg : Config) :
    (Datagram × List Event) × Option Question → Option (Answer Ip4Addr) → Prop
  | told {d : Datagram} {es : List Event} {q : Question} {a : Option (Answer Ip4Addr)}
      (h : Told cfg q d es a) : Beside cfg ((d, es), some q) a
  | other {d : Datagram} {es : List Event} (h : sentTo es = []) : Beside cfg ((d, es), none) none

/-! ## §4. The bytes of a reply. -/

section Bytes

variable {cfg : Config} {p : Pbuf} {b : List UInt8} {q : Question}

/-- The header of a reply to `q`, and room for the options. -/
structure HeaderOf (q : Question) (resp : List UInt8) : Prop where
  op : resp[ofsOp]? = some 2
  cookie : peek resp ofsCookie 4 = magicCookie
  xid : peekVec resp ofsXid 4 = some q.xid
  chaddr : peekVec resp ofsChaddr 6 = some q.client
  room : ofsOptions + 68 ≤ resp.length

/-- The options come behind the header. -/
theorem Asks.len (h : Asks p q) : ofsOptions < p.len := by
  obtain ⟨ts, hopts, -⟩ := h.options
  have hlt := hopts.lt_len
  omega

/-- A field of the request's header is there in the reply. -/
theorem peekVec_respBytes (hb : cfg.msgSize ≤ b.length) (hp : Asks p q) {ofs n : Nat}
    (h0 : ofsOp < ofs) (hhdr : ofs + n ≤ ofsCookie) {v : Vector UInt8 n}
    (h : peekVec p.mem ofs n = some v) : peekVec (respBytes cfg p b) ofs n = some v := by
  have hofs := ofs_values
  have hlen := hp.len
  rw [← h]
  exact peekVec_congr (peek_respBytes hb h0 (by omega) hhdr)

/-- What `newResp` returns has the header. -/
theorem headerOf_respBytes (hb : cfg.msgSize ≤ b.length) (hp : Asks p q) :
    HeaderOf q (respBytes cfg p b) where
  op := by
    have hofs := ofs_values
    rw [getElem?_respBytes hb, if_neg (by omega), if_pos rfl]
  cookie := by
    have hofs := ofs_values
    apply List.ext_getElem?
    intro i
    rw [getElem?_peek, getElem?_respBytes hb]
    split
    next hi => rw [if_pos (by omega), Nat.add_sub_cancel_left]
    next hi => rw [List.getElem?_eq_none (by simpa using hi)]
  xid := peekVec_respBytes hb hp (by decide) (by decide) hp.xid
  chaddr := peekVec_respBytes hb hp (by decide) (by decide) hp.chaddr
  room := by
    have hmin := cfg.minOptionsLen
    rw [respBytes_length hb]
    unfold Config.msgSize at hb
    omega

/-- Stores to `yiaddr` and to the options leave it alone. -/
theorem HeaderOf.poke {resp bs : List UInt8} {ofs : Nat} (h : HeaderOf q resp)
    (hfit : ofs + bs.length ≤ resp.length)
    (hofs : ofs = ofsYiaddr ∧ bs.length = 4 ∨ ofsOptions ≤ ofs) :
    HeaderOf q (poke resp ofs bs) := by
  have hvalues := ofs_values
  have hxid : ofsXid = 4 := rfl
  have hout : ∀ {i n : Nat}, i + n ≤ ofsYiaddr ∨ ofsYiaddr + 4 ≤ i ∧ i + n ≤ ofsOptions →
      peek (Framework.poke resp ofs bs) i n = peek resp i n :=
    fun h => peek_poke_of_disjoint hfit (by omega)
  have hvec : ∀ {i n : Nat}, i + n ≤ ofsYiaddr ∨ ofsYiaddr + 4 ≤ i ∧ i + n ≤ ofsOptions →
      peekVec (Framework.poke resp ofs bs) i n = peekVec resp i n :=
    fun h => peekVec_congr (hout h)
  refine ⟨?_, ?_, ?_, ?_, ?_⟩
  · rw [getElem?_poke_outside hfit (by omega), h.op]
  · rw [hout (by omega), h.cookie]
  · rw [hvec (by omega), h.xid]
  · rw [hvec (by omega), h.chaddr]
  · rw [poke_length hfit]
    exact h.room

/-- **A header with options is a reply.** -/
theorem readReply_poke {resp : List UInt8} {addr : Ip4Addr} {calls : List OptCall}
    (h : HeaderOf q resp) (haddr : yiaddr resp = some addr)
    (hcode : ∀ call ∈ calls, call.code ≠ OPT_PAD ∧ call.code ≠ OPT_END)
    (hfit : (calls.flatMap OptCall.bytes ++ [OPT_END]).length ≤ 68) :
    readReply (poke resp ofsOptions (calls.flatMap OptCall.bytes ++ [OPT_END]))
      = some ⟨q.xid, addr, q.client, calls.map OptCall.item⟩ := by
  have hofs := ofs_values
  have hroom := h.room
  have hin : ofsOptions + (calls.flatMap OptCall.bytes ++ [OPT_END]).length ≤ resp.length := by
    omega
  have hheader := h.poke hin (.inr (Nat.le_refl _))
  have hyi : yiaddr (poke resp ofsOptions (calls.flatMap OptCall.bytes ++ [OPT_END]))
      = some addr := by
    rw [← haddr]
    exact peekVec_congr (peek_poke_of_disjoint hin (by omega))
  have hoptions : readOptions
      ((poke resp ofsOptions (calls.flatMap OptCall.bytes ++ [OPT_END])).drop ofsOptions)
        = some (calls.map OptCall.item) := by
    rw [drop_poke _ (by omega), List.append_assoc]
    exact readOptions_calls hcode _
  unfold readReply
  rw [if_pos ⟨hheader.op, hheader.cookie⟩, hheader.xid, hyi, hheader.chaddr, hoptions]
  rfl

/-- Neither PAD nor END among the codes. -/
theorem code_ne_single {calls : List OptCall} {codes : List UInt8}
    (h : calls.map OptCall.code = codes) (hpad : OPT_PAD ∉ codes) (hend : OPT_END ∉ codes) :
    ∀ call ∈ calls, call.code ≠ OPT_PAD ∧ call.code ≠ OPT_END := by
  intro call hin
  have hcode : call.code ∈ codes := by
    rw [← h]
    exact List.mem_map_of_mem hin
  exact ⟨fun heq => hpad (heq ▸ hcode), fun heq => hend (heq ▸ hcode)⟩

/-- A grant, as it is read. -/
theorem readReply_grantMsg (hb : cfg.msgSize ≤ b.length) (hp : Asks p q) (addr : Ip4Addr)
    {calls : List OptCall} (hcode : ∀ call ∈ calls, call.code ≠ OPT_PAD ∧ call.code ≠ OPT_END)
    (hfit : (calls.flatMap OptCall.bytes ++ [OPT_END]).length ≤ 68) :
    readReply (grantMsg cfg p b addr (calls.flatMap OptCall.bytes ++ [OPT_END]))
      = some ⟨q.xid, addr, q.client, calls.map OptCall.item⟩ := by
  have hin := yiaddr_fits (p := p) hb addr
  have hlen : addr.toList.length = 4 := Vector.length_toList
  have hyi : yiaddr (poke (respBytes cfg p b) ofsYiaddr addr.toList) = some addr := by
    have hpeek := peek_poke_inside (i := 0) (n := 4) hin (by omega)
    rw [Nat.add_zero] at hpeek
    unfold yiaddr
    rw [peekVec_eq_some_iff, hpeek]
    exact List.take_of_length_le (Nat.le_of_eq hlen)
  exact readReply_poke ((headerOf_respBytes hb hp).poke hin (.inl ⟨rfl, hlen⟩)) hyi hcode hfit

/-- An OFFER is read as the answer that it is. -/
theorem readReply_offerMsg (hb : cfg.msgSize ≤ b.length) (hp : Asks p q) (netif : Netif)
    (addr : Ip4Addr) :
    readReply (offerMsg cfg p netif b addr) = some (q.reply netif (.offer addr)) := by
  have hlen := offerBytes_length netif
  unfold offerMsg
  rw [offerBytes_eq] at hlen ⊢
  refine readReply_grantMsg hb hp addr (code_ne_single (show _ = [OPT_MSGTYPE, OPT_NETMASK,
    OPT_SERVERID] from rfl) (by decide) (by decide)) (by omega)

/-- So is an ACK. -/
theorem readReply_ackMsg (hb : cfg.msgSize ≤ b.length) (hp : Asks p q) (netif : Netif)
    (addr : Ip4Addr) :
    readReply (ackMsg cfg p netif b addr) = some (q.reply netif (.ack addr)) := by
  have hlen := ackBytes_length netif
  unfold ackMsg
  rw [ackBytes_eq] at hlen ⊢
  refine readReply_grantMsg hb hp addr (code_ne_single (show _ = [OPT_MSGTYPE, OPT_RENEW_TIME,
    OPT_REBIND_TIME, OPT_LEASE_TIME, OPT_NETMASK, OPT_SERVERID] from rfl) (by decide) (by decide))
    (by omega)

/-- A NAK gives `yiaddr` back. -/
theorem readReply_nakMsg (hb : cfg.msgSize ≤ b.length) (hp : Asks p q) (netif : Netif) :
    readReply (nakMsg cfg p netif b) = some (q.reply netif .nak) := by
  have hlen := nakBytes_length netif
  unfold nakMsg
  rw [nakBytes_eq] at hlen ⊢
  exact readReply_poke (headerOf_respBytes hb hp)
    (peekVec_respBytes hb hp (by decide) (by decide) hp.yiaddr)
    (code_ne_single (show _ = [OPT_MSGTYPE, OPT_SERVERID] from rfl) (by decide) (by decide))
    (by omega)

end Bytes

/-! ## §5. One step. -/

/-- The scan sends nothing. -/
theorem sentTo_scan {p : Pbuf} {s s' : Server} {es : List Event} {r : Except Fault Ip4Addr}
    (h : p.scan s = ⟨es, s', r⟩) : sentTo es = [] := by
  unfold sentTo
  rw [List.filterMap_eq_nil_iff]
  intro ev hev
  obtain ⟨k, n, rfl⟩ := scan_reads h ev hev
  rfl

section Step

variable {cfg : Config} {pool : List Ip4Addr} {c : Admitted EthAddr MAX_LEASES} {s : Server}
  {d : Datagram} {q : Question}

/-- What a scan finds is what is asked for. -/
theorem Asks.scan {p : Pbuf} {r : Ip4Addr} (h : Asks p q) (hask : q.ask = .request r) (s : Server) :
    ∃ es, p.scan s = ⟨es, s, .ok r⟩ := by
  obtain ⟨ts, hopts, -, hnames⟩ := h.options
  rw [hask] at hnames
  obtain rfl : (lastReqAddr ts).getD anyAddr = r := hnames
  have hscan := hopts.scan s
  rw [lastReqAddr_msgType] at hscan
  exact ⟨_, hscan⟩

/-- A DISCOVER is dispatched as one. -/
theorem Asks.handler_discover {p : Pbuf} (h : Asks p q) (hask : q.ask = .discover) :
    p.handler = some .discover := by
  obtain ⟨ts, hopts, -⟩ := h.options
  rw [hask] at hopts
  exact hopts.handler_discover

/-- So is a REQUEST. -/
theorem Asks.handler_request {p : Pbuf} {r : Ip4Addr} (h : Asks p q) (hask : q.ask = .request r) :
    p.handler = some .request := by
  obtain ⟨ts, hopts, -⟩ := h.options
  rw [hask] at hopts
  exact hopts.handler_request

/-- A question is always dispatched. -/
theorem Asks.handled {p : Pbuf} (h : Asks p q) : ∃ hd, p.handler = some hd := by
  cases hask : q.ask with
  | discover => exact ⟨_, h.handler_discover hask⟩
  | request r => exact ⟨_, h.handler_request hask⟩

/-- A DISCOVER of a client that has a slot, with a buffer for the reply. -/
theorem told_discover {addr : Ip4Addr} {leases : List Lease} {b : List UInt8} (hq : Asks d.p q)
    (hask : q.ask = .discover) (ha : allocateAddr q.client s.leases = some (addr, leases))
    (hb : replyBuf cfg d.rp = some b) :
    ∃ es s', RecvStep cfg s (d, es) s' ∧ Told cfg q d es (some (.offer addr)) := by
  have hrun : dhcpRecv cfg d s = _ := dhcpRecv_of_handler (hq.handler_discover hask) s
  rw [handle_discover hq.chaddr ha hb] at hrun
  exact ⟨_, _, hrun, .told (.offer addr) (by simp [newRespEvents, destOf])
    (readReply_offerMsg (replyBuf_eq_some hb).2 hq d.netif addr)⟩

/-- A REQUEST of such a client. -/
theorem told_request {addr r : Ip4Addr} {leases : List Lease} {b : List UInt8} (hq : Asks d.p q)
    (hask : q.ask = .request r) (ha : allocateAddr q.client s.leases = some (addr, leases))
    (hb : replyBuf cfg d.rp = some b) :
    ∃ es s', RecvStep cfg s (d, es) s'
      ∧ Told cfg q d es (some (if r = addr then .ack addr else .nak)) := by
  have hsize := (replyBuf_eq_some hb).2
  obtain ⟨es, hscan⟩ := hq.scan hask { s with leases := leases }
  have hrun : dhcpRecv cfg d s = _ := dhcpRecv_of_handler (hq.handler_request hask) s
  rw [handle_request hq.chaddr ha hb, hscan, Outcome.andThen_ok] at hrun
  split
  next heq =>
    subst heq
    obtain ⟨mac, hmac⟩ := ackMsg_chaddr (p := d.p) hsize d.netif r
    rw [if_pos rfl, sendAck_apply hsize d.netif r hmac] at hrun
    refine ⟨_, _, hrun, .told (.ack r) ?_ (readReply_ackMsg hsize hq d.netif r)⟩
    simp [newRespEvents, destOf, sentTo_scan hscan]
  next hne =>
    rw [if_neg hne, sendNak_apply hsize] at hrun
    refine ⟨_, _, hrun, .told .nak ?_ (readReply_nakMsg hsize hq d.netif)⟩
    simp [newRespEvents, destOf, sentTo_scan hscan]

/-- **A question gets the pool's answer**, and the call returns. -/
theorem Serves.told (h : Serves pool c s) (hq : Asks d.p q) :
    ∃ es s', RecvStep cfg s (d, es) s'
      ∧ Told cfg q d es ((c.enter q.client).answer pool q.client q.ask) := by
  -- the table is what the clients so far have been given
  have halloc := allocateAddr_table h.size h.unmarked hq.client
  rw [← h.leases] at halloc
  obtain ⟨hd, hh⟩ := hq.handled
  have hrun : dhcpRecv cfg d s = _ := dhcpRecv_of_handler hh s
  unfold Admitted.answer
  cases hheld : Admitted.holding pool (c.enter q.client) q.client with
  | none =>
      rw [hheld] at halloc
      rw [handle_exhausted hd hq.chaddr halloc] at hrun
      exact ⟨_, _, hrun, .unanswered rfl⟩
  | some addr =>
      rw [hheld] at halloc
      cases hb : replyBuf cfg d.rp with
      | none =>
          rw [handle_noReply hd hq.chaddr halloc hb] at hrun
          refine ⟨_, _, hrun, .noBuffer _ hb ?_⟩
          cases d.rp <;> rfl
      | some b =>
          cases hask : q.ask with
          | discover => exact told_discover hq hask halloc hb
          | request r => exact told_request hq hask halloc hb

/-- A datagram of another type changes nothing. -/
theorem recv_other {t : UInt8} (ht : d.p.typeByte = some t) (hh : d.p.handler = none) :
    RecvStep cfg s (d, [.read .request (ofsOptions + 2) 1, .free .request]) s := by
  have hcase := dhcpRecv_cases cfg d s
  generalize hrun : dhcpRecv cfg d s = o at hcase
  cases hcase with
  | ignored t' ht' hh' => exact hrun
  | noType ht' =>
      rw [ht] at ht'
      exact absurd ht' nofun
  | noChaddr h hh' hm | exhausted h m hh' hm ha | noReply h m addr leases hh' hm ha hb
  | offer m addr leases b hh' hm ha hb | scanFault m addr leases b es e hh' hm ha hb hscan
  | ack m addr leases b mac es hh' hm ha hb hscan hmac
  | nak m addr reqAddr leases b es hh' hm ha hb hscan hne =>
      rw [hh] at hh'
      exact absurd hh' nofun

end Step

/-! ## §6. Every run. -/

/-- What the pool is asked. -/
def Question.asked (q : Question) : EthAddr × Ask Ip4Addr := (q.client, q.ask)

/-- It is asked by its client. -/
theorem Asks.asker {d : Datagram} {q : Question} (h : Asks d.p q) : d.asker = some q.client := by
  obtain ⟨hd, hh⟩ := h.handled
  exact Datagram.asker_eq_some.mpr ⟨client_eq hh h.chaddr, h.client⟩

/-- **A whole conversation**: every question is heard and answered by the abstract server's
answer. -/
theorem Serves.answers {cfg : Config} {pool : List Ip4Addr} {c : Admitted EthAddr MAX_LEASES}
    {s : Server} {ds : List Datagram} {qs : List (Option Question)} (h : Serves pool c s)
    (hheard : List.Forall₂ Heard ds qs) :
    ∃ ls s', Run (RecvStep cfg) s ls s' ∧ ls.map Prod.fst = ds
      ∧ List.Forall₂ (Beside cfg) (ls.zip qs)
          (Admitted.answers pool c (qs.map fun q => q.map Question.asked)) := by
  induction hheard generalizing c s with
  | nil => exact ⟨[], s, .nil, rfl, .nil⟩
  | @cons d q ds qs hfirst _ ih =>
      cases hfirst with
      | @asks q hq =>
          obtain ⟨es, s₁, hstep, htold⟩ := h.told hq
          have hserves := h.step hstep
          rw [hq.asker] at hserves
          obtain ⟨ls, s', hrun, hds, hall⟩ := ih hserves
          exact ⟨(d, es) :: ls, s', .cons hstep hrun, by rw [List.map_cons, hds],
            .cons (.told htold) hall⟩
      | other ht hh =>
          obtain ⟨ls, s', hrun, hds, hall⟩ := ih h
          exact ⟨_ :: ls, s', .cons (recv_other ht hh) hrun, by rw [List.map_cons, hds],
            .cons (.other rfl) hall⟩

/-- **The server is a pool of addresses.**  Whatever its clients ask, and whatever comes in
between, every call returns, and the replies, read from their bytes, are the pool's
answers, as far as there are buffers for them. -/
theorem answers_as_pool {cfg : Config} {netif : Netif} {udpNew : Option Nat} {s₀ : Server}
    {ds : List Datagram} {qs : List (Option Question)} (hheard : List.Forall₂ Heard ds qs) :
    ∃ ls s, Run (RecvStep cfg) (dhcpServerStartRaw netif udpNew s₀) ls s ∧ ls.map Prod.fst = ds
      ∧ List.Forall₂ (Beside cfg) (ls.zip qs)
          (Admitted.answers (startPool netif) (Admitted.empty : Admitted EthAddr MAX_LEASES)
            (qs.map fun q => q.map Question.asked)) :=
  (serves_start netif udpNew s₀).answers hheard

/-- In front of the hardware address a sample message is zero. -/
theorem sampleMsg_front (v : UInt8) (mac : EthAddr) (ts : List Tlv) :
    ∃ rest, (sampleMsg v anyAddr mac ts).p.mem = zeros 28 ++ rest := by
  refine ⟨mac.toList ++ (zeros 202 ++ (magicCookie
    ++ (encodeOpts (msgTypeOpt v :: ts) ++ [OPT_END]))), ?_⟩
  have hzeros : zeros 28 = zeros 12 ++ (anyAddr.toList ++ zeros 12) := by decide
  rw [hzeros, List.append_assoc, List.append_assoc]
  exact List.append_nil _

/-- A sample message asks what it is made for. -/
theorem sampleMsg_asks (ask : Ask Ip4Addr) {mac : EthAddr} (hm : mac ≠ freeMac) {ts : List Tlv}
    (hpad : ∀ t ∈ ts, t.code ≠ OPT_PAD) (hnames : Names ts ask) :
    Asks (sampleMsg (msgType ask) anyAddr mac ts).p ⟨#v[0, 0, 0, 0], mac, anyAddr, ask⟩ where
  xid := by
    obtain ⟨rest, hrest⟩ := sampleMsg_front (msgType ask) mac ts
    rw [hrest, peekVec_congr (peek_append_left rest (by decide))]
    rfl
  yiaddr := by
    obtain ⟨rest, hrest⟩ := sampleMsg_front (msgType ask) mac ts
    rw [hrest, peekVec_congr (peek_append_left rest (by decide))]
    rfl
  chaddr := sampleMsg_chaddr _ _ mac _
  client := hm
  options := ⟨ts, clientMsg_hasOptions _ mac _, hpad, hnames⟩

/-- Host 11 of the network, the first address of the pool. -/
def reqIp : Ip4Addr := #v[192, 168, 7].push 11

/-- One client is offered an address, another one asks for it and is refused, and the first
one gets it. -/
theorem answers_as_pool_two :
    ∃ ls s, Run (RecvStep sampleConfig) (dhcpServerStartRaw sampleNetif (some 1) bootServer) ls s
      ∧ ls.map Prod.fst = [sampleMsg DHCPDISCOVER anyAddr macA [],
          sampleMsg DHCPREQUEST anyAddr macB [reqIpOpt reqIp],
          sampleMsg DHCPREQUEST anyAddr macA [reqIpOpt reqIp]]
      ∧ List.Forall₂ (Beside sampleConfig)
          (ls.zip [some ⟨#v[0, 0, 0, 0], macA, anyAddr, .discover⟩,
            some ⟨#v[0, 0, 0, 0], macB, anyAddr, .request reqIp⟩,
            some ⟨#v[0, 0, 0, 0], macA, anyAddr, .request reqIp⟩])
          [some (.offer reqIp), some .nak, some (.ack reqIp)] := by
  have hpad : ∀ t ∈ [reqIpOpt reqIp], t.code ≠ OPT_PAD := by
    intro t ht
    rw [List.mem_singleton.mp ht]
    decide
  have hnames : Names [reqIpOpt reqIp] (.request reqIp) :=
    congrArg (Option.getD · anyAddr) (lastReqAddr_reqIp reqIp)
  have hdiscover := sampleMsg_asks .discover (show macA ≠ freeMac by decide)
    (fun _ h => absurd h List.not_mem_nil) trivial
  have hother := sampleMsg_asks (.request reqIp) (show macB ≠ freeMac by decide) hpad hnames
  have hrequest := sampleMsg_asks (.request reqIp) (show macA ≠ freeMac by decide) hpad hnames
  exact answers_as_pool (.cons (.asks hdiscover) (.cons (.asks hother) (.cons (.asks hrequest)
    .nil)))

/-! ## §7. Repeats. -/

/-- The parts of the state that a call looks at. -/
structure Alike (s t : Server) : Prop where
  leases : s.leases = t.leases
  dhcpPcb : s.dhcpPcb = t.dhcpPcb

section Repeats

variable {cfg : Config} {pool : List Ip4Addr} {c : Admitted EthAddr MAX_LEASES}
  {s s' t : Server} {l : Datagram × List Event} {ls ls' : List (Datagram × List Event)}

/-- A scan does not look at the state. -/
theorem scan_alike {p : Pbuf} {s s' t : Server} {es : List Event} {addr : Ip4Addr}
    (h : p.scan s = ⟨es, s', .ok addr⟩) : p.scan t = ⟨es, t, .ok addr⟩ := by
  obtain ⟨ts, rest, hts, rfl⟩ := closed_of_scan (congrArg Outcome.result h)
  have hes := congrArg Outcome.events ((scan_closed hts s).symm.trans h)
  obtain rfl : scanReads ofsOptions ts = es := hes
  exact scan_closed hts t

/-- **A call does not look at more**: the same datagram, the same events. -/
theorem Alike.recv (h : Alike s t) (hstep : RecvStep cfg s l s') :
    ∃ t', RecvStep cfg t l t' ∧ Alike s' t' := by
  obtain ⟨d, es⟩ := l
  have hcase := dhcpRecv_cases cfg d s
  rw [show dhcpRecv cfg d s = _ from hstep] at hcase
  -- the call takes the same branch from the other state: nothing that decides it is different
  -- there
  have hrun : ∀ hd, d.p.handler = some hd → dhcpRecv cfg d t = _ :=
    fun _ hh => dhcpRecv_of_handler hh t
  cases hcase with
  | ignored b ht hh => exact ⟨t, recv_other ht hh, h⟩
  | exhausted hd m hh hm ha =>
      rw [h.leases] at ha
      have hevents := hrun hd hh
      rw [handle_exhausted hd hm ha] at hevents
      exact ⟨t, hevents, h⟩
  | noReply hd m addr leases hh hm ha hb =>
      rw [h.leases] at ha
      have hevents := hrun hd hh
      rw [handle_noReply hd hm ha hb] at hevents
      exact ⟨{ t with leases := leases }, hevents.trans (by simp), rfl, h.dhcpPcb⟩
  | offer m addr leases b hh hm ha hb =>
      rw [h.leases] at ha
      have hevents := hrun _ hh
      rw [handle_discover hm ha hb] at hevents
      refine ⟨{ t with leases := leases }, hevents.trans ?_, rfl, h.dhcpPcb⟩
      rw [h.dhcpPcb]
      simp
  | ack m addr leases b mac es hh hm ha hb hscan hmac =>
      rw [h.leases] at ha
      have hevents := hrun _ hh
      rw [handle_request hm ha hb, scan_alike hscan, Outcome.andThen_ok, if_pos rfl,
        sendAck_apply (replyBuf_eq_some hb).2 d.netif addr hmac] at hevents
      -- the ARP tables may differ: a call writes there, and never reads
      refine ⟨{ t with leases := leases, arp := setStaticEntry addr mac t.arp },
        hevents.trans ?_, rfl, h.dhcpPcb⟩
      rw [h.dhcpPcb]
      simp
  | nak m addr reqAddr leases b es hh hm ha hb hscan hne =>
      rw [h.leases] at ha
      have hevents := hrun _ hh
      rw [handle_request hm ha hb, scan_alike hscan, Outcome.andThen_ok, if_neg hne,
        sendNak_apply (replyBuf_eq_some hb).2] at hevents
      refine ⟨{ t with leases := leases }, hevents.trans ?_, rfl, h.dhcpPcb⟩
      rw [h.dhcpPcb]
      simp

/-- Nor does it change the control block. -/
theorem recv_dhcpPcb (hstep : RecvStep cfg s l s') : s'.dhcpPcb = s.dhcpPcb := by
  obtain ⟨d, es⟩ := l
  have hcase := dhcpRecv_cases cfg d s
  rw [show dhcpRecv cfg d s = _ from hstep] at hcase
  cases hcase <;> rfl

/-- Datagrams do not change the server's block. -/
theorem run_dhcpPcb (hrun : Run (RecvStep cfg) s ls s') : s'.dhcpPcb = s.dhcpPcb :=
  hrun.invariant (fun t => t.dhcpPcb = s.dhcpPcb) rfl fun _ _ _ h hstep =>
    (recv_dhcpPcb hstep).trans h

/-- A run may go on from an alike state. -/
theorem Alike.run (h : Alike s t) (hrun : Run (RecvStep cfg) s ls s') :
    ∃ t', Run (RecvStep cfg) t ls t' ∧ Alike s' t' :=
  hrun.simulate (fun _ _ _ _ h hstep => h.recv hstep) h

/-- Someone who has asked before asks again: the pool stays as it is. -/
theorem Serves.again (h : Serves pool (c.enterAll (askers ls)) s)
    (hagain : ∀ m, l.1.asker = some m → m ∈ askers ls) (hstep : RecvStep cfg s l s') :
    Serves pool (c.enterAll (askers ls)) s' := by
  have hserves := h.step hstep
  cases hasker : l.1.asker with
  | none =>
      rw [hasker] at hserves
      exact hserves
  | some m =>
      rw [hasker] at hserves
      show Serves pool _ s'
      rw [← Admitted.enter_of_asked c (hagain m hasker)]
      exact hserves

/-- **Repeats are harmless.**  A datagram of a client that has asked before, or of none,
may be lost, or delivered once more, as long as the call for it returns: all others are handled
as they would have been, with the same events, and the leases come out the same. -/
theorem repeats_harmless {netif : Netif} {udpNew : Option Nat} {s₀ : Server}
    (hagain : ∀ m, l.1.asker = some m → m ∈ askers ls) :
    (∀ s, Run (RecvStep cfg) (dhcpServerStartRaw netif udpNew s₀) (ls ++ l :: ls') s →
      ∃ t, Run (RecvStep cfg) (dhcpServerStartRaw netif udpNew s₀) (ls ++ ls') t
        ∧ t.leases = s.leases)
      ∧ ∀ s r, Run (RecvStep cfg) (dhcpServerStartRaw netif udpNew s₀) (ls ++ ls') s →
        Run (RecvStep cfg) (dhcpServerStartRaw netif udpNew s₀) (ls ++ [l]) r →
        ∃ t, Run (RecvStep cfg) (dhcpServerStartRaw netif udpNew s₀) (ls ++ l :: ls') t
          ∧ t.leases = s.leases := by
  have hstart := serves_start netif udpNew s₀
  -- after the same datagrams, with and without `l`, the server is in alike states
  have halike : ∀ {s₁ s₂ s₃ : Server},
      Run (RecvStep cfg) (dhcpServerStartRaw netif udpNew s₀) ls s₁ →
      Run (RecvStep cfg) (dhcpServerStartRaw netif udpNew s₀) ls s₂ → RecvStep cfg s₂ l s₃ →
      Alike s₁ s₃ := by
    intro s₁ s₂ s₃ hrun₁ hrun₂ hstep
    refine ⟨?_, ?_⟩
    · rw [(hstart.run hrun₁).leases, ((hstart.run hrun₂).again hagain hstep).leases]
    · rw [run_dhcpPcb hrun₁, recv_dhcpPcb hstep, run_dhcpPcb hrun₂]
  constructor
  · intro s hrun
    obtain ⟨s₁, hpre, hpost⟩ := hrun.of_append
    obtain ⟨s₂, hstep, hrest⟩ := hpost.of_cons
    have h := halike hpre hpre hstep
    obtain ⟨t, hthen, hsame⟩ := Alike.run ⟨h.leases.symm, h.dhcpPcb.symm⟩ hrest
    exact ⟨t, hpre.append hthen, hsame.leases.symm⟩
  · intro s r hrun hagainRun
    obtain ⟨s₁, hpre, hrest⟩ := hrun.of_append
    obtain ⟨s₂, hpre', hlast⟩ := hagainRun.of_append
    obtain ⟨s₃, hstep, -⟩ := hlast.of_cons
    obtain ⟨t, hthen, hsame⟩ := (halike hpre hpre' hstep).run hrest
    exact ⟨t, hpre'.append (.cons hstep hthen), hsame.leases.symm⟩

end Repeats

/-- Between two clients' DISCOVERs the first one's comes once more. -/
theorem repeats_harmless_discover : ∃ l₁ l₂ l₃ s t,
    l₂.1 = sampleMsg DHCPDISCOVER anyAddr macA [] ∧ l₃.1 = sampleMsg DHCPDISCOVER anyAddr macB []
      ∧ Run (RecvStep sampleConfig) (dhcpServerStartRaw sampleNetif (some 1) bootServer)
          ([l₁] ++ l₂ :: [l₃]) s
      ∧ Run (RecvStep sampleConfig) (dhcpServerStartRaw sampleNetif (some 1) bootServer)
          ([l₁] ++ [l₃]) t
      ∧ t.leases = s.leases := by
  obtain ⟨es₁, _, hstep₁, -⟩ := sampleServer_discover allocateAddr_macA
  have hagain : allocateAddr macA (sampleServer [macA]).leases
      = some (reqIp, table (startPool sampleNetif) [macA]) := by decide
  obtain ⟨es₂, _, hstep₂, -⟩ := sampleServer_discover hagain
  obtain ⟨es₃, _, hstep₃, -⟩ := sampleServer_discover allocateAddr_macB
  have hrun : Run (RecvStep sampleConfig) (sampleServer []) ([_] ++ _ :: [_]) _ :=
    .cons hstep₁ (.cons hstep₂ (.single hstep₃))
  rw [sampleServer_nil] at hrun
  have hasker := Datagram.asker_eq_some.mpr
    ⟨sampleMsg_client (.inl rfl) anyAddr macA [], show macA ≠ freeMac by decide⟩
  have hasked : ∀ m, (sampleMsg DHCPDISCOVER anyAddr macA []).asker = some m →
      m ∈ askers [(sampleMsg DHCPDISCOVER anyAddr macA [], es₁)] := by
    intro m hm
    rw [hasker] at hm
    rw [← Option.some.inj hm]
    simp [askers, hasker]
  obtain ⟨t, hthen, hleases⟩ := (repeats_harmless hasked).1 _ hrun
  exact ⟨_, _, _, _, t, rfl, rfl, hrun, hthen, hleases⟩

end PicoosLwip.Dhcps
