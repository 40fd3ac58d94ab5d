/-
  PicoosLwip.Dhcps.Recv — everything one call of `dhcpRecv` can do.

  `RecvCase` lists the ways a call can go, each with its events, the state it
  leaves and the facts about the datagram and the table that lead there.
  `dhcpRecv_cases` says that these are all; every later proof about a call is a
  case analysis over them.
-/
import PicoosLwip.Dhcps.Reply

namespace PicoosLwip.Dhcps

open PicoosLwip.Framework

/-! ## §1. What a call looks at. -/

/-- `req->options[2]`. -/
def Pbuf.typeByte (p : Pbuf) : Option UInt8 := p.mem[ofsOptions + 2]?

/-- `req->chaddr`, its first six bytes. -/
def Pbuf.chaddr (p : Pbuf) : Option EthAddr := peekVec p.mem ofsChaddr 6

/-- `req->ciaddr`; the server never reads it. -/
def Pbuf.ciaddr (p : Pbuf) : Option Ip4Addr := peekVec p.mem ofsCiaddr 4

/-- The handler that the type byte picks. -/
def Pbuf.handler (p : Pbuf) : Option Handler :=
  if p.typeByte = some DHCPDISCOVER then some .discover
  else if p.typeByte = some DHCPREQUEST then some .request
  else none

/-- The type byte of a DISCOVER. -/
theorem Pbuf.handler_eq_discover {p : Pbuf} :
    p.handler = some .discover ↔ p.typeByte = some DHCPDISCOVER := by
  unfold Pbuf.handler
  by_cases h : p.typeByte = some DHCPDISCOVER
  · simp [h]
  · by_cases h' : p.typeByte = some DHCPREQUEST <;> simp [h]

/-- The type byte of a REQUEST. -/
theorem Pbuf.handler_eq_request {p : Pbuf} :
    p.handler = some .request ↔ p.typeByte = some DHCPREQUEST := by
  unfold Pbuf.handler
  by_cases h : p.typeByte = some DHCPDISCOVER
  · rw [if_pos h, h]
    decide
  · rw [if_neg h]
    by_cases h' : p.typeByte = some DHCPREQUEST <;> simp [h']

/-- The handlers by name. -/
def handle (cfg : Config) (d : Datagram) : Handler → DhcpsM Unit
  | .discover => handleDiscover cfg d.p d.netif d.rp
  | .request => handleRequest cfg d.p d.netif d.rp

/-! ## §2. The three replies as commands. -/

section Replies

variable {cfg : Config} {p : Pbuf} {b : List UInt8}

/-- `writeOptions`, for a builder that puts `bs`. -/
theorem writeOptions_apply (resp : List UInt8) {bs : List UInt8} {build : Cursor → Cursor}
    (h : build ⟨resp, ofsOptions⟩ = Cursor.put ⟨resp, ofsOptions⟩ bs) (s : Server) :
    writeOptions resp build s
      = ⟨[.write .reply ofsOptions bs.length], s, .ok (poke resp ofsOptions bs)⟩ := by
  unfold writeOptions
  rw [h]
  simp [Cursor.put]

/-- The tail of `handleDiscover`, after `newResp`. -/
theorem offer_apply (h : cfg.msgSize ≤ b.length) (netif : Netif) (addr : Ip4Addr) (s : Server) :
    (do
      let resp ← store (respBytes cfg p b) ofsYiaddr addr.toList
      let resp ← writeOptions resp (offerOptions netif)
      sendReply resp broadcastAddr
      printChaddr : DhcpsM Unit) s
    = ⟨[.write .reply ofsYiaddr 4, .write .reply ofsOptions 16,
        .send s.dhcpPcb (offerMsg cfg p netif b addr) broadcastAddr LWIP_IANA_PORT_DHCP_CLIENT,
        .free .reply, .read .reply ofsChaddr 6], s, .ok ()⟩ := by
  have hfit := opts_fit (p := p) h addr (offerBytes netif) (by simp [offerBytes_length])
  rw [offerBytes_length] at hfit
  have hopts := writeOptions_apply (poke (respBytes cfg p b) ofsYiaddr addr.toList)
    (offerOptions_eq netif hfit)
  simp [hopts, offerBytes_length, sendReply, printChaddr, offerMsg, grantMsg]

/-- `sendAck`; `mac` is what the reply holds in `chaddr`. -/
theorem sendAck_apply (h : cfg.msgSize ≤ b.length) (netif : Netif) (addr : Ip4Addr)
    {mac : EthAddr} (hmac : peekVec (ackMsg cfg p netif b addr) ofsChaddr 6 = some mac)
    (s : Server) :
    sendAck netif (respBytes cfg p b) addr s
    = ⟨[.write .reply ofsYiaddr 4, .write .reply ofsOptions 34, .read .reply ofsYiaddr 4,
        .read .reply ofsChaddr 6, .addStaticEntry addr mac,
        .send s.dhcpPcb (ackMsg cfg p netif b addr) addr LWIP_IANA_PORT_DHCP_CLIENT,
        .free .reply, .read .reply ofsChaddr 6],
        { s with arp := setStaticEntry addr mac s.arp }, .ok ()⟩ := by
  have hfit := opts_fit (p := p) h addr (ackBytes netif) (by simp [ackBytes_length])
  rw [ackBytes_length] at hfit
  have hopts := writeOptions_apply (poke (respBytes cfg p b) ofsYiaddr addr.toList)
    (ackOptions_eq netif hfit)
  -- what is read back as the destination is what was just stored
  have hdest : peekVec (ackMsg cfg p netif b addr) ofsYiaddr 4 = some addr :=
    yiaddr_grantMsg h addr (by simp [ackBytes_length])
  have hmsg : poke (poke (respBytes cfg p b) ofsYiaddr addr.toList) ofsOptions (ackBytes netif)
      = ackMsg cfg p netif b addr := rfl
  simp [sendAck, hopts, ackBytes_length, hmsg, hdest, hmac, etharpAddStaticEntry, sendReply,
    printChaddr]

/-- Options, sending and release. -/
theorem sendNak_apply (h : cfg.msgSize ≤ b.length) (netif : Netif) (s : Server) :
    sendNak netif (respBytes cfg p b) s
    = ⟨[.write .reply ofsOptions 10,
        .send s.dhcpPcb (nakMsg cfg p netif b) broadcastAddr LWIP_IANA_PORT_DHCP_CLIENT,
        .free .reply], s, .ok ()⟩ := by
  have hopts := writeOptions_apply (respBytes cfg p b)
    (nakOptions_eq netif (respBytes_room (p := p) h (show 10 ≤ 68 by omega)))
  simp [sendNak, hopts, nakBytes_length, sendReply, nakMsg]

end Replies

/-! ## §3. The ways a call can go. -/

/-- The events of a call up to and with the reading of `chaddr`. -/
def enterEvents (h : Handler) : List Event :=
  [.read .request (ofsOptions + 2) 1, .run h, .read .request ofsChaddr 6]

/-- The option scan of a call, from `req->options` on. -/
def Pbuf.scan (p : Pbuf) (s : Server) : Outcome Fault Server Event Ip4Addr :=
  scanOptions p (scanFuel p) ofsOptions anyAddr s

/-- Over a closed option list it returns the last requested address. -/
theorem scan_closed {p : Pbuf} {ts : List Tlv} {rest : List UInt8}
    (h : p.mem.drop ofsOptions = encodeOpts ts ++ OPT_END :: rest) (s : Server) :
    p.scan s = ⟨scanReads ofsOptions ts, s, .ok ((lastReqAddr ts).getD anyAddr)⟩ :=
  scanOptions_closed' h anyAddr s

/-- If it returns, it has read such a list. -/
theorem closed_of_scan {p : Pbuf} {s : Server} {a : Ip4Addr} (h : (p.scan s).result = .ok a) :
    ∃ ts rest, p.mem.drop ofsOptions = encodeOpts ts ++ OPT_END :: rest
      ∧ (lastReqAddr ts).getD anyAddr = a := by
  obtain ⟨ts, rest, hts⟩ := closed_of_scan_ok p s _ _ _ _ h
  rw [scan_closed hts] at h
  exact ⟨ts, rest, hts, Except.ok.inj h⟩

/-- A scan changes nothing. -/
theorem scan_state (p : Pbuf) (s : Server) : (p.scan s).state = s :=
  scanOptions_frames p (scanFuel p) ofsOptions anyAddr s

/-- A scan only reads the request. -/
theorem scan_reads {p : Pbuf} {s s' : Server} {es : List Event} {r : Except Fault Ip4Addr}
    (h : p.scan s = ⟨es, s', r⟩) : ∀ e ∈ es, e.IsRequestRead := by
  have hreads := scanOptions_emits p (scanFuel p) ofsOptions anyAddr s
  unfold Pbuf.scan at h
  rw [h] at hreads
  exact hreads

/-- **What one call can do.** -/
inductive RecvCase (cfg : Config) (d : Datagram) (s : Server) :
    Outcome Fault Server Event Unit → Prop
  /-- The type byte cannot be read. -/
  | noType (ht : d.p.typeByte = none) :
      RecvCase cfg d s ⟨[.read .request (ofsOptions + 2) 1], s, .error .unmapped⟩
  /-- "DHCP unknown option": no handler for the type byte. -/
  | ignored (t : UInt8) (ht : d.p.typeByte = some t) (hh : d.p.handler = none) :
      RecvCase cfg d s ⟨[.read .request (ofsOptions + 2) 1, .free .request], s, .ok ()⟩
  /-- `chaddr` cannot be read. -/
  | noChaddr (h : Handler) (hh : d.p.handler = some h) (hm : d.p.chaddr = none) :
      RecvCase cfg d s ⟨enterEvents h, s, .error .unmapped⟩
  /-- "no free addresses left". -/
  | exhausted (h : Handler) (m : EthAddr) (hh : d.p.handler = some h)
      (hm : d.p.chaddr = some m) (ha : allocateAddr m s.leases = none) :
      RecvCase cfg d s ⟨enterEvents h ++ [.free .request], s, .ok ()⟩
  /-- The client has a slot, but there is no buffer for the reply. -/
  | noReply (h : Handler) (m : EthAddr) (addr : Ip4Addr) (leases : List Lease)
      (hh : d.p.handler = some h) (hm : d.p.chaddr = some m)
      (ha : allocateAddr m s.leases = some (addr, leases)) (hb : replyBuf cfg d.rp = none) :
      RecvCase cfg d s
        ⟨enterEvents h ++ noReplyEvents d.rp ++ [.free .request],
          { s with leases := leases }, .ok ()⟩
  /-- A DISCOVER is answered with an OFFER. -/
  | offer (m : EthAddr) (addr : Ip4Addr) (leases : List Lease) (b : List UInt8)
      (hh : d.p.handler = some .discover) (hm : d.p.chaddr = some m)
      (ha : allocateAddr m s.leases = some (addr, leases)) (hb : replyBuf cfg d.rp = some b) :
      RecvCase cfg d s
        ⟨enterEvents .discover ++ newRespEvents cfg d.p b
          ++ [.write .reply ofsYiaddr 4, .write .reply ofsOptions 16,
              .send s.dhcpPcb (offerMsg cfg d.p d.netif b addr) broadcastAddr
                LWIP_IANA_PORT_DHCP_CLIENT,
              .free .reply, .read .reply ofsChaddr 6] ++ [.free .request],
          { s with leases := leases }, .ok ()⟩
  /-- The option scan of a REQUEST runs out of memory. -/
  | scanFault (m : EthAddr) (addr : Ip4Addr) (leases : List Lease) (b : List UInt8)
      (es : List Event) (e : Fault)
      (hh : d.p.handler = some .request) (hm : d.p.chaddr = some m)
      (ha : allocateAddr m s.leases = some (addr, leases)) (hb : replyBuf cfg d.rp = some b)
      (hscan : d.p.scan { s with leases := leases } = ⟨es, { s with leases := leases }, .error e⟩) :
      RecvCase cfg d s
        ⟨enterEvents .request ++ newRespEvents cfg d.p b ++ es,
          { s with leases := leases }, .error e⟩
  /-- A REQUEST for the client's address is answered with an ACK. -/
  | ack (m : EthAddr) (addr : Ip4Addr) (leases : List Lease) (b : List UInt8) (mac : EthAddr)
      (es : List Event)
      (hh : d.p.handler = some .request) (hm : d.p.chaddr = some m)
      (ha : allocateAddr m s.leases = some (addr, leases)) (hb : replyBuf cfg d.rp = some b)
      (hscan : d.p.scan { s with leases := leases } = ⟨es, { s with leases := leases }, .ok addr⟩)
      (hmac : peekVec (ackMsg cfg d.p d.netif b addr) ofsChaddr 6 = some mac) :
      RecvCase cfg d s
        ⟨enterEvents .request ++ newRespEvents cfg d.p b ++ es
          ++ [.write .reply ofsYiaddr 4, .write .reply ofsOptions 34, .read .reply ofsYiaddr 4,
              .read .reply ofsChaddr 6, .addStaticEntry addr mac,
              .send s.dhcpPcb (ackMsg cfg d.p d.netif b addr) addr LWIP_IANA_PORT_DHCP_CLIENT,
              .free .reply, .read .reply ofsChaddr 6] ++ [.free .request],
          { s with leases := leases, arp := setStaticEntry addr mac s.arp }, .ok ()⟩
  /-- A REQUEST for another address is answered with a NAK. -/
  | nak (m : EthAddr) (addr reqAddr : Ip4Addr) (leases : List Lease) (b : List UInt8)
      (es : List Event)
      (hh : d.p.handler = some .request) (hm : d.p.chaddr = some m)
      (ha : allocateAddr m s.leases = some (addr, leases)) (hb : replyBuf cfg d.rp = some b)
      (hscan : d.p.scan { s with leases := leases }
        = ⟨es, { s with leases := leases }, .ok reqAddr⟩)
      (hne : reqAddr ≠ addr) :
      RecvCase cfg d s
        ⟨enterEvents .request ++ newRespEvents cfg d.p b ++ es
          ++ [.write .reply ofsOptions 10,
              .send s.dhcpPcb (nakMsg cfg d.p d.netif b) broadcastAddr
                LWIP_IANA_PORT_DHCP_CLIENT,
              .free .reply] ++ [.free .request],
          { s with leases := leases }, .ok ()⟩

/-- A call is the handler its type byte picks, between reading that byte and
freeing the request. -/
theorem dhcpRecv_of_handler {cfg : Config} {d : Datagram} {h : Handler}
    (hh : d.p.handler = some h) (s : Server) :
    dhcpRecv cfg d s
      = ((handle cfg d h s).andThen fun _ => Cmd.emit (.free .request)).after
          [.read .request (ofsOptions + 2) 1] := by
  cases h with
  | discover =>
      have ht := Pbuf.handler_eq_discover.mp hh
      simp [dhcpRecv, loadByte_some ht, handle]
  | request =>
      have ht := Pbuf.handler_eq_request.mp hh
      -- the first comparison fails
      have hne : ¬ DHCPREQUEST = DHCPDISCOVER := by decide
      simp [dhcpRecv, loadByte_some ht, hne, handle]

/-- Both handlers stop at a `chaddr` that cannot be read. -/
theorem handle_noChaddr {cfg : Config} {d : Datagram} (h : Handler) (hm : d.p.chaddr = none)
    (s : Server) :
    handle cfg d h s = ⟨[.run h, .read .request ofsChaddr 6], s, .error .unmapped⟩ := by
  cases h <;> simp [handle, handleDiscover, handleRequest, load_none hm]

/-- Both handlers give up without a slot. -/
theorem handle_exhausted {cfg : Config} {d : Datagram} (h : Handler) {m : EthAddr} {s : Server}
    (hm : d.p.chaddr = some m) (ha : allocateAddr m s.leases = none) :
    handle cfg d h s = ⟨[.run h, .read .request ofsChaddr 6], s, .ok ()⟩ := by
  cases h <;> simp [handle, handleDiscover, handleRequest, load_some hm, ha]

/-- Both handlers give up without a reply buffer, with the slot claimed. -/
theorem handle_noReply {cfg : Config} {d : Datagram} (h : Handler) {m : EthAddr} {s : Server}
    {addr : Ip4Addr} {leases : List Lease} (hm : d.p.chaddr = some m)
    (ha : allocateAddr m s.leases = some (addr, leases)) (hb : replyBuf cfg d.rp = none) :
    handle cfg d h s
      = ⟨[.run h, .read .request ofsChaddr 6] ++ noReplyEvents d.rp,
          { s with leases := leases }, .ok ()⟩ := by
  cases h <;>
    simp [handle, handleDiscover, handleRequest, load_some hm, ha, newResp_eq, hb]

/-- `handleDiscover` with a slot and a buffer. -/
theorem handle_discover {cfg : Config} {d : Datagram} {m : EthAddr} {s : Server}
    {addr : Ip4Addr} {leases : List Lease} {b : List UInt8} (hm : d.p.chaddr = some m)
    (ha : allocateAddr m s.leases = some (addr, leases)) (hb : replyBuf cfg d.rp = some b) :
    handle cfg d .discover s
      = ⟨[.run .discover, .read .request ofsChaddr 6] ++ newRespEvents cfg d.p b
          ++ [.write .reply ofsYiaddr 4, .write .reply ofsOptions 16,
              .send s.dhcpPcb (offerMsg cfg d.p d.netif b addr) broadcastAddr
                LWIP_IANA_PORT_DHCP_CLIENT,
              .free .reply, .read .reply ofsChaddr 6], { s with leases := leases }, .ok ()⟩ := by
  have hoffer := offer_apply (p := d.p) (replyBuf_eq_some hb).2 d.netif addr
    { s with leases := leases }
  simp only [handle, handleDiscover, Cmd.bind_apply, Cmd.emit_apply, Outcome.andThen_ok,
    load_some hm, Cmd.get_apply, ha, Cmd.modify_apply, newResp_eq, hb]
  simp only [Cmd.bind_apply] at hoffer
  rw [hoffer]
  simp

/-- `handleRequest` with a slot and a buffer: the scan decides. -/
theorem handle_request {cfg : Config} {d : Datagram} {m : EthAddr} {s : Server}
    {addr : Ip4Addr} {leases : List Lease} {b : List UInt8} (hm : d.p.chaddr = some m)
    (ha : allocateAddr m s.leases = some (addr, leases)) (hb : replyBuf cfg d.rp = some b) :
    handle cfg d .request s
      = ((d.p.scan { s with leases := leases }).andThen fun reqAddr =>
          if reqAddr = addr then sendAck d.netif (respBytes cfg d.p b) reqAddr
          else sendNak d.netif (respBytes cfg d.p b)).after
            ([.run .request, .read .request ofsChaddr 6] ++ newRespEvents cfg d.p b) := by
  simp [handle, handleRequest, load_some hm, ha, newResp_eq, hb, Pbuf.scan]

/-- The message holds a `chaddr` for the ACK to read back. -/
theorem ackMsg_chaddr {cfg : Config} {p : Pbuf} {b : List UInt8} (h : cfg.msgSize ≤ b.length)
    (netif : Netif) (addr : Ip4Addr) :
    ∃ mac : EthAddr, peekVec (ackMsg cfg p netif b addr) ofsChaddr 6 = some mac := by
  have hlen : (ackMsg cfg p netif b addr).length = b.length :=
    grantMsg_length h addr (by simp [ackBytes_length])
  have hofs := ofs_values
  unfold Config.msgSize at h
  obtain ⟨mac, hmac, _⟩ := peekVec_of_le
    (show ofsChaddr + 6 ≤ (ackMsg cfg p netif b addr).length by omega)
  exact ⟨mac, hmac⟩

/-- **These are all the ways a call can go.** -/
theorem dhcpRecv_cases (cfg : Config) (d : Datagram) (s : Server) :
    RecvCase cfg d s (dhcpRecv cfg d s) := by
  cases hh : d.p.handler with
  | none =>
      cases ht : d.p.typeByte with
      | none =>
          have hrun : dhcpRecv cfg d s
              = ⟨[.read .request (ofsOptions + 2) 1], s, .error .unmapped⟩ := by
            simp [dhcpRecv, loadByte_none ht]
          rw [hrun]
          exact .noType ht
      | some t =>
          -- no handler means neither of the two types
          have hne : ¬ t = DHCPDISCOVER ∧ ¬ t = DHCPREQUEST := by
            have hreq : ¬ DHCPREQUEST = DHCPDISCOVER := by decide
            constructor <;> rintro rfl <;> simp [Pbuf.handler, ht, hreq] at hh
          have hrun : dhcpRecv cfg d s
              = ⟨[.read .request (ofsOptions + 2) 1, .free .request], s, .ok ()⟩ := by
            simp [dhcpRecv, loadByte_some ht, hne.1, hne.2]
          rw [hrun]
          exact .ignored t ht hh
  | some h =>
      rw [dhcpRecv_of_handler hh]
      cases hm : d.p.chaddr with
      | none =>
          rw [handle_noChaddr h hm]
          exact .noChaddr h hh hm
      | some m =>
          cases ha : allocateAddr m s.leases with
          | none =>
              rw [handle_exhausted h hm ha]
              exact .exhausted h m hh hm ha
          | some r =>
              obtain ⟨addr, leases⟩ := r
              cases hb : replyBuf cfg d.rp with
              | none =>
                  rw [handle_noReply h hm ha hb]
                  exact .noReply h m addr leases hh hm ha hb
              | some b =>
                  have hsize := (replyBuf_eq_some hb).2
                  cases h with
                  | discover =>
                      rw [handle_discover hm ha hb]
                      have hcase := RecvCase.offer m addr leases b hh hm ha hb
                      simpa [enterEvents] using hcase
                  | request =>
                      rw [handle_request hm ha hb]
                      -- the scan has left the table as allocateAddr made it
                      have hframe := scan_state d.p { s with leases := leases }
                      rcases hscan : d.p.scan { s with leases := leases } with ⟨es, s', r⟩
                      rw [hscan] at hframe
                      obtain rfl : s' = { s with leases := leases } := hframe
                      cases r with
                      | error e =>
                          have hcase := RecvCase.scanFault m addr leases b es e hh hm ha hb hscan
                          simpa [enterEvents] using hcase
                      | ok reqAddr =>
                          by_cases heq : reqAddr = addr
                          · -- the address that was asked for is the slot's: an ACK
                            subst heq
                            obtain ⟨mac, hmac⟩ := ackMsg_chaddr (p := d.p) hsize d.netif reqAddr
                            have hcase := RecvCase.ack m reqAddr leases b mac es hh hm ha hb
                              hscan hmac
                            simpa [enterEvents, sendAck_apply hsize d.netif reqAddr hmac]
                              using hcase
                          · -- another address, or none at all: a NAK
                            have hcase := RecvCase.nak m addr reqAddr leases b es hh hm ha hb
                              hscan heq
                            simpa [enterEvents, heq, sendNak_apply hsize] using hcase

/-! ## §4. What a call sends. -/

@[simp] theorem sentMsgs_enterEvents (h : Handler) : sentMsgs (enterEvents h) = [] := rfl

@[simp] theorem sentMsgs_newRespEvents (cfg : Config) (p : Pbuf) (b : List UInt8) :
    sentMsgs (newRespEvents cfg p b) = [] := rfl

@[simp] theorem sentMsgs_noReplyEvents (rp : Option (List UInt8)) :
    sentMsgs (noReplyEvents rp) = [] := by
  cases rp <;> rfl

/-- The scan sends nothing. -/
theorem sentMsgs_scan {p : Pbuf} {s s' : Server} {es : List Event} {r : Except Fault Ip4Addr}
    (h : p.scan s = ⟨es, s', r⟩) : sentMsgs es = [] := by
  unfold sentMsgs
  rw [List.filterMap_eq_nil_iff]
  intro ev hev
  obtain ⟨k, n, rfl⟩ := scan_reads h ev hev
  rfl

section Answers

variable {cfg : Config} {d : Datagram} {s : Server} {m : EthAddr} {addr reqAddr : Ip4Addr}
  {leases : List Lease} {b : List UInt8} {es : List Event}

/-- A DISCOVER with a slot and a buffer is answered with the OFFER of the slot. -/
theorem recv_offer (hh : d.p.handler = some .discover) (hm : d.p.chaddr = some m)
    (ha : allocateAddr m s.leases = some (addr, leases)) (hb : replyBuf cfg d.rp = some b) :
    ∃ es, RecvStep cfg s (d, es) { s with leases := leases }
      ∧ sentMsgs es = [offerMsg cfg d.p d.netif b addr] := by
  have hrun : dhcpRecv cfg d s = _ := dhcpRecv_of_handler hh s
  rw [handle_discover hm ha hb] at hrun
  exact ⟨_, hrun, by simp⟩

/-- A REQUEST whose scan finds the client's address is answered with an ACK. -/
theorem recv_ack (hh : d.p.handler = some .request) (hm : d.p.chaddr = some m)
    (ha : allocateAddr m s.leases = some (addr, leases)) (hb : replyBuf cfg d.rp = some b)
    (hscan : d.p.scan { s with leases := leases } = ⟨es, { s with leases := leases }, .ok addr⟩) :
    ∃ es' mac, RecvStep cfg s (d, es')
        { s with leases := leases, arp := setStaticEntry addr mac s.arp }
      ∧ sentMsgs es' = [ackMsg cfg d.p d.netif b addr]
      ∧ peekVec (ackMsg cfg d.p d.netif b addr) ofsChaddr 6 = some mac := by
  have hsize := (replyBuf_eq_some hb).2
  obtain ⟨mac, hmac⟩ := ackMsg_chaddr (p := d.p) hsize d.netif addr
  have hrun : dhcpRecv cfg d s = _ := dhcpRecv_of_handler hh s
  rw [handle_request hm ha hb, hscan, Outcome.andThen_ok, if_pos rfl,
      sendAck_apply hsize d.netif addr hmac] at hrun
  refine ⟨_, mac, hrun, ?_, hmac⟩
  simp [sentMsgs_scan hscan]

/-- A REQUEST whose scan finds another address is answered with a NAK. -/
theorem recv_nak (hh : d.p.handler = some .request) (hm : d.p.chaddr = some m)
    (ha : allocateAddr m s.leases = some (addr, leases)) (hb : replyBuf cfg d.rp = some b)
    (hscan : d.p.scan { s with leases := leases } = ⟨es, { s with leases := leases }, .ok reqAddr⟩)
    (hne : reqAddr ≠ addr) :
    ∃ es', RecvStep cfg s (d, es') { s with leases := leases }
      ∧ sentMsgs es' = [nakMsg cfg d.p d.netif b] := by
  have hsize := (replyBuf_eq_some hb).2
  have hrun : dhcpRecv cfg d s = _ := dhcpRecv_of_handler hh s
  rw [handle_request hm ha hb, hscan, Outcome.andThen_ok, if_neg hne,
      sendNak_apply hsize] at hrun
  refine ⟨_, hrun, ?_⟩
  simp [sentMsgs_scan hscan]

end Answers

end PicoosLwip.Dhcps
