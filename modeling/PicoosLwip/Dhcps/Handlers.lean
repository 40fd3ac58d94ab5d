/-
  PicoosLwip.Dhcps.Handlers — the functions of apps/dhcps/dhcps.c that receive,
  answer, start and stop, statement by statement.

  `pbuf_alloc` is the environment: what it gives for the reply (`NULL`, or a
  buffer with whatever bytes it holds) is an argument of the call.  A stored
  byte range is one `write` event; `printf` of a buffer's bytes is a `read`.
-/
import PicoosLwip.Dhcps.Options
import PicoosLwip.Framework.Run

namespace PicoosLwip.Dhcps

open PicoosLwip.Framework

/-! ## §1. `allocateAddr`. -/

/-- "search for existing" -/
def findLease (mac : EthAddr) : List Lease → Option Ip4Addr
  | [] => none
  | l :: ls => if mac = l.mac then some l.ip else findLease mac ls

/-- "create new one" -/
def claimLease (mac : EthAddr) : List Lease → Option (Ip4Addr × List Lease)
  | [] => none
  | l :: ls =>
      if l.mac = freeMac then some (l.ip, { l with mac := mac } :: ls)
      else (claimLease mac ls).map fun r => (r.1, l :: r.2)

/-- The address for `mac` and the table afterwards; `none` is the result −1,
which leaves the table alone. -/
def allocateAddr (mac : EthAddr) (leases : List Lease) : Option (Ip4Addr × List Lease) :=
  match findLease mac leases with
  | some ip => some (ip, leases)
  | none => claimLease mac leases

/-! ## §2. Building and sending a reply. -/

/-- A reply for the request, unless there is no memory. -/
def newResp (cfg : Config) (p : Pbuf) (rp : Option (List UInt8)) :
    DhcpsM (Option (List UInt8)) :=
  match rp with
  | none => do
      -- "out of mem"
      Cmd.emit (.alloc none)
      pure none
  | some rp => do
      Cmd.emit (.alloc (some rp.length))
      if rp.length < cfg.msgSize then
        -- "pbuf too small"
        Cmd.emit (.free .reply)
        pure none
      else
        -- the only use of `p->len` in the server
        let len := if rp.length < p.len then rp.length else p.len
        let bytes ← loadBytes .request p.mem 0 len
        let resp ← store rp 0 bytes
        let resp ← store resp ofsOptions (List.replicate cfg.optionsLen 0)
        let resp ← store resp ofsOp [2]
        let resp ← store resp ofsCookie magicCookie
        pure (some resp)

/-- The options of an OFFER. -/
def offerOptions (netif : Netif) (c : Cursor) : Cursor :=
  let c := addOptionByte c OPT_MSGTYPE DHCPOFFER
  let c := addOptionIP c OPT_NETMASK netif.netmask
  let c := addOptionIP c OPT_SERVERID netif.ip
  c.put [OPT_END]

/-- The options of an ACK. -/
def ackOptions (netif : Netif) (c : Cursor) : Cursor :=
  let c := addOptionByte c OPT_MSGTYPE DHCPACK
  let c := addOptionTime c OPT_RENEW_TIME (30 * 60)
  let c := addOptionTime c OPT_REBIND_TIME (50 * 60)
  let c := addOptionTime c OPT_LEASE_TIME (60 * 60)
  let c := addOptionIP c OPT_NETMASK netif.netmask
  let c := addOptionIP c OPT_SERVERID netif.ip
  c.put [OPT_END]

/-- The options of a NAK. -/
def nakOptions (netif : Netif) (c : Cursor) : Cursor :=
  let c := addOptionByte c OPT_MSGTYPE DHCPNAK
  let c := addOptionIP c OPT_SERVERID netif.ip
  c.put [OPT_END]

/-- Run an option builder from `resp->options` on. -/
def writeOptions (resp : List UInt8) (build : Cursor → Cursor) : DhcpsM (List UInt8) := do
  let c := build ⟨resp, ofsOptions⟩
  Cmd.emit (.write .reply ofsOptions (c.ptr - ofsOptions))
  pure c.buf

/-- `udp_sendto_if(dhcpPcb, …)` and `pbuf_free(rp)`. -/
def sendReply (resp : List UInt8) (dest : Ip4Addr) : DhcpsM Unit := do
  let s ← Cmd.get
  Cmd.emit (.send s.dhcpPcb resp dest LWIP_IANA_PORT_DHCP_CLIENT)
  Cmd.emit (.free .reply)

/-- `etharp_add_static_entry` sets the entry of `ip`. -/
def setStaticEntry (ip : Ip4Addr) (mac : EthAddr) (arp : List (Ip4Addr × EthAddr)) :
    List (Ip4Addr × EthAddr) :=
  (ip, mac) :: arp.filter fun e => e.1 ≠ ip

/-- From now on the address is this hardware's. -/
def etharpAddStaticEntry (ip : Ip4Addr) (mac : EthAddr) : DhcpsM Unit := do
  Cmd.emit (.addStaticEntry ip mac)
  Cmd.modify fun s => { s with arp := setStaticEntry ip mac s.arp }

/-- The `printf` behind the send: it reads `resp->chaddr`. -/
def printChaddr : DhcpsM Unit := Cmd.emit (.read .reply ofsChaddr 6)

/-! ## §3. The two handlers. -/

/-- Offer an address. -/
def handleDiscover (cfg : Config) (p : Pbuf) (netif : Netif) (rp : Option (List UInt8)) :
    DhcpsM Unit := do
  Cmd.emit (.run .discover)
  let chaddr ← load .request p.mem ofsChaddr 6
  let s ← Cmd.get
  match allocateAddr chaddr s.leases with
  -- "no free addresses left."
  | none => pure ()
  | some (addr, leases) =>
      Cmd.modify fun s => { s with leases := leases }
      match ← newResp cfg p rp with
      -- newResp has failed; the slot stays taken
      | none => pure ()
      | some resp =>
          let resp ← store resp ofsYiaddr addr.toList
          let resp ← writeOptions resp (offerOptions netif)
          sendReply resp broadcastAddr
          printChaddr

/-- The branch of `handleRequest` for the address that is the client's. -/
def sendAck (netif : Netif) (resp : List UInt8) (reqAddr : Ip4Addr) : DhcpsM Unit := do
  let resp ← store resp ofsYiaddr reqAddr.toList
  let resp ← writeOptions resp (ackOptions netif)
  -- both are read back from the reply, not from the request
  let dest ← load .reply resp ofsYiaddr 4
  let mac ← load .reply resp ofsChaddr 6
  etharpAddStaticEntry dest mac
  sendReply resp dest
  printChaddr

/-- The other branch: "Request IP is not free". -/
def sendNak (netif : Netif) (resp : List UInt8) : DhcpsM Unit := do
  let resp ← writeOptions resp (nakOptions netif)
  sendReply resp broadcastAddr

/-- Grant the address that is asked for, or refuse it. -/
def handleRequest (cfg : Config) (p : Pbuf) (netif : Netif) (rp : Option (List UInt8)) :
    DhcpsM Unit := do
  Cmd.emit (.run .request)
  let chaddr ← load .request p.mem ofsChaddr 6
  let s ← Cmd.get
  match allocateAddr chaddr s.leases with
  -- "no free addresses left."
  | none => pure ()
  | some (newAddr, leases) =>
      Cmd.modify fun s => { s with leases := leases }
      match ← newResp cfg p rp with
      | none => pure ()
      | some resp =>
          -- a request without option 50 asks for 0.0.0.0
          let reqAddr ← scanOptions p (scanFuel p) ofsOptions anyAddr
          -- memcmp(&reqAddr, &newAddr, 4)
          if reqAddr = newAddr then sendAck netif resp reqAddr else sendNak netif resp

/-! ## §4. Receiving. -/

/-- A received datagram with what its call meets: the interface, and what
`pbuf_alloc` gives for the reply. -/
structure Datagram where
  p : Pbuf
  netif : Netif
  rp : Option (List UInt8)
  deriving DecidableEq

/-- The message type is taken from `req->options[2]`. -/
def dhcpRecv (cfg : Config) (d : Datagram) : DhcpsM Unit := do
  let t ← loadByte .request d.p.mem (ofsOptions + 2)
  if t = DHCPDISCOVER then handleDiscover cfg d.p d.netif d.rp
  else if t = DHCPREQUEST then handleRequest cfg d.p d.netif d.rp
  else pure ()
  Cmd.emit (.free .request)

/-! ## §5. Starting and stopping. -/

/-- `IP4_ADDR`: the low 8 bits of each octet. -/
def IP4_ADDR (a b c d : Nat) : Ip4Addr :=
  #v[UInt8.ofNat a, UInt8.ofNat b, UInt8.ofNat c, UInt8.ofNat d]

/-- The address the start computes for slot `i`. -/
def slotAddr (base : Ip4Addr) (i : Nat) : Ip4Addr :=
  IP4_ADDR base[0].toNat base[1].toNat base[2].toNat (base[3].toNat + i + 10)

/-- `udpNew` is what `udp_new` returns.  `udp_bind` gives the server port to the
new block unless another one has it; its result is not looked at. -/
def dhcpServerStartRaw (netif : Netif) (udpNew : Option Nat) (s : Server) : Server :=
  let leases := (List.range MAX_LEASES).map fun i => ⟨freeMac, slotAddr netif.ip i⟩
  match udpNew with
  | none => { s with leases := leases, dhcpPcb := none }
  | some id =>
      { s with
        leases := leases
        -- an earlier block stays among lwIP's, but nothing points to it any more
        dhcpPcb := some id
        pcbs := s.pcbs ++ [⟨id, s.pcbs.all fun pcb => !pcb.bound⟩] }

/-- Remove the server's block. -/
def dhcpServerStopRaw (s : Server) : Server :=
  { s with
    pcbs := s.pcbs.filter fun pcb => s.dhcpPcb ≠ some pcb.id
    dhcpPcb := none }

/-- The globals at boot: everything zero, nothing installed. -/
def bootServer : Server where
  leases := List.replicate MAX_LEASES ⟨freeMac, anyAddr⟩
  dhcpPcb := none
  pcbs := []
  arp := []

/-! ## §6. The server as a transition system. -/

/-- `dhcpRecv` handles a datagram: the call logs `l.2` and RETURNS.  A call that
faults has no successor state. -/
def RecvStep (cfg : Config) (s : Server) (l : Datagram × List Event) (s' : Server) : Prop :=
  dhcpRecv cfg l.1 s = ⟨l.2, s', .ok ()⟩

/-- What can happen to the server, as long as its calls return. -/
inductive Op where
  | start (netif : Netif) (udpNew : Option Nat)
  | stop
  | recv (d : Datagram)

/-- Starts and stops run in the tcpip thread, in order with the datagrams; a
datagram reaches `dhcpRecv` through a block that has the server port. -/
inductive ServerStep (cfg : Config) : Server → Op × List Event → Server → Prop
  | start {s : Server} {netif : Netif} {udpNew : Option Nat}
      (fresh : ∀ id, udpNew = some id → ∀ pcb ∈ s.pcbs, pcb.id ≠ id) :
      ServerStep cfg s (.start netif udpNew, []) (dhcpServerStartRaw netif udpNew s)
  | stop {s : Server} : ServerStep cfg s (.stop, []) (dhcpServerStopRaw s)
  | recv {s s' : Server} {d : Datagram} {es : List Event}
      (bound : ∃ pcb ∈ s.pcbs, pcb.bound) (step : RecvStep cfg s (d, es) s') :
      ServerStep cfg s (.recv d, es) s'

/-- A server state that starts, stops and datagrams can lead to from boot. -/
def Reachable (cfg : Config) (s : Server) : Prop :=
  ∃ ls, Run (ServerStep cfg) bootServer ls s

end PicoosLwip.Dhcps
