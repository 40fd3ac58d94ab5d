/-
  PicoosLwip.Dhcps.Types — the data of the DHCP server (apps/dhcps/dhcps.c).

  `struct dhcp_msg` is a packed byte layout, so a message is a list of bytes
  and a field is an offset into it.  A received `struct pbuf` is its payload
  (`p->len` bytes) and the mapped memory that happens to lie behind it: the
  server reads through `p->payload` without looking at `p->len`, and what it
  finds there is part of what it does.  An access outside the mapped memory is
  a fault: the call does not return.

  Every function of the server is a command over the server's globals that
  logs what it does to the two buffers and to the rest of lwIP (`Event`).
-/
import PicoosLwip.Framework.Bytes
import PicoosLwip.Framework.Cmd

namespace PicoosLwip.Dhcps

open PicoosLwip.Framework

/-! ## §1. Constants. -/

/-- A client looks for a server. -/
abbrev DHCPDISCOVER : UInt8 := 1
/-- The server offers an address. -/
abbrev DHCPOFFER : UInt8 := 2
/-- The client asks for an address. -/
abbrev DHCPREQUEST : UInt8 := 3
/-- The server grants it. -/
abbrev DHCPACK : UInt8 := 5
/-- The server refuses it. -/
abbrev DHCPNAK : UInt8 := 6

/-- The mask of the subnet. -/
abbrev OPT_NETMASK : UInt8 := 1
/-- The address asked for. -/
abbrev OPT_REQ_IP : UInt8 := 50
/-- How long an address is leased. -/
abbrev OPT_LEASE_TIME : UInt8 := 51
/-- The message type. -/
abbrev OPT_MSGTYPE : UInt8 := 53
/-- The server's address. -/
abbrev OPT_SERVERID : UInt8 := 54
/-- When the client should renew its lease. -/
abbrev OPT_RENEW_TIME : UInt8 := 58
/-- When it should ask any server. -/
abbrev OPT_REBIND_TIME : UInt8 := 59
/-- The end of the options. -/
abbrev OPT_END : UInt8 := 255

/-- The number of slots. -/
abbrev MAX_LEASES : Nat := 3

/-- The clients' port. -/
abbrev LWIP_IANA_PORT_DHCP_CLIENT : Nat := 68

/-! ## §2. Addresses and the message layout. -/

/-- `ip4_addr_t`, in network byte order. -/
abbrev Ip4Addr := Vector UInt8 4

/-- `struct eth_addr`. -/
abbrev EthAddr := Vector UInt8 6

/-- `freeMac`: marks a slot of the lease table that no client holds. -/
abbrev freeMac : EthAddr := #v[0, 0, 0, 0, 0, 0]

/-- `0.0.0.0`. -/
abbrev anyAddr : Ip4Addr := #v[0, 0, 0, 0]

/-- `IP_ADDR_BROADCAST`. -/
abbrev broadcastAddr : Ip4Addr := #v[255, 255, 255, 255]

/-- `DHCP_MAGIC_COOKIE` as `PP_HTONL` leaves it in memory. -/
abbrev magicCookie : List UInt8 := [0x63, 0x82, 0x53, 0x63]

-- Offsets of the fields of `struct dhcp_msg` that the server touches.
/-- BOOTREQUEST or BOOTREPLY. -/
abbrev ofsOp : Nat := 0
/-- The address that the client has. -/
abbrev ofsCiaddr : Nat := 12
/-- The address that it gets. -/
abbrev ofsYiaddr : Nat := 16
/-- Its hardware address. -/
abbrev ofsChaddr : Nat := 28
/-- The magic cookie. -/
abbrev ofsCookie : Nat := 236
/-- The options. -/
abbrev ofsOptions : Nat := 240

theorem ofs_values : ofsOp = 0 ∧ ofsCiaddr = 12 ∧ ofsYiaddr = 16 ∧ ofsChaddr = 28
    ∧ ofsCookie = 236 ∧ ofsOptions = 240 := ⟨rfl, rfl, rfl, rfl, rfl, rfl⟩

/-- lwIP's build-time `DHCP_OPTIONS_LEN`, which it never lets fall below 68. -/
structure Config where
  optionsLen : Nat
  minOptionsLen : 68 ≤ optionsLen

/-- `sizeof(struct dhcp_msg)`. -/
def Config.msgSize (cfg : Config) : Nat := ofsOptions + cfg.optionsLen

/-- A received packet buffer: the payload, whose length is `p->len`, and the
mapped memory that follows it. -/
structure Pbuf where
  payload : List UInt8
  behind : List UInt8
  deriving DecidableEq

/-- `p->len`. -/
def Pbuf.len (p : Pbuf) : Nat := p.payload.length

/-- What can be read from `p->payload` on. -/
def Pbuf.mem (p : Pbuf) : List UInt8 := p.payload ++ p.behind

/-- The payload is mapped. -/
theorem Pbuf.len_le_mem (p : Pbuf) : p.len ≤ p.mem.length := by
  simp [Pbuf.len, Pbuf.mem]

/-- The interface the server runs on: `netif_ip4_addr`, `netif_ip4_netmask`. -/
structure Netif where
  ip : Ip4Addr
  netmask : Ip4Addr
  deriving DecidableEq

/-! ## §3. The server's globals. -/

/-- One slot of `leases[]`. -/
structure Lease where
  mac : EthAddr
  ip : Ip4Addr
  deriving DecidableEq

/-- A UDP control block the server made; `bound` when `udp_bind` gave it the
DHCP server port, which is what makes it receive. -/
structure Pcb where
  id : Nat
  bound : Bool
  deriving DecidableEq

/-- The globals of dhcps.c, and what it installed in lwIP: its control blocks
and its static ARP entries. -/
structure Server where
  leases : List Lease
  dhcpPcb : Option Nat
  pcbs : List Pcb
  arp : List (Ip4Addr × EthAddr)
  deriving DecidableEq

/-! ## §4. Events, faults, commands. -/

/-- The two buffers of one call. -/
inductive Buf where
  | request
  | reply
  deriving DecidableEq

/-- The two handlers. -/
inductive Handler where
  | discover
  | request
  deriving DecidableEq

/-- What a call does, in order. -/
inductive Event where
  /-- A handler is entered. -/
  | run (h : Handler)
  /-- `pbuf_alloc` for the reply; `some len` when it gave a buffer. -/
  | alloc (len : Option Nat)
  /-- `n` bytes of a buffer are read from offset `ofs` on. -/
  | read (b : Buf) (ofs n : Nat)
  | write (b : Buf) (ofs n : Nat)
  /-- `pbuf_free`. -/
  | free (b : Buf)
  /-- `etharp_add_static_entry`. -/
  | addStaticEntry (ip : Ip4Addr) (mac : EthAddr)
  /-- `udp_sendto_if` of the reply. -/
  | send (pcb : Option Nat) (msg : List UInt8) (dest : Ip4Addr) (port : Nat)
  deriving DecidableEq

/-- Why a call does not return. -/
inductive Fault where
  /-- It accessed memory that is not mapped. -/
  | unmapped
  /-- The loop bound of the model was used up. -/
  | outOfFuel
  deriving DecidableEq, Repr

/-- A function of the server. -/
abbrev DhcpsM := Cmd Fault Server Event

/-- Read one byte of `mem`. -/
def loadByte (b : Buf) (mem : List UInt8) (ofs : Nat) : DhcpsM UInt8 := do
  Cmd.emit (.read b ofs 1)
  match mem[ofs]? with
  | some v => pure v
  | none => Cmd.fault .unmapped

/-- Read `n` bytes of `mem` from `ofs` on. -/
def load (b : Buf) (mem : List UInt8) (ofs n : Nat) : DhcpsM (Vector UInt8 n) := do
  Cmd.emit (.read b ofs n)
  match peekVec mem ofs n with
  | some v => pure v
  | none => Cmd.fault .unmapped

/-- Read a stretch whose length is only known at run time, as `memcpy` does. -/
def loadBytes (b : Buf) (mem : List UInt8) (ofs n : Nat) : DhcpsM (List UInt8) := do
  Cmd.emit (.read b ofs n)
  if ofs + n ≤ mem.length then pure (peek mem ofs n) else Cmd.fault .unmapped

/-- Store `bs` in the reply. -/
def store (buf : List UInt8) (ofs : Nat) (bs : List UInt8) : DhcpsM (List UInt8) := do
  Cmd.emit (.write .reply ofs bs.length)
  pure (poke buf ofs bs)

/-- A byte that is mapped. -/
@[simp] theorem loadByte_some {b : Buf} {mem : List UInt8} {ofs : Nat} {v : UInt8}
    (h : mem[ofs]? = some v) (s : Server) :
    loadByte b mem ofs s = ⟨[.read b ofs 1], s, .ok v⟩ := by
  simp [loadByte, h]

/-- One that is not. -/
@[simp] theorem loadByte_none {b : Buf} {mem : List UInt8} {ofs : Nat} (h : mem[ofs]? = none)
    (s : Server) : loadByte b mem ofs s = ⟨[.read b ofs 1], s, .error .unmapped⟩ := by
  simp [loadByte, h]

/-- Bytes that are mapped. -/
@[simp] theorem load_some {b : Buf} {mem : List UInt8} {ofs n : Nat} {v : Vector UInt8 n}
    (h : peekVec mem ofs n = some v) (s : Server) :
    load b mem ofs n s = ⟨[.read b ofs n], s, .ok v⟩ := by
  simp [load, h]

/-- Bytes that are not. -/
@[simp] theorem load_none {b : Buf} {mem : List UInt8} {ofs n : Nat}
    (h : peekVec mem ofs n = none) (s : Server) :
    load b mem ofs n s = ⟨[.read b ofs n], s, .error .unmapped⟩ := by
  simp [load, h]

/-- Bytes inside the buffer. -/
@[simp] theorem loadBytes_of_le {b : Buf} {mem : List UInt8} {ofs n : Nat}
    (h : ofs + n ≤ mem.length) (s : Server) :
    loadBytes b mem ofs n s = ⟨[.read b ofs n], s, .ok (peek mem ofs n)⟩ := by
  simp [loadBytes, h]

@[simp] theorem store_apply (buf : List UInt8) (ofs : Nat) (bs : List UInt8) (s : Server) :
    store buf ofs bs s = ⟨[.write .reply ofs bs.length], s, .ok (poke buf ofs bs)⟩ := rfl

end PicoosLwip.Dhcps
