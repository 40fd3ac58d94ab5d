/-
  PicoosLwip.Dhcps.ArpAgreement — the static ARP entries and the lease table.

  An ACK installs a static entry for the address it grants, with the hardware
  address that stands in the REPLY.  The entry is backed by a slot as long as
  that is the client's own address and the slot stays claimed.  Nothing ever
  removes an entry, while a start wipes the table; so the two agree in every
  state that is reached without a start over installed entries and without an
  ACK for the free mark or for a request that does not cover `chaddr`.
-/
import PicoosLwip.Dhcps.Requests

namespace PicoosLwip.Dhcps

open PicoosLwip.Framework

/-- Every static entry is backed by a slot that its hardware address claimed. -/
def ArpAgrees (s : Server) : Prop :=
  ∀ e ∈ s.arp, ∃ l ∈ s.leases, l.ip = e.1 ∧ l.mac = e.2 ∧ l.mac ≠ freeMac

instance (s : Server) : Decidable (ArpAgrees s) :=
  inferInstanceAs (Decidable (∀ e ∈ s.arp, ∃ l ∈ s.leases, _))

/-! ## §1. The branch that installs an entry. -/

/-- The datagram is a REQUEST of `m` for the address `addr` of its slot, and a
reply can be built: it takes the ACK branch. -/
structure TakesAck (cfg : Config) (s : Server) (d : Datagram) (m : EthAddr) (addr : Ip4Addr) :
    Prop where
  handler : d.p.handler = some .request
  client : d.p.chaddr = some m
  slot : ∃ leases, allocateAddr m s.leases = some (addr, leases)
  buffer : ∃ b, d.rp = some b ∧ cfg.msgSize ≤ b.length
  asks : ∃ ts rest, d.p.mem.drop ofsOptions = encodeOpts ts ++ OPT_END :: rest
    ∧ (lastReqAddr ts).getD anyAddr = addr

/-- A step that keeps the entries backed: a start only while there are none, an
ACK only for a client's own address, which the request must cover. -/
def KeepsArp (cfg : Config) (s : Server) : Op → Prop
  | .start _ _ => s.arp = []
  | .stop => True
  | .recv d => ∀ m addr, TakesAck cfg s d m addr → m ≠ freeMac ∧ ofsChaddr + 6 ≤ d.p.len

/-- The entry that an ACK installs is the client's, if the request covers it. -/
theorem ack_entry {cfg : Config} {p : Pbuf} {netif : Netif} {b : List UInt8} {addr : Ip4Addr}
    {m mac : EthAddr} (hb : cfg.msgSize ≤ b.length) (hlen : ofsChaddr + 6 ≤ p.len)
    (hm : p.chaddr = some m)
    (hmac : peekVec (ackMsg cfg p netif b addr) ofsChaddr 6 = some mac) : mac = m := by
  have hpeek : peek (ackMsg cfg p netif b addr) ofsChaddr 6 = peek p.mem ofsChaddr 6 :=
    peek_grantMsg_chaddr hb addr (by simp [ackBytes_length]) hlen
  rw [peekVec_eq_some_iff, hpeek] at hmac
  have hmem : p.chaddr = some mac := peekVec_eq_some_iff.mpr hmac
  exact Option.some.inj (hmem.symm.trans hm)

/-- **What a call does to the static entries**: nothing, or it takes the ACK
branch and sets the entry of the address it grants. -/
theorem recv_arp (cfg : Config) (d : Datagram) (s : Server) :
    (dhcpRecv cfg d s).state.arp = s.arp
      ∨ ∃ m addr mac, TakesAck cfg s d m addr
          ∧ (dhcpRecv cfg d s).state.arp = setStaticEntry addr mac s.arp
          ∧ (ofsChaddr + 6 ≤ d.p.len → mac = m) := by
  have hcase := dhcpRecv_cases cfg d s
  generalize dhcpRecv cfg d s = o at hcase
  cases hcase with
  | ack m addr leases b mac es hh hm ha hb hscan hmac =>
      obtain ⟨hrp, hsize⟩ := replyBuf_eq_some hb
      have hres : (d.p.scan { s with leases := leases }).result = .ok addr := by rw [hscan]
      -- the scan returned, so it read a closed option list
      obtain ⟨ts, rest, hts, haddr⟩ := closed_of_scan hres
      refine .inr ⟨m, addr, mac, ⟨hh, hm, ⟨leases, ha⟩, ⟨b, hrp, hsize⟩, ts, rest, hts, haddr⟩, rfl,
        ?_⟩
      intro hlen
      exact ack_entry hsize hlen hm hmac
  | _ => exact .inl rfl

/-! ## §2. Agreement. -/

/-- A call keeps the claimed slots, answered or not. -/
theorem mem_leases_of_recv {cfg : Config} {d : Datagram} {s : Server} {l : Lease}
    (hl : l ∈ s.leases) (hm : l.mac ≠ freeMac) : l ∈ (dhcpRecv cfg d s).state.leases := by
  rw [recv_leases]
  cases d.p.client with
  | none => exact hl
  | some m => exact mem_claim hl hm

/-- **One call keeps the agreement.** -/
theorem ArpAgrees.recv {cfg : Config} {d : Datagram} {s : Server} (h : ArpAgrees s)
    (hkeeps : KeepsArp cfg s (.recv d)) : ArpAgrees (dhcpRecv cfg d s).state := by
  intro e he
  -- an old entry stays backed
  have hold : e ∈ s.arp → ∃ l ∈ (dhcpRecv cfg d s).state.leases,
      l.ip = e.1 ∧ l.mac = e.2 ∧ l.mac ≠ freeMac := by
    intro hin
    obtain ⟨l, hl, hip, hmac, hne⟩ := h e hin
    exact ⟨l, mem_leases_of_recv hl hne, hip, hmac, hne⟩
  rcases recv_arp cfg d s with hsame | ⟨m, addr, mac, hack, hset, hmac⟩
  · rw [hsame] at he
    exact hold he
  · obtain ⟨hm, hlen⟩ := hkeeps m addr hack
    obtain rfl := hmac hlen
    rw [hset, setStaticEntry, List.mem_cons] at he
    rcases he with rfl | he
    · -- the new entry is backed by the slot just found or claimed
      obtain ⟨leases, ha⟩ := hack.slot
      refine ⟨⟨mac, addr⟩, ?_, rfl, rfl, hm⟩
      rw [recv_leases, client_eq hack.handler hack.client]
      show _ ∈ claim mac s.leases
      rw [claim_of_some ha]
      exact (mem_of_allocateAddr ha).1
    · exact hold (List.mem_filter.mp he).1

/-- A start leaves the entries alone. -/
theorem arp_start (netif : Netif) (udpNew : Option Nat) (s : Server) :
    (dhcpServerStartRaw netif udpNew s).arp = s.arp := by
  cases udpNew <;> rfl

/-- A step that keeps the entries backed. -/
def KeepsArpStep (cfg : Config) (s : Server) (l : Op × List Event) (s' : Server) : Prop :=
  ServerStep cfg s l s' ∧ KeepsArp cfg s l.1

/-- **The static entries and the lease table agree** in every state that steps
of that kind lead to. -/
theorem arp_agrees {cfg : Config} {ls : List (Op × List Event)} {s : Server}
    (hrun : Run (KeepsArpStep cfg) bootServer ls s) : ArpAgrees s := by
  apply hrun.invariant ArpAgrees
  · intro e he
    exact absurd he List.not_mem_nil
  · rintro s l s' hagrees ⟨hstep, hkeeps⟩
    cases hstep with
    | start hfresh =>
        -- no entries before, none after
        intro e he
        rw [arp_start, show s.arp = [] from hkeeps] at he
        exact absurd he List.not_mem_nil
    | stop => exact hagrees
    | recv hbound hrecv =>
        have hnext := hagrees.recv hkeeps
        rwa [hrecv] at hnext

/-! ## §3. A sample client. -/

/-- A sample REQUEST for the client's own address installs its entry. -/
theorem sampleServer_request {order order' : List EthAddr} {mac : EthAddr} {addr : Ip4Addr}
    (ha : allocateAddr mac (sampleServer order).leases
      = some (addr, table (startPool sampleNetif) order')) :
    ∃ es, RecvStep sampleConfig (sampleServer order)
      (sampleMsg DHCPREQUEST anyAddr mac [reqIpOpt addr], es)
      { sampleServer order' with arp := [(addr, mac)] } := by
  have hopts := clientMsg_hasOptions anyAddr mac [msgTypeOpt DHCPREQUEST, reqIpOpt addr]
  have hbuf := sampleMsg_buf DHCPREQUEST anyAddr mac [reqIpOpt addr]
  have hchaddr := sampleMsg_chaddr DHCPREQUEST anyAddr mac [reqIpOpt addr]
  have hscan := hopts.scan (sampleServer order')
  rw [lastReqAddr_msgType, lastReqAddr_reqIp, Option.getD_some] at hscan
  obtain ⟨es, mac', hstep, -, hmac⟩ := recv_ack hopts.handler_request hchaddr ha hbuf hscan
  have hlen := sampleMsg_len DHCPREQUEST anyAddr mac [reqIpOpt addr]
  have hofs := ofs_values
  obtain rfl := ack_entry (replyBuf_eq_some hbuf).2 (by omega) hchaddr hmac
  exact ⟨es, hstep⟩

/-- The client at 192.168.7.11 has its entry, backed by its slot. -/
theorem arp_agrees_macA :
    ∃ ls s, Run (KeepsArpStep sampleConfig) bootServer ls s
      ∧ s.arp = [(#v[192, 168, 7, 11], macA)] ∧ ArpAgrees s := by
  obtain ⟨es, hstep⟩ := sampleServer_request allocateAddr_macA
  have hkeeps : KeepsArp sampleConfig (sampleServer [])
      (.recv (sampleMsg DHCPREQUEST anyAddr macA [reqIpOpt #v[192, 168, 7, 11]])) := by
    intro m addr hack
    obtain rfl : macA = m :=
      Option.some.inj ((sampleMsg_chaddr _ _ macA _).symm.trans hack.client)
    have hlen := sampleMsg_len DHCPREQUEST anyAddr macA [reqIpOpt #v[192, 168, 7, 11]]
    have hofs := ofs_values
    exact ⟨by decide, by omega⟩
  have hrun : Run (KeepsArpStep sampleConfig) bootServer _ _ :=
    Run.cons ⟨sampleServer_start, rfl⟩ (Run.single ⟨sampleServer_recv hstep, hkeeps⟩)
  exact ⟨_, _, hrun, rfl, arp_agrees hrun⟩

/-- After a restart the entry is still there, and its slot is free. -/
theorem restart_leaves_stale_entry :
    ∃ ls s, Run (ServerStep sampleConfig) bootServer ls s
      ∧ ls.map (fun l => l.1) = [.start sampleNetif (some 1),
          .recv (sampleMsg DHCPREQUEST anyAddr macA [reqIpOpt #v[192, 168, 7, 11]]),
          .stop, .start sampleNetif (some 2)]
      ∧ s.arp = [(#v[192, 168, 7, 11], macA)] ∧ ¬ ArpAgrees s := by
  obtain ⟨es, hstep⟩ := sampleServer_request allocateAddr_macA
  have hrestart : ServerStep sampleConfig
      (dhcpServerStopRaw { sampleServer [macA] with arp := [(#v[192, 168, 7, 11], macA)] })
      (.start sampleNetif (some 2), []) _ := .start (by decide)
  have hrun := Run.cons sampleServer_start (Run.cons (sampleServer_recv hstep)
    (Run.cons .stop (Run.single hrestart)))
  exact ⟨_, _, hrun, rfl, rfl, by decide⟩

end PicoosLwip.Dhcps
