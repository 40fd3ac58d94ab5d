/-
  PicoosLwip.Dhcps.Requests — requests whose options are well formed.

  What the server makes of a datagram whose options field is a list of
  code/length/data options closed by END: the type byte when option 53 comes
  first, and the result of the scan.  `clientMsg` is such a request with a
  given `ciaddr`, `chaddr` and options field, the rest of its header empty.
-/
import PicoosLwip.Dhcps.LeaseTable

namespace PicoosLwip.Dhcps

open PicoosLwip.Framework

/-! ## §1. Options in the payload. -/

/-- Option 53 with value `v`. -/
def msgTypeOpt (v : UInt8) : Tlv where
  code := OPT_MSGTYPE
  data := [v]
  code_ne_end := by decide
  data_le := by simp

/-- Option 50 with the address `addr`. -/
def reqIpOpt (addr : Ip4Addr) : Tlv where
  code := OPT_REQ_IP
  data := addr.toList
  code_ne_end := by decide
  data_le := by simp

/-- The options field of `p` starts with `ts`, closed by END. -/
def Pbuf.HasOptions (p : Pbuf) (ts : List Tlv) : Prop :=
  ∃ rest, p.payload.drop ofsOptions = encodeOpts ts ++ OPT_END :: rest

section Options

variable {p : Pbuf} {ts : List Tlv}

/-- The list and its END lie inside the datagram. -/
theorem Pbuf.HasOptions.lt_len (h : p.HasOptions ts) :
    ofsOptions + (encodeOpts ts).length < p.len := by
  obtain ⟨rest, hrest⟩ := h
  have hlen := congrArg List.length hrest
  simp only [List.length_drop, List.length_append, List.length_cons] at hlen
  unfold Pbuf.len
  omega

/-- The list, END, and anything. -/
theorem Pbuf.HasOptions.mem_drop (h : p.HasOptions ts) :
    ∃ rest, p.mem.drop ofsOptions = encodeOpts ts ++ OPT_END :: rest := by
  have hlt := h.lt_len
  obtain ⟨rest, hrest⟩ := h
  refine ⟨rest ++ p.behind, ?_⟩
  unfold Pbuf.mem
  rw [List.drop_append_of_le_length (by unfold Pbuf.len at hlt; omega), hrest]
  simp

/-- **The scan of a well-formed options field.** -/
theorem Pbuf.HasOptions.scan (h : p.HasOptions ts) (s : Server) :
    p.scan s = ⟨scanReads ofsOptions ts, s, .ok ((lastReqAddr ts).getD anyAddr)⟩ := by
  obtain ⟨rest, hrest⟩ := h.mem_drop
  exact scan_closed hrest s

/-- With option 53 in front the type byte is its value. -/
theorem Pbuf.HasOptions.typeByte {v : UInt8} (h : p.HasOptions (msgTypeOpt v :: ts)) :
    p.typeByte = some v := by
  obtain ⟨rest, hrest⟩ := h.mem_drop
  have hget := congrArg (fun bs => bs[2]?) hrest
  simpa [Pbuf.typeByte, msgTypeOpt, Tlv.bytes] using hget

/-- A REQUEST whose type comes first is dispatched as one. -/
theorem Pbuf.HasOptions.handler_request (h : p.HasOptions (msgTypeOpt DHCPREQUEST :: ts)) :
    p.handler = some .request := Pbuf.handler_eq_request.mpr h.typeByte

/-- So is a DISCOVER. -/
theorem Pbuf.HasOptions.handler_discover (h : p.HasOptions (msgTypeOpt DHCPDISCOVER :: ts)) :
    p.handler = some .discover := Pbuf.handler_eq_discover.mpr h.typeByte

/-- Option 53 carries no address. -/
theorem lastReqAddr_msgType (v : UInt8) (ts : List Tlv) :
    lastReqAddr (msgTypeOpt v :: ts) = lastReqAddr ts := by
  have hnone : (msgTypeOpt v).reqAddr? = none := by
    simp [Tlv.reqAddr?, msgTypeOpt]
  simp [lastReqAddr, hnone]

/-- The address that is asked for. -/
theorem lastReqAddr_reqIp (addr : Ip4Addr) : lastReqAddr [reqIpOpt addr] = some addr := by
  have hreq : (reqIpOpt addr).reqAddr? = some addr := by
    simp [Tlv.reqAddr?, reqIpOpt]
    rfl
  simp [lastReqAddr, hreq]

end Options

/-! ## §2. A client's message. -/

/-- `n` zero bytes. -/
def zeros (n : Nat) : List UInt8 := List.replicate n 0

theorem zeros_length (n : Nat) : (zeros n).length = n := List.length_replicate

/-- A request with the given `ciaddr`, `chaddr` and options field. -/
def clientMsg (ciaddr : Ip4Addr) (mac : EthAddr) (opts : List UInt8) : Pbuf where
  payload := zeros 12 ++ (ciaddr.toList ++ (zeros 12 ++ (mac.toList
    ++ (zeros 202 ++ (magicCookie ++ opts)))))
  behind := []

section ClientMsg

variable (ciaddr : Ip4Addr) (mac : EthAddr) (opts : List UInt8)

/-- Its options. -/
theorem clientMsg_options : (clientMsg ciaddr mac opts).payload.drop ofsOptions = opts := by
  simp [clientMsg, List.drop_append, List.drop_eq_nil_of_le, zeros_length,
    ofsOptions]

/-- Its `ciaddr`. -/
theorem clientMsg_ciaddr : (clientMsg ciaddr mac opts).ciaddr = some ciaddr := by
  unfold Pbuf.ciaddr
  rw [peekVec_eq_some_iff]
  simp [Pbuf.mem, clientMsg, peek, zeros_length, ofsCiaddr]

/-- Its `chaddr`. -/
theorem clientMsg_chaddr : (clientMsg ciaddr mac opts).chaddr = some mac := by
  unfold Pbuf.chaddr
  rw [peekVec_eq_some_iff]
  simp [Pbuf.mem, clientMsg, peek, List.drop_append, List.drop_eq_nil_of_le, zeros_length,
    ofsChaddr]

/-- A client's message has the options it is made of. -/
theorem clientMsg_hasOptions (ts : List Tlv) :
    (clientMsg ciaddr mac (encodeOpts ts ++ [OPT_END])).HasOptions ts :=
  ⟨[], clientMsg_options ciaddr mac _⟩

end ClientMsg

/-! ## §3. A sample network. -/

/-- lwIP's default options length. -/
def sampleConfig : Config := ⟨68, Nat.le_refl 68⟩

/-- A network of 256 addresses. -/
def sampleNetif : Netif := ⟨#v[192, 168, 7, 1], #v[255, 255, 255, 0]⟩

/-- The server started on it, with the clients of `order` in. -/
def sampleServer (order : List EthAddr) : Server :=
  { dhcpServerStartRaw sampleNetif (some 1) bootServer with
    leases := table (startPool sampleNetif) order }

/-- Nobody has asked yet. -/
theorem sampleServer_nil :
    sampleServer [] = dhcpServerStartRaw sampleNetif (some 1) bootServer := by
  decide

/-- A client. -/
abbrev macA : EthAddr := #v[2, 0, 0, 0, 0, 1]
/-- Another one. -/
abbrev macB : EthAddr := #v[2, 0, 0, 0, 0, 2]

/-- A message of type `v` with further options `ts`, met by a cleared reply buffer. -/
def sampleMsg (v : UInt8) (ciaddr : Ip4Addr) (mac : EthAddr) (ts : List Tlv) : Datagram where
  p := clientMsg ciaddr mac (encodeOpts (msgTypeOpt v :: ts) ++ [OPT_END])
  netif := sampleNetif
  rp := some (zeros sampleConfig.msgSize)

/-- Its reply gets a buffer. -/
theorem sampleMsg_buf (v : UInt8) (ciaddr : Ip4Addr) (mac : EthAddr) (ts : List Tlv) :
    replyBuf sampleConfig (sampleMsg v ciaddr mac ts).rp = some (zeros sampleConfig.msgSize) :=
  replyBuf_of_le (Nat.le_of_eq (zeros_length _).symm)

/-- It comes from `mac`. -/
theorem sampleMsg_chaddr (v : UInt8) (ciaddr : Ip4Addr) (mac : EthAddr) (ts : List Tlv) :
    (sampleMsg v ciaddr mac ts).p.chaddr = some mac := clientMsg_chaddr ciaddr mac _

/-- A sample message covers the header. -/
theorem sampleMsg_len (v : UInt8) (ciaddr : Ip4Addr) (mac : EthAddr) (ts : List Tlv) :
    ofsOptions ≤ (sampleMsg v ciaddr mac ts).p.len := by
  have hlt := (clientMsg_hasOptions ciaddr mac (msgTypeOpt v :: ts)).lt_len
  show ofsOptions ≤ (clientMsg ciaddr mac _).len
  omega

/-- The client of a sample message that is dispatched. -/
theorem sampleMsg_client {v : UInt8} (hv : v = DHCPDISCOVER ∨ v = DHCPREQUEST) (ciaddr : Ip4Addr)
    (mac : EthAddr) (ts : List Tlv) : (sampleMsg v ciaddr mac ts).p.client = some mac := by
  have hopts := clientMsg_hasOptions ciaddr mac (msgTypeOpt v :: ts)
  have hm := sampleMsg_chaddr v ciaddr mac ts
  rcases hv with rfl | rfl
  · exact client_eq hopts.handler_discover hm
  · exact client_eq hopts.handler_request hm

/-- A sample DISCOVER whose client has a slot is answered with its address. -/
theorem sampleServer_discover {order order' : List EthAddr} {mac : EthAddr} {addr : Ip4Addr}
    (ha : allocateAddr mac (sampleServer order).leases
      = some (addr, table (startPool sampleNetif) order')) :
    ∃ es msg, RecvStep sampleConfig (sampleServer order)
        (sampleMsg DHCPDISCOVER anyAddr mac [], es) (sampleServer order')
      ∧ sentMsgs es = [msg] ∧ HasType DHCPOFFER msg ∧ yiaddr msg = some addr := by
  have hopts := clientMsg_hasOptions anyAddr mac [msgTypeOpt DHCPDISCOVER]
  have hbuf := sampleMsg_buf DHCPDISCOVER anyAddr mac []
  have hsize := (replyBuf_eq_some hbuf).2
  obtain ⟨es, hstep, hsent⟩ := recv_offer (d := sampleMsg DHCPDISCOVER anyAddr mac [])
    hopts.handler_discover (sampleMsg_chaddr _ _ mac _) ha hbuf
  exact ⟨es, _, hstep, hsent, hasType_offerMsg hsize _ addr, (grants_offerMsg hsize _ addr).2⟩

/-- The sample server is started from boot. -/
theorem sampleServer_start :
    ServerStep sampleConfig bootServer (.start sampleNetif (some 1), []) (sampleServer []) := by
  rw [sampleServer_nil]
  exact .start fun _ _ pcb hpcb => absurd hpcb List.not_mem_nil

/-- Datagrams reach it. -/
theorem sampleServer_recv {order : List EthAddr} {d : Datagram} {es : List Event} {s' : Server}
    (h : RecvStep sampleConfig (sampleServer order) (d, es) s') :
    ServerStep sampleConfig (sampleServer order) (.recv d, es) s' :=
  .recv ⟨⟨1, true⟩, List.mem_singleton.mpr rfl, rfl⟩ h

/-- The slots of its first two clients. -/
theorem allocateAddr_macA : allocateAddr macA (sampleServer []).leases
    = some (#v[192, 168, 7, 11], table (startPool sampleNetif) [macA]) := by
  decide

/-- The second client gets the second address. -/
theorem allocateAddr_macB : allocateAddr macB (sampleServer [macA]).leases
    = some (#v[192, 168, 7, 12], table (startPool sampleNetif) [macA, macB]) := by
  decide

/-- The first client has asked. -/
theorem reachable_macA : Reachable sampleConfig (sampleServer [macA]) := by
  obtain ⟨es, _, hstep, _⟩ := sampleServer_discover allocateAddr_macA
  exact ⟨_, Run.cons sampleServer_start (Run.single (sampleServer_recv hstep))⟩

end PicoosLwip.Dhcps
