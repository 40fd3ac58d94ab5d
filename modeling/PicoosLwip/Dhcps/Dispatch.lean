/-
  PicoosLwip.Dhcps.Dispatch — which handler a well-formed datagram reaches.

  The options of a DHCP message come in any order, and the message type is the
  value of option 53 wherever that stands.  `dhcpRecv` takes the byte at a
  fixed offset for it, `req->options[2]`, while `handleRequest` itself walks
  the list.  The two agree when option 53 is the first option; otherwise they
  agree only if the byte that happens to stand there does (`dispatch_iff`).
-/
import PicoosLwip.Dhcps.Requests

namespace PicoosLwip.Dhcps

open PicoosLwip.Framework

/-! ## §1. The message type of an option list. -/

/-- The list has an option 53 with value `v`. -/
def HasMsgType (v : UInt8) (ts : List Tlv) : Prop :=
  ∃ t ∈ ts, t.code = OPT_MSGTYPE ∧ t.data = [v]

/-- The list has at most one option 53, and that has length 1. -/
structure OneMsgType (ts : List Tlv) : Prop where
  length_one : ∀ t ∈ ts, t.code = OPT_MSGTYPE → t.data.length = 1
  count_le : (ts.filter fun t => t.code = OPT_MSGTYPE).length ≤ 1

/-- What stands at `req->options[2]`: the first data byte of the first option,
behind an option without data the code of the next one (or END), and behind an
empty list whatever memory holds there. -/
def byteAtType (p : Pbuf) : List Tlv → Option UInt8
  | [] => p.typeByte
  | t :: ts =>
      match t.data with
      | b :: _ => some b
      | [] =>
          match ts with
          | [] => some OPT_END
          | u :: _ => some u.code

/-- The byte at the fixed offset is 1 or 3 exactly when option 53 says so. -/
def FixedByteAgrees (p : Pbuf) (ts : List Tlv) : Prop :=
  (byteAtType p ts = some DHCPDISCOVER ↔ HasMsgType DHCPDISCOVER ts)
    ∧ (byteAtType p ts = some DHCPREQUEST ↔ HasMsgType DHCPREQUEST ts)

/-- A list has one message type. -/
theorem OneMsgType.unique {ts : List Tlv} {v w : UInt8} (h : OneMsgType ts)
    (hv : HasMsgType v ts) (hw : HasMsgType w ts) : v = w := by
  obtain ⟨t, ht, htc, htd⟩ := hv
  obtain ⟨u, hu, huc, hud⟩ := hw
  have ht' : t ∈ ts.filter fun t => t.code = OPT_MSGTYPE := List.mem_filter.mpr ⟨ht, by simp [htc]⟩
  have hu' : u ∈ ts.filter fun t => t.code = OPT_MSGTYPE := List.mem_filter.mpr ⟨hu, by simp [huc]⟩
  -- both options are the one that the filter keeps
  obtain ⟨x, hx⟩ := List.length_eq_one_iff.mp
    (Nat.le_antisymm h.count_le (List.length_pos_of_mem ht'))
  rw [hx, List.mem_singleton] at ht' hu'
  rw [ht', ← hu', hud] at htd
  exact (List.cons.inj htd).1.symm

/-- Option 53 in front makes the two agree. -/
theorem FixedByteAgrees.of_first {p : Pbuf} {v : UInt8} {ts : List Tlv}
    (h : OneMsgType (msgTypeOpt v :: ts)) : FixedByteAgrees p (msgTypeOpt v :: ts) := by
  have hfirst : HasMsgType v (msgTypeOpt v :: ts) :=
    ⟨msgTypeOpt v, List.mem_cons_self .., rfl, rfl⟩
  have hagree : ∀ w, byteAtType p (msgTypeOpt v :: ts) = some w
      ↔ HasMsgType w (msgTypeOpt v :: ts) := by
    intro w
    show some v = some w ↔ _
    rw [Option.some_inj]
    constructor
    · rintro rfl
      exact hfirst
    · exact h.unique hfirst
  exact ⟨hagree _, hagree _⟩

/-! ## §2. What the server looks at. -/

/-- The fixed byte of a well-formed options field. -/
theorem Pbuf.HasOptions.typeByte_eq {p : Pbuf} {ts : List Tlv} (h : p.HasOptions ts) :
    p.typeByte = byteAtType p ts := by
  obtain ⟨rest, hrest⟩ := h.mem_drop
  have hget := congrArg (fun bs => bs[2]?) hrest
  rw [List.getElem?_drop] at hget
  cases ts with
  | nil => rfl
  | cons t ts =>
      show p.mem[ofsOptions + 2]? = _
      rw [hget]
      unfold byteAtType
      cases hdata : t.data with
      | cons b bs => simp [Tlv.bytes, hdata]
      | nil =>
          cases ts with
          | nil => simp [Tlv.bytes, hdata]
          | cons u us => simp [Tlv.bytes, hdata]

/-- The scan enters no handler. -/
theorem run_not_mem_scan {p : Pbuf} {s s' : Server} {es : List Event}
    {r : Except Fault Ip4Addr} (hs : p.scan s = ⟨es, s', r⟩) (h : Handler) :
    Event.run h ∉ es := by
  intro hin
  obtain ⟨k, n, heq⟩ := scan_reads hs _ hin
  exact absurd heq (by simp)

/-- **A call enters the handler its type byte picks**, and no other. -/
theorem run_mem_iff (cfg : Config) (d : Datagram) (s : Server) (h : Handler) :
    Event.run h ∈ (dhcpRecv cfg d s).events ↔ d.p.handler = some h := by
  have hcase := dhcpRecv_cases cfg d s
  generalize dhcpRecv cfg d s = o at hcase
  cases hcase with
  | noType ht => simp [Pbuf.handler, ht]
  | ignored t ht hh => simp [hh]
  | noChaddr h' hh hm => simp [enterEvents, hh, eq_comm]
  | exhausted h' m hh hm ha => simp [enterEvents, hh, eq_comm]
  | noReply h' m addr leases hh hm ha hb =>
      cases d.rp <;> simp [enterEvents, noReplyEvents, hh, eq_comm]
  | offer m addr leases b hh hm ha hb => simp [enterEvents, newRespEvents, hh, eq_comm]
  | scanFault m addr leases b es e hh hm ha hb hscan =>
      simp [enterEvents, newRespEvents, hh, run_not_mem_scan hscan, eq_comm]
  | ack m addr leases b mac es hh hm ha hb hscan hmac =>
      simp [enterEvents, newRespEvents, hh, run_not_mem_scan hscan, eq_comm]
  | nak m addr reqAddr leases b es hh hm ha hb hscan hne =>
      simp [enterEvents, newRespEvents, hh, run_not_mem_scan hscan, eq_comm]

/-- Without a handler a datagram changes nothing and is not answered. -/
theorem recv_ignored (cfg : Config) (d : Datagram) (s : Server) (hh : d.p.handler = none) :
    (dhcpRecv cfg d s).state = s ∧ sentMsgs (dhcpRecv cfg d s).events = [] := by
  have hcase := dhcpRecv_cases cfg d s
  generalize dhcpRecv cfg d s = o at hcase
  cases hcase <;> simp_all

/-! ## §3. Dispatch. -/

/-- The call reacts to the option list `ts` as its option 53 demands. -/
structure DispatchesOn (cfg : Config) (d : Datagram) (s : Server) (ts : List Tlv) : Prop where
  discover : Event.run .discover ∈ (dhcpRecv cfg d s).events ↔ HasMsgType DHCPDISCOVER ts
  request : Event.run .request ∈ (dhcpRecv cfg d s).events ↔ HasMsgType DHCPREQUEST ts
  other : ¬ HasMsgType DHCPDISCOVER ts → ¬ HasMsgType DHCPREQUEST ts →
    sentMsgs (dhcpRecv cfg d s).events = [] ∧ (dhcpRecv cfg d s).state.leases = s.leases
      ∧ (dhcpRecv cfg d s).state.arp = s.arp

/-- **Dispatch goes by the list exactly when the fixed byte does.** -/
theorem dispatch_iff {cfg : Config} {d : Datagram} {s : Server} {ts : List Tlv}
    (hopts : d.p.HasOptions ts) : DispatchesOn cfg d s ts ↔ FixedByteAgrees d.p ts := by
  have hbyte := hopts.typeByte_eq
  have hdisc : Event.run .discover ∈ (dhcpRecv cfg d s).events
      ↔ byteAtType d.p ts = some DHCPDISCOVER := by
    rw [run_mem_iff, Pbuf.handler_eq_discover, hbyte]
  have hreq : Event.run .request ∈ (dhcpRecv cfg d s).events
      ↔ byteAtType d.p ts = some DHCPREQUEST := by
    rw [run_mem_iff, Pbuf.handler_eq_request, hbyte]
  constructor
  · intro h
    exact ⟨hdisc.symm.trans h.discover, hreq.symm.trans h.request⟩
  · intro h
    refine ⟨hdisc.trans h.1, hreq.trans h.2, ?_⟩
    intro hnoDisc hnoReq
    -- the fixed byte picks no handler either
    have hnone : d.p.handler = none := by
      cases hh : d.p.handler with
      | none => rfl
      | some hd =>
          cases hd with
          | discover =>
              rw [Pbuf.handler_eq_discover, hbyte] at hh
              exact absurd (h.1.mp hh) hnoDisc
          | request =>
              rw [Pbuf.handler_eq_request, hbyte] at hh
              exact absurd (h.2.mp hh) hnoReq
    obtain ⟨hstate, hsent⟩ := recv_ignored cfg d s hnone
    exact ⟨hsent, by rw [hstate], by rw [hstate]⟩

/-- A DISCOVER whose first option is 53. -/
theorem dispatch_iff_first :
    DispatchesOn sampleConfig (sampleMsg DHCPDISCOVER anyAddr macA []) (sampleServer [])
      [msgTypeOpt DHCPDISCOVER] := by
  refine (dispatch_iff (clientMsg_hasOptions anyAddr macA [msgTypeOpt DHCPDISCOVER])).mpr ?_
  apply FixedByteAgrees.of_first
  exact ⟨by simp [msgTypeOpt], by simp [msgTypeOpt]⟩

/-- A host name in front of option 53. -/
def hostNameOpt : Tlv where
  code := 12
  data := [97]
  code_ne_end := by decide
  data_le := by simp

/-- A DISCOVER whose first option is the host name is ignored. -/
theorem discover_behind_host_name_ignored :
    (clientMsg anyAddr macA (encodeOpts [hostNameOpt, msgTypeOpt DHCPDISCOVER]
        ++ [OPT_END])).HasOptions [hostNameOpt, msgTypeOpt DHCPDISCOVER]
      ∧ OneMsgType [hostNameOpt, msgTypeOpt DHCPDISCOVER]
      ∧ HasMsgType DHCPDISCOVER [hostNameOpt, msgTypeOpt DHCPDISCOVER]
      ∧ Event.run .discover ∉ (dhcpRecv sampleConfig
          ⟨clientMsg anyAddr macA (encodeOpts [hostNameOpt, msgTypeOpt DHCPDISCOVER] ++ [OPT_END]),
            sampleNetif, some (zeros sampleConfig.msgSize)⟩ (sampleServer [])).events := by
  have hopts := clientMsg_hasOptions anyAddr macA [hostNameOpt, msgTypeOpt DHCPDISCOVER]
  refine ⟨hopts, ⟨?_, ?_⟩, ⟨msgTypeOpt DHCPDISCOVER, by simp, rfl, rfl⟩, ?_⟩
  · simp [hostNameOpt, msgTypeOpt]
  · decide
  · rw [run_mem_iff, Pbuf.handler_eq_discover, hopts.typeByte_eq]
    decide

end PicoosLwip.Dhcps
