/-
  PicoosLwip.Dhcps.LostSlots — slots claimed for requests that are not granted.

  Both handlers call `allocateAddr` first, and that claims a free slot for an
  unknown client on the spot.  Nothing gives it back: not the missing reply
  buffer, and not the NAK.  A slot is never released either, so it stays with a
  client that was promised nothing.

  Main results:
    * `ungranted_iff`     — the calls that leave the table alone when they grant
                            nothing: all but those of a new client;
    * `nak_keeps_slot`    — a NAK that costs a slot.
-/
import PicoosLwip.Dhcps.Requests

namespace PicoosLwip.Dhcps

open PicoosLwip.Framework

/-! ## §1. New clients. -/

/-- A client that no slot knows, and the free slot it would get. -/
structure NewClient (m : EthAddr) (leases : List Lease) (slot : Lease) : Prop where
  nonzero : m ≠ freeMac
  unknown : ∀ l ∈ leases, l.mac ≠ m
  free : leases.find? (fun l => l.mac = freeMac) = some slot

/-- A claim takes the first free slot. -/
theorem claimLease_find (m : EthAddr) {leases : List Lease} {slot : Lease}
    (h : leases.find? (fun l => l.mac = freeMac) = some slot) :
    ∃ leases', claimLease m leases = some (slot.ip, leases')
      ∧ (m ≠ freeMac → leases' ≠ leases) := by
  induction leases with
  | nil => exact absurd h (by simp)
  | cons l leases ih =>
      by_cases hfree : l.mac = freeMac
      · rw [List.find?_cons_of_pos (by simpa using hfree)] at h
        obtain rfl := Option.some.inj h
        refine ⟨{ l with mac := m } :: leases, ?_, ?_⟩
        · rw [claimLease, if_pos hfree]
        · -- the slot has changed its mark
          intro hm heq
          have hmac : m = l.mac := congrArg Lease.mac (List.cons.inj heq).1
          exact hm (hmac.trans hfree)
      · rw [List.find?_cons_of_neg (by simpa using hfree)] at h
        obtain ⟨leases', hclaim, hne⟩ := ih h
        refine ⟨l :: leases', ?_, ?_⟩
        · rw [claimLease, if_neg hfree, hclaim]
          rfl
        · intro hm heq
          exact hne hm (List.cons.inj heq).2

/-- **`allocateAddr` changes the table for new clients.** -/
theorem NewClient.allocateAddr {m : EthAddr} {leases : List Lease} {slot : Lease}
    (h : NewClient m leases slot) :
    ∃ leases', Dhcps.allocateAddr m leases = some (slot.ip, leases') ∧ leases' ≠ leases := by
  obtain ⟨leases', hclaim, hne⟩ := claimLease_find m h.free
  refine ⟨leases', ?_, hne h.nonzero⟩
  unfold Dhcps.allocateAddr
  rw [findLease_eq_none.mpr h.unknown]
  exact hclaim

/-- **It changes the table for nobody else.** -/
theorem newClient_of_changed {m : EthAddr} {addr : Ip4Addr} {leases leases' : List Lease}
    (h : allocateAddr m leases = some (addr, leases')) (hne : leases' ≠ leases) :
    ∃ slot, NewClient m leases slot ∧ slot.ip = addr := by
  unfold allocateAddr at h
  split at h
  next ip hfind =>
    -- a known client leaves it alone
    exact absurd (Prod.mk.inj (Option.some.inj h)).2.symm hne
  next hnone =>
    have hunknown := findLease_eq_none.mp hnone
    cases hfind : leases.find? (fun l => l.mac = freeMac) with
    | none =>
        have hfull : ∀ l ∈ leases, l.mac ≠ freeMac := by simpa using hfind
        rw [claimLease_eq_none.mpr hfull] at h
        exact absurd h (by simp)
    | some slot =>
        obtain ⟨leases'', hclaim, -⟩ := claimLease_find m hfind
        rw [hclaim] at h
        have hip := (Prod.mk.inj (Option.some.inj h)).1
        refine ⟨slot, ⟨?_, hunknown, hfind⟩, hip⟩
        -- the free mark itself is known wherever a slot is free
        rintro rfl
        have hmark := List.find?_some hfind
        exact hunknown slot (List.mem_of_find?_eq_some hfind) (of_decide_eq_true hmark)

/-! ## §2. Calls that grant nothing. -/

/-- If the call returns and has sent neither an OFFER nor an ACK, the lease
table is as before. -/
def UngrantedKeepsTable (cfg : Config) (d : Datagram) (s : Server) : Prop :=
  (dhcpRecv cfg d s).result = .ok () →
    (∀ msg ∈ sentMsgs (dhcpRecv cfg d s).events, ¬ HasType DHCPOFFER msg ∧ ¬ HasType DHCPACK msg) →
    (dhcpRecv cfg d s).state.leases = s.leases

/-- The request is a REQUEST for another address than `addr`, with closed options. -/
def AsksElsewhere (p : Pbuf) (addr : Ip4Addr) : Prop :=
  p.handler = some .request ∧ ∃ ts rest, p.mem.drop ofsOptions = encodeOpts ts ++ OPT_END :: rest
    ∧ (lastReqAddr ts).getD anyAddr ≠ addr

/-- The call costs a slot: a new client, and no reply buffer of full size or a
REQUEST for another address than that of the slot. -/
def CostsSlot (cfg : Config) (d : Datagram) (s : Server) : Prop :=
  ∃ m slot, d.p.chaddr = some m ∧ NewClient m s.leases slot
    ∧ ((∀ b, d.rp = some b → b.length < cfg.msgSize) ∨ AsksElsewhere d.p slot.ip)

section Calls

variable {cfg : Config} {d : Datagram} {s : Server}

/-- A reply buffer of full size is what `newResp` needs. -/
theorem replyBuf_eq_none {rp : Option (List UInt8)} :
    replyBuf cfg rp = none ↔ ∀ b, rp = some b → b.length < cfg.msgSize := by
  cases rp with
  | none => simp [replyBuf]
  | some b => simp [replyBuf]

/-- A NAK is no OFFER and no ACK. -/
theorem nakMsg_ungranted {b : List UInt8} (hb : cfg.msgSize ≤ b.length) (netif : Netif) :
    ¬ HasType DHCPOFFER (nakMsg cfg d.p netif b) ∧ ¬ HasType DHCPACK (nakMsg cfg d.p netif b) := by
  have hnak := hasType_nakMsg (p := d.p) hb netif
  constructor
  · intro hoffer
    exact absurd (hoffer.unique hnak) (by decide)
  · intro hack
    exact absurd (hack.unique hnak) (by decide)

/-- **A call that costs a slot** returns without a grant, and with the slot gone. -/
theorem CostsSlot.lost {h : Handler} (hh : d.p.handler = some h) (hcosts : CostsSlot cfg d s) :
    ¬ UngrantedKeepsTable cfg d s := by
  obtain ⟨m, slot, hm, hnew, hwhy⟩ := hcosts
  obtain ⟨leases, ha, hne⟩ := hnew.allocateAddr
  -- the table after the call, answered or not
  have hleases : (dhcpRecv cfg d s).state.leases = leases := by
    rw [recv_leases, client_eq hh hm]
    exact claim_of_some ha
  intro hkeeps
  cases hb : replyBuf cfg d.rp with
  | none =>
      have hrun : dhcpRecv cfg d s = _ := dhcpRecv_of_handler hh s
      rw [handle_noReply h hm ha hb] at hrun
      refine hne (hleases.symm.trans (hkeeps ?_ ?_))
      · rw [hrun]
        rfl
      · rw [hrun]
        simp
  | some b =>
      obtain ⟨hrp, hsize⟩ := replyBuf_eq_some hb
      rcases hwhy with hsmall | ⟨hreq, ts, rest, hts, hother⟩
      · exact absurd (hsmall b hrp) (by omega)
      · have hscan := scan_closed hts { s with leases := leases }
        obtain ⟨es, hstep, hsent⟩ := recv_nak hreq hm ha hb hscan hother
        have hrun : dhcpRecv cfg d s = _ := hstep
        refine hne (hleases.symm.trans (hkeeps (by rw [hrun]) ?_))
        intro msg hmsg
        rw [hrun, hsent, List.mem_singleton] at hmsg
        rw [hmsg]
        exact nakMsg_ungranted hsize d.netif

/-- **Exactly the calls of a new client cost a slot** when they grant nothing. -/
theorem ungranted_iff {h : Handler} (hh : d.p.handler = some h) :
    UngrantedKeepsTable cfg d s ↔ ¬ CostsSlot cfg d s := by
  constructor
  · exact fun hkeeps hcosts => hcosts.lost hh hkeeps
  · intro hnot hret hsent
    -- a changed table means a new client, whose call then has a reason to fail
    have hsame : ∀ {m : EthAddr} {addr : Ip4Addr} {leases : List Lease}, d.p.chaddr = some m →
        allocateAddr m s.leases = some (addr, leases) →
        ((∀ b, d.rp = some b → b.length < cfg.msgSize) ∨ AsksElsewhere d.p addr) →
        leases = s.leases := by
      intro m addr leases hm ha hwhy
      by_contra hne
      obtain ⟨slot, hnew, rfl⟩ := newClient_of_changed ha hne
      exact hnot ⟨m, slot, hm, hnew, hwhy⟩
    have hcase := dhcpRecv_cases cfg d s
    generalize dhcpRecv cfg d s = o at hcase hret hsent
    cases hcase with
    | noType ht => rfl
    | ignored t ht hh' => rfl
    | noChaddr h' hh' hm => rfl
    | exhausted h' m hh' hm ha => rfl
    | noReply h' m addr leases hh' hm ha hb => exact hsame hm ha (.inl (replyBuf_eq_none.mp hb))
    | offer m addr leases b hh' hm ha hb =>
        have hoffer := hasType_offerMsg (p := d.p) (replyBuf_eq_some hb).2 d.netif addr
        exact absurd hoffer (hsent _ (by simp)).1
    | scanFault m addr leases b es e hh' hm ha hb hscan => exact absurd hret (by simp)
    | ack m addr leases b mac es hh' hm ha hb hscan hmac =>
        have hack := hasType_ackMsg (p := d.p) (replyBuf_eq_some hb).2 d.netif addr
        exact absurd hack (hsent _ (by simp)).2
    | nak m addr reqAddr leases b es hh' hm ha hb hscan hne =>
        refine hsame hm ha (.inr ⟨hh', ?_⟩)
        obtain ⟨ts, rest, hts, haddr⟩ := closed_of_scan (congrArg Outcome.result hscan)
        exact ⟨ts, rest, hts, by rw [haddr]; exact hne⟩

end Calls

/-! ## §3. Two sample requests. -/

/-- A REQUEST for an address that no slot has. -/
def strayRequest (mac : EthAddr) : Datagram :=
  sampleMsg DHCPREQUEST anyAddr mac [reqIpOpt #v[192, 168, 7, 99]]

/-- It is dispatched as a REQUEST. -/
theorem strayRequest_handler (mac : EthAddr) : (strayRequest mac).p.handler = some .request :=
  (clientMsg_hasOptions anyAddr mac
    [msgTypeOpt DHCPREQUEST, reqIpOpt #v[192, 168, 7, 99]]).handler_request

/-- It asks for an address outside the pool. -/
theorem strayRequest_options (mac : EthAddr) :
    ∃ ts rest, (strayRequest mac).p.mem.drop ofsOptions = encodeOpts ts ++ OPT_END :: rest
      ∧ (lastReqAddr ts).getD anyAddr = #v[192, 168, 7, 99] := by
  obtain ⟨rest, hrest⟩ := (clientMsg_hasOptions anyAddr mac
    [msgTypeOpt DHCPREQUEST, reqIpOpt #v[192, 168, 7, 99]]).mem_drop
  refine ⟨_, rest, hrest, ?_⟩
  rw [lastReqAddr_msgType, lastReqAddr_reqIp]
  rfl

/-- From a client with a slot it changes nothing. -/
theorem ungranted_iff_known : (strayRequest macA).p.handler = some .request
    ∧ UngrantedKeepsTable sampleConfig (strayRequest macA) (sampleServer [macA]) := by
  refine ⟨strayRequest_handler macA, (ungranted_iff (strayRequest_handler macA)).mpr ?_⟩
  rintro ⟨m, slot, hm, hnew, -⟩
  obtain rfl : macA = m := Option.some.inj ((sampleMsg_chaddr _ _ macA _).symm.trans hm)
  exact hnew.unknown ⟨macA, #v[192, 168, 7, 11]⟩ (by decide) rfl

/-- From a new client it is refused with a NAK and takes a slot. -/
theorem nak_keeps_slot :
    ∃ es s', RecvStep sampleConfig (sampleServer []) (strayRequest macA, es) s'
      ∧ (∃ msg, sentMsgs es = [msg] ∧ HasType DHCPNAK msg)
      ∧ s'.leases = (sampleServer [macA]).leases
      ∧ ¬ UngrantedKeepsTable sampleConfig (strayRequest macA) (sampleServer []) := by
  have hm := sampleMsg_chaddr DHCPREQUEST anyAddr macA [reqIpOpt #v[192, 168, 7, 99]]
  have hbuf := sampleMsg_buf DHCPREQUEST anyAddr macA [reqIpOpt #v[192, 168, 7, 99]]
  obtain ⟨ts, rest, hts, haddr⟩ := strayRequest_options macA
  have hscan := scan_closed hts (sampleServer [macA])
  rw [haddr] at hscan
  obtain ⟨es, hstep, hsent⟩ := recv_nak (strayRequest_handler macA) hm allocateAddr_macA hbuf hscan
    (by decide)
  refine ⟨es, _, hstep, ⟨_, hsent, hasType_nakMsg (replyBuf_eq_some hbuf).2 _⟩, rfl, ?_⟩
  apply CostsSlot.lost (strayRequest_handler macA)
  exact ⟨macA, _, hm, ⟨by decide, by decide, rfl⟩,
    .inr ⟨strayRequest_handler macA, ts, rest, hts, by rw [haddr]; decide⟩⟩

end PicoosLwip.Dhcps
