/-
  PicoosLwip.Dhcps.Disclosure — what a reply discloses of the reply buffer.

  `pbuf_alloc` does not clear the buffer it gives.  `newResp` overwrites it
  with the first `p->len` bytes of the request, clears the options field and
  sets `op` and the cookie; so the bytes of the header behind `p->len` go out
  as they were.  `discloses_nothing_iff` is exact: the messages are the same
  for all buffer contents when the request covers the header in front of the
  cookie, and otherwise only when nothing is sent at all.
-/
import PicoosLwip.Dhcps.Requests

namespace PicoosLwip.Dhcps

open PicoosLwip.Framework

section Handlers

variable {cfg : Config} {p : Pbuf} {netif : Netif} {s : Server} {h : Handler} {m : EthAddr}
  {addr reqAddr : Ip4Addr} {leases : List Lease} {b b₁ b₂ : List UInt8} {es : List Event}

/-! ## §1. What a handler sends. -/

/-- The reply to a REQUEST whose scan found `reqAddr`. -/
def requestReply (cfg : Config) (p : Pbuf) (netif : Netif) (b : List UInt8)
    (addr reqAddr : Ip4Addr) : List UInt8 :=
  if reqAddr = addr then ackMsg cfg p netif b addr else nakMsg cfg p netif b

/-- A DISCOVER that finds an address and a buffer sends the OFFER. -/
theorem sent_handle_discover (hm : p.chaddr = some m)
    (ha : allocateAddr m s.leases = some (addr, leases)) (hb : cfg.msgSize ≤ b.length) :
    sentMsgs (handle cfg ⟨p, netif, some b⟩ .discover s).events
      = [offerMsg cfg p netif b addr] := by
  rw [handle_discover hm ha (replyBuf_of_le hb)]
  simp

/-- A REQUEST that finds them, and whose options can be scanned, sends one reply. -/
theorem sent_handle_request (hm : p.chaddr = some m)
    (ha : allocateAddr m s.leases = some (addr, leases)) (hb : cfg.msgSize ≤ b.length)
    (hscan : p.scan { s with leases := leases }
      = ⟨es, { s with leases := leases }, .ok reqAddr⟩) :
    sentMsgs (handle cfg ⟨p, netif, some b⟩ .request s).events
      = [requestReply cfg p netif b addr reqAddr] := by
  rw [handle_request hm ha (replyBuf_of_le hb), hscan, Outcome.andThen_ok]
  unfold requestReply
  by_cases heq : reqAddr = addr
  · subst heq
    obtain ⟨mac, hmac⟩ := ackMsg_chaddr (p := p) hb netif reqAddr
    rw [if_pos rfl, if_pos rfl, sendAck_apply hb netif reqAddr hmac]
    simp [sentMsgs_scan hscan]
  · rw [if_neg heq, if_neg heq, sendNak_apply hb]
    simp [sentMsgs_scan hscan]

/-- The handler sends something, given a buffer: the client has a slot and, in
a REQUEST, the scan finds an END in memory. -/
def Replies (p : Pbuf) (s : Server) (h : Handler) : Prop :=
  (∃ m, p.chaddr = some m ∧ SlotFor m s.leases)
    ∧ (h = .request → Closed (p.mem.drop ofsOptions))

/-- A scan fails where memory holds no closed option list. -/
theorem scan_error (hopen : ¬ Closed (p.mem.drop ofsOptions)) (s : Server) :
    ∃ es e, p.scan s = ⟨es, s, .error e⟩ := by
  have hframe := scan_state p s
  have hok := closed_of_scan_ok p s (scanFuel p) ofsOptions anyAddr
  rcases hscan : p.scan s with ⟨es, s', r⟩
  rw [hscan] at hframe
  obtain rfl : s' = s := hframe
  cases r with
  | error e => exact ⟨es, e, rfl⟩
  | ok a =>
      have hres : (p.scan s').result = .ok a := by rw [hscan]
      exact absurd (hok a hres) hopen

/-- Otherwise nothing is sent. -/
theorem sent_handle_nil (hno : ¬ Replies p s h) (rp : Option (List UInt8)) :
    sentMsgs (handle cfg ⟨p, netif, rp⟩ h s).events = [] := by
  cases hm : p.chaddr with
  | none =>
      rw [handle_noChaddr h hm]
      rfl
  | some m =>
      cases ha : allocateAddr m s.leases with
      | none =>
          rw [handle_exhausted h hm ha]
          rfl
      | some r =>
          obtain ⟨addr, leases⟩ := r
          have hslot : SlotFor m s.leases := allocateAddr_isSome_iff.mp ⟨addr, leases, ha⟩
          cases hb : replyBuf cfg rp with
          | none =>
              rw [handle_noReply h hm ha hb]
              simp
          | some b =>
              cases h with
              | discover =>
                  -- an OFFER needs no more than a slot
                  exact absurd ⟨⟨m, hm, hslot⟩, fun hd => absurd hd (by simp)⟩ hno
              | request =>
                  have hopen : ¬ Closed (p.mem.drop ofsOptions) :=
                    fun hc => hno ⟨⟨m, hm, hslot⟩, fun _ => hc⟩
                  obtain ⟨es, e, hscan⟩ := scan_error hopen { s with leases := leases }
                  rw [handle_request hm ha hb, hscan]
                  simp [sentMsgs_scan hscan]

/-! ## §2. The bytes of the buffer in the message. -/

/-- A request that covers the header leaves nothing of the buffer. -/
theorem respBytes_congr (hlen : ofsCookie ≤ p.len) (h₁ : b₁.length = cfg.msgSize)
    (h₂ : b₂.length = cfg.msgSize) : respBytes cfg p b₁ = respBytes cfg p b₂ := by
  have hofs := ofs_values
  apply List.ext_getElem?
  intro i
  rw [getElem?_respBytes (Nat.le_of_eq h₁.symm), getElem?_respBytes (Nat.le_of_eq h₂.symm), h₁, h₂]
  by_cases hi : i < cfg.msgSize
  · -- every byte is in the header, the cookie or the options
    have hsize : cfg.msgSize = ofsOptions + cfg.optionsLen := rfl
    split
    · rfl
    split
    · rfl
    split
    · rfl
    rw [if_pos (by omega), if_pos (by omega)]
  · have hnone : ∀ b : List UInt8, b.length = cfg.msgSize → b[i]? = none := fun b hb =>
      List.getElem?_eq_none (by omega)
    rw [hnone b₁ h₁, hnone b₂ h₂]

/-- The last byte in front of the cookie is written from the request or not at
all. -/
theorem getElem?_respBytes_last (h : cfg.msgSize ≤ b.length) (hlen : p.len < ofsCookie) :
    (respBytes cfg p b)[ofsCookie - 1]? = b[ofsCookie - 1]? := by
  have hofs := ofs_values
  rw [getElem?_respBytes h, if_neg (by omega), if_neg (by omega), if_neg (by omega),
      if_neg (by omega)]

/-- `yiaddr` and the options are written elsewhere. -/
theorem getElem?_grantMsg_last (h : cfg.msgSize ≤ b.length) (addr : Ip4Addr) {opts : List UInt8}
    (ho : opts.length ≤ 68) :
    (grantMsg cfg p b addr opts)[ofsCookie - 1]? = (respBytes cfg p b)[ofsCookie - 1]? := by
  have hofs := ofs_values
  unfold grantMsg
  rw [getElem?_poke_outside (opts_fit h addr opts ho) (by omega),
      getElem?_poke_outside (yiaddr_fits h addr) (by rw [Vector.length_toList]; omega)]

/-- ACK and NAK leave the last byte in front of the cookie as it was. -/
theorem getElem?_requestReply_last (h : cfg.msgSize ≤ b.length) :
    (requestReply cfg p netif b addr reqAddr)[ofsCookie - 1]?
      = (respBytes cfg p b)[ofsCookie - 1]? := by
  have hofs := ofs_values
  unfold requestReply
  split
  · exact getElem?_grantMsg_last h addr (by simp [ackBytes_length])
  · have hroom := respBytes_room (p := p) h (n := (nakBytes netif).length)
      (by simp [nakBytes_length])
    exact getElem?_poke_outside hroom (by omega)

/-- **A short request exposes a byte of the buffer.** -/
theorem sent_exposes (hb : cfg.msgSize ≤ b.length) (hreplies : Replies p s h)
    (hlen : p.len < ofsCookie) :
    ∃ msg, sentMsgs (handle cfg ⟨p, netif, some b⟩ h s).events = [msg]
      ∧ msg[ofsCookie - 1]? = b[ofsCookie - 1]? := by
  obtain ⟨⟨m, hm, hslot⟩, hclosed⟩ := hreplies
  obtain ⟨addr, leases, ha⟩ := allocateAddr_isSome_iff.mpr hslot
  cases h with
  | discover =>
      refine ⟨_, sent_handle_discover hm ha hb, ?_⟩
      rw [offerMsg, getElem?_grantMsg_last hb addr (by simp [offerBytes_length]),
          getElem?_respBytes_last hb hlen]
  | request =>
      obtain ⟨ts, rest, hts⟩ := hclosed rfl
      have hscan := scan_closed hts { s with leases := leases }
      refine ⟨_, sent_handle_request hm ha hb hscan, ?_⟩
      rw [getElem?_requestReply_last hb, getElem?_respBytes_last hb hlen]

/-! ## §3. Disclosure. -/

/-- What the handler sends does not depend on what the buffer held; `pbuf_alloc`
gives at most the length it is asked for. -/
def DisclosesNothing (cfg : Config) (p : Pbuf) (netif : Netif) (s : Server) (h : Handler) :
    Prop :=
  ∀ b₁ b₂ : List UInt8, b₁.length = b₂.length → b₁.length ≤ cfg.msgSize →
    sentMsgs (handle cfg ⟨p, netif, some b₁⟩ h s).events
      = sentMsgs (handle cfg ⟨p, netif, some b₂⟩ h s).events

/-- A request that covers the header discloses nothing. -/
theorem disclosesNothing_of_le (hlen : ofsCookie ≤ p.len) :
    DisclosesNothing cfg p netif s h := by
  intro b₁ b₂ hlen₁ hle
  by_cases hreplies : Replies p s h
  · obtain ⟨⟨m, hm, hslot⟩, hclosed⟩ := hreplies
    obtain ⟨addr, leases, ha⟩ := allocateAddr_isSome_iff.mpr hslot
    by_cases hfull : b₁.length = cfg.msgSize
    · have hfull₂ : b₂.length = cfg.msgSize := by omega
      have hb₁ := Nat.le_of_eq hfull.symm
      have hb₂ := Nat.le_of_eq hfull₂.symm
      -- the copy covers the header, and memset the options: nothing of the buffer is left
      have hresp := respBytes_congr hlen hfull hfull₂
      cases h with
      | discover =>
          rw [sent_handle_discover hm ha hb₁, sent_handle_discover hm ha hb₂]
          simp only [offerMsg, grantMsg, hresp]
      | request =>
          obtain ⟨ts, rest, hts⟩ := hclosed rfl
          have hscan := scan_closed hts { s with leases := leases }
          rw [sent_handle_request hm ha hb₁ hscan, sent_handle_request hm ha hb₂ hscan]
          simp only [requestReply, ackMsg, nakMsg, grantMsg, hresp]
    · -- "pbuf too small": nothing is sent
      have hnone : ∀ b : List UInt8, b.length < cfg.msgSize → replyBuf cfg (some b) = none := by
        intro b hb
        simp [replyBuf]
        omega
      rw [handle_noReply h hm ha (hnone b₁ (by omega)),
          handle_noReply h hm ha (hnone b₂ (by omega))]
      simp
  · -- no reply at all
    rw [sent_handle_nil hreplies, sent_handle_nil hreplies]

/-- A shorter one that is answered discloses something: the replies in a buffer
of zeros and in one of ones differ. -/
theorem not_disclosesNothing (hreplies : Replies p s h) (hlen : p.len < ofsCookie) :
    ¬ DisclosesNothing cfg p netif s h := by
  have hofs := ofs_values
  have hin : ofsCookie - 1 < cfg.msgSize := by
    unfold Config.msgSize
    omega
  -- a buffer full of `v` sends `v` right in front of the cookie
  have hexposes : ∀ v : UInt8, ∃ msg,
      sentMsgs (handle cfg ⟨p, netif, some (List.replicate cfg.msgSize v)⟩ h s).events = [msg]
        ∧ msg[ofsCookie - 1]? = some v := by
    intro v
    have hfull : cfg.msgSize ≤ (List.replicate cfg.msgSize v).length := by simp
    obtain ⟨msg, hsent, hmsg⟩ := sent_exposes hfull hreplies hlen
    rw [List.getElem?_replicate, if_pos hin] at hmsg
    exact ⟨msg, hsent, hmsg⟩
  intro hsame
  obtain ⟨msg₁, hsent₁, hmsg₁⟩ := hexposes 0
  obtain ⟨msg₂, hsent₂, hmsg₂⟩ := hexposes 1
  have heq := hsame (List.replicate cfg.msgSize 0) (List.replicate cfg.msgSize 1)
    (by simp) (by simp)
  rw [hsent₁, hsent₂] at heq
  rw [(List.cons.inj heq).1, hmsg₂] at hmsg₁
  exact absurd hmsg₁ (by decide)

end Handlers

/-- **A reply discloses nothing exactly when the request covers the header**, or
nothing is sent anyway. -/
theorem discloses_nothing_iff (cfg : Config) (p : Pbuf) (netif : Netif) (s : Server)
    (h : Handler) :
    DisclosesNothing cfg p netif s h ↔ ofsCookie ≤ p.len ∨ ¬ Replies p s h := by
  constructor
  · intro hsame
    by_contra hno
    rw [not_or, not_not, Nat.not_le] at hno
    exact not_disclosesNothing hno.2 hno.1 hsame
  · rintro (hlen | hno)
    · exact disclosesNothing_of_le hlen
    · intro b₁ b₂ _ _
      rw [sent_handle_nil hno, sent_handle_nil hno]

/-- A DISCOVER whose first buffer ends behind `chaddr`: the OFFER carries what
the reply buffer held. -/
theorem short_discover_discloses :
    ¬ DisclosesNothing sampleConfig ⟨zeros 28 ++ macA.toList, zeros 208 ++ [DHCPDISCOVER]⟩
        sampleNetif (sampleServer []) .discover := by
  have hslot : SlotFor macA (sampleServer []).leases := by decide
  exact not_disclosesNothing ⟨⟨macA, by decide, hslot⟩, fun hd => absurd hd (by simp)⟩ (by decide)

end PicoosLwip.Dhcps
