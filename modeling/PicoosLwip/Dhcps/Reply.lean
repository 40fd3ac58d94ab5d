/-
  PicoosLwip.Dhcps.Reply — the bytes of the three replies.

  A reply is the buffer `pbuf_alloc` gave, overwritten in a few steps: as much
  of the request as both buffers hold, the options field cleared, `op`, the
  cookie, then `yiaddr` (not for a NAK) and the options.  The lemmas read the
  finished message back: its type, its `yiaddr`, its `chaddr`.
-/
import PicoosLwip.Dhcps.Handlers

namespace PicoosLwip.Dhcps

open PicoosLwip.Framework

/-! ## §1. `newResp`. -/

/-- The buffer `newResp` works on: the one allocated, if it is large enough. -/
def replyBuf (cfg : Config) (rp : Option (List UInt8)) : Option (List UInt8) :=
  rp.filter fun b => cfg.msgSize ≤ b.length

/-- The reply as `newResp` returns it. -/
def respBytes (cfg : Config) (p : Pbuf) (b : List UInt8) : List UInt8 :=
  let resp := poke b 0 (p.payload.take b.length)
  let resp := poke resp ofsOptions (List.replicate cfg.optionsLen 0)
  let resp := poke resp ofsOp [2]
  poke resp ofsCookie magicCookie

/-- The events of a `newResp` that gives up. -/
def noReplyEvents : Option (List UInt8) → List Event
  | none => [.alloc none]
  | some b => [.alloc (some b.length), .free .reply]

/-- The events of a `newResp` that returns a reply in `b`. -/
def newRespEvents (cfg : Config) (p : Pbuf) (b : List UInt8) : List Event :=
  [.alloc (some b.length), .read .request 0 (min b.length p.len),
    .write .reply 0 (min b.length p.len), .write .reply ofsOptions cfg.optionsLen,
    .write .reply ofsOp 1, .write .reply ofsCookie 4]

/-- There is a buffer, and it is large enough. -/
theorem replyBuf_eq_some {cfg : Config} {rp : Option (List UInt8)} {b : List UInt8}
    (h : replyBuf cfg rp = some b) : rp = some b ∧ cfg.msgSize ≤ b.length := by
  simpa [replyBuf, Option.filter_eq_some_iff] using h

/-- A buffer that is large enough is used. -/
theorem replyBuf_of_le {cfg : Config} {b : List UInt8} (h : cfg.msgSize ≤ b.length) :
    replyBuf cfg (some b) = some b := by
  simp [replyBuf, Option.filter_eq_some_iff, h]

/-- **`newResp`**: a reply if there is a buffer for it. -/
theorem newResp_eq (cfg : Config) (p : Pbuf) (rp : Option (List UInt8)) (s : Server) :
    newResp cfg p rp s
      = match replyBuf cfg rp with
        | none => ⟨noReplyEvents rp, s, .ok none⟩
        | some b => ⟨newRespEvents cfg p b, s, .ok (some (respBytes cfg p b))⟩ := by
  cases rp with
  | none => rfl
  | some b =>
      by_cases hsmall : b.length < cfg.msgSize
      · have hbuf : replyBuf cfg (some b) = none := by
          simp [replyBuf]
          omega
        rw [hbuf]
        simp [newResp, hsmall, noReplyEvents]
      · rw [replyBuf_of_le (by omega)]
        have hmin : (if b.length < p.len then b.length else p.len) = min b.length p.len := by
          split <;> omega
        have hmem := p.len_le_mem
        -- the copy stays inside the payload
        have hbytes : peek p.mem 0 (min b.length p.len) = p.payload.take b.length := by
          rw [Pbuf.mem, peek_append_left _ (by unfold Pbuf.len; omega)]
          unfold peek Pbuf.len
          rw [List.drop_zero, List.take_eq_take_iff]
          omega
        have hload := loadBytes_of_le (b := .request)
          (show 0 + min b.length p.len ≤ p.mem.length by omega)
        rw [hbytes] at hload
        simp only [newResp, hsmall, if_false, hmin, Cmd.bind_apply, Cmd.emit_apply,
          Outcome.andThen_ok, hload, store_apply, Cmd.pure_apply, Outcome.after_mk]
        simp [newRespEvents, respBytes, Pbuf.len]

/-! ## §2. What `newResp` leaves where. -/

section RespBytes

variable {cfg : Config} {p : Pbuf} {b : List UInt8}

/-- The copy and the cleared options field lie inside the buffer. -/
theorem respBytes_stores (h : cfg.msgSize ≤ b.length) :
    0 + (p.payload.take b.length).length ≤ b.length
      ∧ ofsOptions + (List.replicate cfg.optionsLen (0 : UInt8)).length ≤ b.length
      ∧ ofsOp + [(2 : UInt8)].length ≤ b.length
      ∧ ofsCookie + magicCookie.length ≤ b.length := by
  have hofs := ofs_values
  unfold Config.msgSize at h
  simp
  omega

/-- The reply is as long as its buffer. -/
theorem respBytes_length (h : cfg.msgSize ≤ b.length) :
    (respBytes cfg p b).length = b.length := by
  obtain ⟨h₁, h₂, h₃, h₄⟩ := respBytes_stores (p := p) h
  have l₁ := poke_length h₁
  have l₂ := poke_length (l₁.symm ▸ h₂)
  have l₃ := poke_length ((l₂.trans l₁).symm ▸ h₃)
  have l₄ := poke_length ((l₃.trans (l₂.trans l₁)).symm ▸ h₄)
  exact l₄.trans (l₃.trans (l₂.trans l₁))

/-- **The reply, byte by byte**, as `newResp` leaves it. -/
theorem getElem?_respBytes (h : cfg.msgSize ≤ b.length) (i : Nat) :
    (respBytes cfg p b)[i]?
      = if ofsCookie ≤ i ∧ i < ofsOptions then magicCookie[i - ofsCookie]?
        else if i = ofsOp then some 2
        else if ofsOptions ≤ i ∧ i < cfg.msgSize then some 0
        else if i < p.len ∧ i < b.length then p.payload[i]?
        else b[i]? := by
  obtain ⟨h₁, h₂, h₃, h₄⟩ := respBytes_stores (p := p) h
  have l₁ := poke_length h₁
  have l₂ := poke_length (l₁.symm ▸ h₂)
  have l₃ := poke_length ((l₂.trans l₁).symm ▸ h₃)
  have hofs := ofs_values
  have hsize : cfg.msgSize = ofsOptions + cfg.optionsLen := rfl
  simp only [respBytes]
  rw [getElem?_poke ((l₃.trans (l₂.trans l₁)).symm ▸ h₄),
      getElem?_poke ((l₂.trans l₁).symm ▸ h₃), getElem?_poke (l₁.symm ▸ h₂), getElem?_poke h₁]
  -- last store first: cookie, `op`, cleared options, copy of the request
  by_cases hcookie : ofsCookie ≤ i ∧ i < ofsOptions
  · rw [if_pos hcookie, if_pos (by simp; omega)]
  rw [if_neg hcookie, if_neg (by simp; omega)]
  by_cases hop : i = ofsOp
  · rw [if_pos hop, if_pos (by simp; omega), hop]
    rfl
  rw [if_neg hop, if_neg (by simp; omega)]
  by_cases hopt : ofsOptions ≤ i ∧ i < cfg.msgSize
  · rw [if_pos hopt, if_pos (by simp; omega), List.getElem?_replicate, if_pos (by omega)]
  rw [if_neg hopt, if_neg (by simp; omega)]
  by_cases hreq : i < p.len ∧ i < b.length
  · have hlt : i < p.payload.length := hreq.1
    rw [if_pos hreq, if_pos (by simp; omega), List.getElem?_take, Nat.sub_zero, if_pos hreq.2]
  · have hge : ¬ (i < p.payload.length ∧ i < b.length) := hreq
    rw [if_neg hreq, if_neg (by simp; omega)]

/-- A stretch of the header the client filled in is copied unchanged. -/
theorem peek_respBytes (h : cfg.msgSize ≤ b.length) {ofs n : Nat} (h0 : ofsOp < ofs)
    (hlen : ofs + n ≤ p.len) (hhdr : ofs + n ≤ ofsCookie) :
    peek (respBytes cfg p b) ofs n = peek p.mem ofs n := by
  have hofs := ofs_values
  unfold Config.msgSize at h
  apply peek_congr
  intro i hi
  -- none of the three stores behind the copy meets the stretch
  rw [getElem?_respBytes h, if_neg (by omega), if_neg (by omega), if_neg (by omega),
      if_pos (by omega), Pbuf.mem, List.getElem?_append_left (by unfold Pbuf.len at hlen; omega)]

end RespBytes

/-! ## §3. The option lists of the replies. -/

/-- The pieces `handleDiscover` writes. -/
def offerPieces (netif : Netif) : List (List UInt8) :=
  [[OPT_MSGTYPE, 1, DHCPOFFER], [OPT_NETMASK, 4] ++ netif.netmask.toList,
    [OPT_SERVERID, 4] ++ netif.ip.toList, [OPT_END]]

/-- The pieces of an ACK: the times are 1800, 3000 and 3600 seconds, big-endian. -/
def ackPieces (netif : Netif) : List (List UInt8) :=
  [[OPT_MSGTYPE, 1, DHCPACK], [OPT_RENEW_TIME, 4, 0, 0, 7, 8],
    [OPT_REBIND_TIME, 4, 0, 0, 11, 184], [OPT_LEASE_TIME, 4, 0, 0, 14, 16],
    [OPT_NETMASK, 4] ++ netif.netmask.toList, [OPT_SERVERID, 4] ++ netif.ip.toList, [OPT_END]]

/-- What a NAK writes, call by call. -/
def nakPieces (netif : Netif) : List (List UInt8) :=
  [[OPT_MSGTYPE, 1, DHCPNAK], [OPT_SERVERID, 4] ++ netif.ip.toList, [OPT_END]]

/-- The option list of an OFFER. -/
def offerBytes (netif : Netif) : List UInt8 := (offerPieces netif).flatten
/-- The option list of an ACK. -/
def ackBytes (netif : Netif) : List UInt8 := (ackPieces netif).flatten
/-- The option list of a NAK. -/
def nakBytes (netif : Netif) : List UInt8 := (nakPieces netif).flatten

theorem offerBytes_length (netif : Netif) : (offerBytes netif).length = 16 := by
  simp [offerBytes, offerPieces]

theorem ackBytes_length (netif : Netif) : (ackBytes netif).length = 34 := by
  simp [ackBytes, ackPieces]

theorem nakBytes_length (netif : Netif) : (nakBytes netif).length = 10 := by
  simp [nakBytes, nakPieces]

/-- Where there is room the OFFER's options are these bytes. -/
theorem offerOptions_eq (netif : Netif) {c : Cursor} (h : c.ptr + 16 ≤ c.buf.length) :
    offerOptions netif c = c.put (offerBytes netif) := by
  have hfold : offerOptions netif c = (offerPieces netif).foldl Cursor.put c := rfl
  rw [← offerBytes_length netif] at h
  rw [hfold]
  exact Cursor.foldl_put _ c h

/-- Where there is room the ACK's options are these bytes. -/
theorem ackOptions_eq (netif : Netif) {c : Cursor} (h : c.ptr + 34 ≤ c.buf.length) :
    ackOptions netif c = c.put (ackBytes netif) := by
  -- the times of the source come out as the bytes of `ackPieces`
  have hfold : ackOptions netif c = (ackPieces netif).foldl Cursor.put c := by
    simp [ackOptions, ackPieces, addOptionByte, addOptionTime, addOptionIP]
  rw [← ackBytes_length netif] at h
  rw [hfold]
  exact Cursor.foldl_put _ c h

/-- Where there is room the NAK's options are these bytes. -/
theorem nakOptions_eq (netif : Netif) {c : Cursor} (h : c.ptr + 10 ≤ c.buf.length) :
    nakOptions netif c = c.put (nakBytes netif) := by
  have hfold : nakOptions netif c = (nakPieces netif).foldl Cursor.put c := rfl
  rw [← nakBytes_length netif] at h
  rw [hfold]
  exact Cursor.foldl_put _ c h

/-! ## §4. The finished messages. -/

/-- A reply that grants `addr`. -/
def grantMsg (cfg : Config) (p : Pbuf) (b : List UInt8) (addr : Ip4Addr) (opts : List UInt8) :
    List UInt8 :=
  poke (poke (respBytes cfg p b) ofsYiaddr addr.toList) ofsOptions opts

/-- The OFFER of an address. -/
def offerMsg (cfg : Config) (p : Pbuf) (netif : Netif) (b : List UInt8) (addr : Ip4Addr) :
    List UInt8 :=
  grantMsg cfg p b addr (offerBytes netif)

/-- The ACK of an address. -/
def ackMsg (cfg : Config) (p : Pbuf) (netif : Netif) (b : List UInt8) (addr : Ip4Addr) :
    List UInt8 :=
  grantMsg cfg p b addr (ackBytes netif)

/-- The NAK. -/
def nakMsg (cfg : Config) (p : Pbuf) (netif : Netif) (b : List UInt8) : List UInt8 :=
  poke (respBytes cfg p b) ofsOptions (nakBytes netif)

/-- The message starts its options with message type `t`. -/
def HasType (t : UInt8) (msg : List UInt8) : Prop :=
  peek msg ofsOptions 3 = [OPT_MSGTYPE, 1, t]

instance (t : UInt8) (msg : List UInt8) : Decidable (HasType t msg) :=
  inferInstanceAs (Decidable (_ = _))

/-- The `yiaddr` field of a message. -/
def yiaddr (msg : List UInt8) : Option Ip4Addr := peekVec msg ofsYiaddr 4

/-- An OFFER or an ACK of `addr`. -/
def Grants (msg : List UInt8) (addr : Ip4Addr) : Prop :=
  (HasType DHCPOFFER msg ∨ HasType DHCPACK msg) ∧ yiaddr msg = some addr

/-- The message an event sends. -/
@[simp] def Event.sent? : Event → Option (List UInt8)
  | .send _ msg _ _ => some msg
  | _ => none

/-- The messages a call sends. -/
def sentMsgs (es : List Event) : List (List UInt8) := es.filterMap Event.sent?

@[simp] theorem sentMsgs_nil : sentMsgs [] = [] := rfl

@[simp] theorem sentMsgs_cons (e : Event) (es : List Event) :
    sentMsgs (e :: es) = e.sent?.toList ++ sentMsgs es := by
  unfold sentMsgs
  rw [List.filterMap_cons]
  cases e.sent? <;> rfl

@[simp] theorem sentMsgs_append (es es' : List Event) :
    sentMsgs (es ++ es') = sentMsgs es ++ sentMsgs es' := List.filterMap_append

/-- A message has one type. -/
theorem HasType.unique {t t' : UInt8} {msg : List UInt8} (h : HasType t msg)
    (h' : HasType t' msg) : t = t' := by
  unfold HasType at h h'
  rw [h] at h'
  simpa using h'

section Messages

variable {cfg : Config} {p : Pbuf} {b : List UInt8}

/-- Room for the options of every reply. -/
theorem respBytes_room (h : cfg.msgSize ≤ b.length) {n : Nat} (hn : n ≤ 68) :
    ofsOptions + n ≤ (respBytes cfg p b).length := by
  have := cfg.minOptionsLen
  rw [respBytes_length h]
  unfold Config.msgSize at h
  omega

/-- The address lies inside the reply. -/
theorem yiaddr_fits (h : cfg.msgSize ≤ b.length) (addr : Ip4Addr) :
    ofsYiaddr + addr.toList.length ≤ (respBytes cfg p b).length := by
  have hofs := ofs_values
  have := respBytes_room (p := p) h (Nat.zero_le _)
  rw [Vector.length_toList]
  omega

/-- So do the options, up to 68 bytes of them. -/
theorem opts_fit (h : cfg.msgSize ≤ b.length) (addr : Ip4Addr) (opts : List UInt8)
    (ho : opts.length ≤ 68) :
    ofsOptions + opts.length ≤ (poke (respBytes cfg p b) ofsYiaddr addr.toList).length := by
  rw [poke_length (yiaddr_fits h addr)]
  exact respBytes_room h ho

/-- The options of a grant. -/
theorem peek_grantMsg_options (h : cfg.msgSize ≤ b.length) (addr : Ip4Addr) {opts : List UInt8}
    (ho : opts.length ≤ 68) {n : Nat} (hn : n ≤ opts.length) :
    peek (grantMsg cfg p b addr opts) ofsOptions n = opts.take n := by
  have hpoke := peek_poke_inside (i := 0) (n := n) (opts_fit (p := p) h addr opts ho) (by omega)
  rw [Nat.add_zero] at hpoke
  exact hpoke

/-- The address of a grant. -/
theorem yiaddr_grantMsg (h : cfg.msgSize ≤ b.length) (addr : Ip4Addr) {opts : List UInt8}
    (ho : opts.length ≤ 68) : yiaddr (grantMsg cfg p b addr opts) = some addr := by
  have hofs := ofs_values
  have hpoke := peek_poke_inside (i := 0) (n := 4) (yiaddr_fits (p := p) h addr)
    (by simp)
  rw [Nat.add_zero] at hpoke
  unfold yiaddr grantMsg
  -- the options are written behind `yiaddr`
  rw [peekVec_eq_some_iff, peek_poke_of_disjoint (opts_fit h addr opts ho) (by omega), hpoke]
  unfold peek
  rw [List.drop_zero, List.take_of_length_le (by simp)]

/-- A grant carries the hardware address of its request, which must be in the
payload for that. -/
theorem peek_grantMsg_chaddr (h : cfg.msgSize ≤ b.length) (addr : Ip4Addr) {opts : List UInt8}
    (ho : opts.length ≤ 68) (hlen : ofsChaddr + 6 ≤ p.len) :
    peek (grantMsg cfg p b addr opts) ofsChaddr 6 = peek p.mem ofsChaddr 6 := by
  have hofs := ofs_values
  unfold grantMsg
  rw [peek_poke_of_disjoint (opts_fit h addr opts ho) (by omega),
      peek_poke_of_disjoint (yiaddr_fits h addr) (by rw [Vector.length_toList]; omega),
      peek_respBytes h (by omega) hlen (by omega)]

/-- A grant is as long as its buffer. -/
theorem grantMsg_length (h : cfg.msgSize ≤ b.length) (addr : Ip4Addr) {opts : List UInt8}
    (ho : opts.length ≤ 68) : (grantMsg cfg p b addr opts).length = b.length := by
  unfold grantMsg
  rw [poke_length (opts_fit h addr opts ho), poke_length (yiaddr_fits h addr), respBytes_length h]

/-- An OFFER is one. -/
theorem hasType_offerMsg (h : cfg.msgSize ≤ b.length) (netif : Netif) (addr : Ip4Addr) :
    HasType DHCPOFFER (offerMsg cfg p netif b addr) :=
  peek_grantMsg_options h addr (by simp [offerBytes_length]) (by simp [offerBytes_length])

/-- An ACK is one. -/
theorem hasType_ackMsg (h : cfg.msgSize ≤ b.length) (netif : Netif) (addr : Ip4Addr) :
    HasType DHCPACK (ackMsg cfg p netif b addr) :=
  peek_grantMsg_options h addr (by simp [ackBytes_length]) (by simp [ackBytes_length])

/-- A NAK is one. -/
theorem hasType_nakMsg (h : cfg.msgSize ≤ b.length) (netif : Netif) :
    HasType DHCPNAK (nakMsg cfg p netif b) := by
  have hroom := respBytes_room (p := p) h (n := (nakBytes netif).length)
    (by simp [nakBytes_length])
  have hpoke := peek_poke_inside (i := 0) (n := 3) hroom (by simp [nakBytes_length])
  rw [Nat.add_zero] at hpoke
  exact hpoke

/-- An OFFER grants its address. -/
theorem grants_offerMsg (h : cfg.msgSize ≤ b.length) (netif : Netif) (addr : Ip4Addr) :
    Grants (offerMsg cfg p netif b addr) addr :=
  ⟨.inl (hasType_offerMsg h netif addr), yiaddr_grantMsg h addr (by simp [offerBytes_length])⟩

/-- An ACK grants its address. -/
theorem grants_ackMsg (h : cfg.msgSize ≤ b.length) (netif : Netif) (addr : Ip4Addr) :
    Grants (ackMsg cfg p netif b addr) addr :=
  ⟨.inr (hasType_ackMsg h netif addr), yiaddr_grantMsg h addr (by simp [ackBytes_length])⟩

/-- A message grants one address. -/
theorem Grants.unique {msg : List UInt8} {a a' : Ip4Addr} (h : Grants msg a)
    (h' : Grants msg a') : a = a' := Option.some.inj (h.2.symm.trans h'.2)

/-- A NAK grants nothing. -/
theorem not_grants_nakMsg (h : cfg.msgSize ≤ b.length) (netif : Netif) (addr : Ip4Addr) :
    ¬ Grants (nakMsg cfg p netif b) addr := by
  rintro ⟨htype, _⟩
  rcases htype with ho | ha
  · exact absurd (ho.unique (hasType_nakMsg h netif)) (by decide)
  · exact absurd (ha.unique (hasType_nakMsg h netif)) (by decide)

end Messages

end PicoosLwip.Dhcps
