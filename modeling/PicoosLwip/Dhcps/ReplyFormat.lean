/-
  PicoosLwip.Dhcps.ReplyFormat — the option encoder and the replies it writes.

  `addOptionByte`, `addOptionIP` and `addOptionTime` write what `getOption`,
  `getOptionLen`, `getOptionData` and `nextOption` read.  A reply is the request
  copied over, with `op`, the cookie, `yiaddr` (in a grant) and the options
  stored into it; the options field is cleared before.

  Main results:
    * `readsBack_of_fits`       — a list of calls reads back as it was written;
    * `replies_well_formed`     — and every reply is well formed.
-/
import PicoosLwip.Dhcps.Requests

namespace PicoosLwip.Dhcps

open PicoosLwip.Framework

/-! ## §1. Encoder calls. -/

/-- A call of one of the three encoders. -/
inductive OptCall where
  | byte (opt val : UInt8)
  | ip (opt : UInt8) (addr : Ip4Addr)
  | time (opt : UInt8) (t : UInt32)

/-- The call. -/
def OptCall.add (c : Cursor) : OptCall → Cursor
  | .byte opt val => addOptionByte c opt val
  | .ip opt addr => addOptionIP c opt addr
  | .time opt t => addOptionTime c opt t

/-- Its option's code. -/
def OptCall.code : OptCall → UInt8
  | .byte opt _ => opt
  | .ip opt _ => opt
  | .time opt _ => opt

/-- The four bytes that `addOptionTime` makes of a time. -/
def timeBytes (t : UInt32) : List UInt8 :=
  [(t / (256 * 256 * 256)).toUInt8, (t % (256 * 256 * 256) / (256 * 256)).toUInt8,
    (t % (256 * 256 * 256) % (256 * 256) / 256).toUInt8,
    (t % (256 * 256 * 256) % (256 * 256) % 256).toUInt8]

/-- Its option's data. -/
def OptCall.data : OptCall → List UInt8
  | .byte _ val => [val]
  | .ip _ addr => addr.toList
  | .time _ t => timeBytes t

/-- One byte, or four. -/
theorem OptCall.data_length (call : OptCall) : call.data.length = 1 ∨ call.data.length = 4 := by
  cases call with
  | byte opt val => exact .inl rfl
  | ip opt addr => exact .inr Vector.length_toList
  | time opt t => exact .inr rfl

/-- The option that a call writes. -/
def OptCall.tlv (call : OptCall) (hcode : call.code ≠ OPT_END) : Tlv where
  code := call.code
  data := call.data
  code_ne_end := hcode
  data_le := by have := call.data_length; omega

/-- What it writes. -/
def OptCall.bytes (call : OptCall) : List UInt8 :=
  call.code :: UInt8.ofNat call.data.length :: call.data

/-- **Each encoder puts its option.** -/
theorem OptCall.add_eq (c : Cursor) (call : OptCall) : call.add c = c.put call.bytes := by
  cases call with
  | byte opt val => rfl
  | ip opt addr =>
      show c.put ([opt, 4] ++ addr.toList)
        = c.put (opt :: UInt8.ofNat addr.toList.length :: addr.toList)
      rw [Vector.length_toList]
      rfl
  | time opt t => rfl

/-- The options that calls write. -/
theorem exists_tlvs {calls : List OptCall} (hcode : ∀ call ∈ calls, call.code ≠ OPT_END) :
    ∃ ts, encodeOpts ts = calls.flatMap OptCall.bytes
      ∧ ts.map (fun t => (t.code, t.data)) = calls.map fun call => (call.code, call.data) := by
  induction calls with
  | nil => exact ⟨[], rfl, rfl⟩
  | cons call calls ih =>
      obtain ⟨ts, henc, hmap⟩ := ih fun call' h => hcode call' (List.mem_cons_of_mem _ h)
      refine ⟨call.tlv (hcode call (List.mem_cons_self ..)) :: ts, ?_, ?_⟩
      · show call.bytes ++ encodeOpts ts = call.bytes ++ calls.flatMap OptCall.bytes
        rw [henc]
      · show (call.code, call.data) :: ts.map _ = (call.code, call.data) :: calls.map _
        rw [hmap]

/-! ## §2. Walking the bytes. -/

/-- Every code with its data up to END, and where that is, as the four readers
give them. -/
def walkOptions (p : Pbuf) : Nat → Nat → DhcpsM (List (UInt8 × List UInt8) × Nat)
  | 0, _ => Cmd.fault .outOfFuel
  | fuel + 1, optPtr => do
      let opt ← getOption p optPtr
      if opt = OPT_END then
        pure ([], optPtr)
      else
        let len ← getOptionLen p optPtr
        let data ← loadBytes .request p.mem (getOptionData optPtr) len.toNat
        let next ← nextOption p optPtr
        let (items, last) ← walkOptions p fuel next
        pure ((opt, data) :: items, last)

/-- **A walk over closed options** gives the options and stops at the END. -/
theorem walkOptions_closed (p : Pbuf) (rest : List UInt8) (s : Server) :
    ∀ (ts : List Tlv) (fuel o : Nat), p.mem.drop o = encodeOpts ts ++ OPT_END :: rest →
      ts.length < fuel →
      ∃ es, walkOptions p fuel o s
        = ⟨es, s, .ok (ts.map (fun t => (t.code, t.data)), o + (encodeOpts ts).length)⟩
  | [], fuel + 1, o, h, _ => by
      have hend : p.mem[o]? = some OPT_END := by
        have := congrArg (·[0]?) h
        simpa using this
      refine ⟨[.read .request o 1], ?_⟩
      simp [walkOptions, getOption_some hend]
  | t :: ts, fuel + 1, o, h, hf => by
      rw [encodeOpts_cons, List.append_assoc] at h
      obtain ⟨hcode, hlen⟩ := Tlv.head_of_drop h
      have hdata : p.mem.drop (o + 2) = t.data ++ (encodeOpts ts ++ OPT_END :: rest) := by
        rw [← List.drop_drop, h]
        rfl
      have hnext : p.mem.drop (o + t.data.length + 2) = encodeOpts ts ++ OPT_END :: rest := by
        rw [show o + t.data.length + 2 = o + 2 + t.data.length by omega, ← List.drop_drop, hdata,
          List.drop_left]
      obtain ⟨es, hrest⟩ := walkOptions_closed p rest s ts fuel _ hnext (by simpa using hf)
      -- the data are in memory, since the END behind them is
      have hin : o + 2 + t.data.length ≤ p.mem.length := by
        have hsize := congrArg List.length hnext
        simp only [List.length_drop, List.length_append, List.length_cons] at hsize
        omega
      have hpeek : peek p.mem (o + 2) t.data.length = t.data := by
        unfold peek
        rw [hdata, List.take_left]
      refine ⟨[.read .request o 1, .read .request (o + 1) 1, .read .request (o + 2) t.data.length,
        .read .request (o + 1) 1] ++ es, ?_⟩
      have hpos : o + t.data.length + 2 + (encodeOpts ts).length
          = o + (encodeOpts (t :: ts)).length := by
        rw [encodeOpts_cons, List.length_append, t.bytes_length]
        omega
      simp [walkOptions, getOption_some hcode, getOptionLen_eq, getOption_some hlen, t.code_ne_end,
        nextOption, getOptionData, t.lenByte_toNat, loadBytes_of_le hin, hpeek, hrest, hpos]

/-! ## §3. What is written reads back. -/

/-- The number that bytes stand for, the first one highest. -/
def bigEndian (bs : List UInt8) : Nat := bs.foldl (fun n b => n * 256 + b.toNat) 0

/-- An option as read is the one that the call wrote. -/
def OptCall.ReadsAs : OptCall → UInt8 × List UInt8 → Prop
  | .byte opt val, item => item = (opt, [val])
  | .ip opt addr, item => item = (opt, addr.toList)
  | .time opt t, item => item.1 = opt ∧ item.2.length = 4 ∧ bigEndian item.2 = t.toNat

/-- **The time encoder is big-endian**, for every 32-bit time. -/
theorem bigEndian_timeBytes (t : UInt32) : bigEndian (timeBytes t) = t.toNat := by
  have h₂ : (256 * 256 : UInt32).toNat = 65536 := rfl
  have h₃ : (256 * 256 * 256 : UInt32).toNat = 16777216 := rfl
  have h₁ : (256 : UInt32).toNat = 256 := rfl
  have hlt : t.toNat < 2 ^ 32 := t.toNat_lt
  simp only [bigEndian, timeBytes, List.foldl_cons, List.foldl_nil, UInt32.toNat_toUInt8,
    UInt32.toNat_div, UInt32.toNat_mod, h₁, h₂, h₃]
  omega

/-- A call reads as itself. -/
theorem OptCall.readsAs_self (call : OptCall) : call.ReadsAs (call.code, call.data) := by
  cases call with
  | byte opt val => rfl
  | ip opt addr => rfl
  | time opt t => exact ⟨rfl, rfl, bigEndian_timeBytes t⟩

/-- Written from `c` on by `calls` and closed by 255, the bytes read back as the
calls, and the walk stops at the 255. -/
def ReadsBack (calls : List OptCall) (c : Cursor) : Prop :=
  let d := (calls.foldl OptCall.add c).put [OPT_END]
  ∀ s, ∃ items, (walkOptions ⟨d.buf, []⟩ (d.buf.length + 1) c.ptr s).result
      = .ok (items, c.ptr + (calls.flatMap OptCall.bytes).length)
    ∧ List.Forall₂ OptCall.ReadsAs calls items

/-- Calls in a row put their options in a row. -/
theorem foldl_add_put {calls : List OptCall} {c : Cursor}
    (hfit : c.ptr + (calls.flatMap OptCall.bytes).length + 1 ≤ c.buf.length) :
    (calls.foldl OptCall.add c).put [OPT_END]
      = c.put (calls.flatMap OptCall.bytes ++ [OPT_END]) := by
  have hadd : OptCall.add = fun c call => c.put call.bytes := by
    funext c call
    exact call.add_eq c
  have hfold : (calls.foldl OptCall.add c).put [OPT_END]
      = (calls.map OptCall.bytes ++ [[OPT_END]]).foldl Cursor.put c := by
    rw [List.foldl_append, List.foldl_map, hadd]
    rfl
  have hflat : (calls.map OptCall.bytes ++ [[OPT_END]]).flatten
      = calls.flatMap OptCall.bytes ++ [OPT_END] := by
    rw [List.flatten_append, ← List.flatMap_def]
    rfl
  rw [hfold, Cursor.foldl_put _ c (by rw [hflat, List.length_append]; exact hfit), hflat]

/-- **The encoder and the decoder agree** where the options fit. -/
theorem readsBack_of_fits {calls : List OptCall} {c : Cursor}
    (hcode : ∀ call ∈ calls, call.code ≠ OPT_END)
    (hfit : c.ptr + (calls.flatMap OptCall.bytes).length + 1 ≤ c.buf.length) :
    ReadsBack calls c := by
  intro s
  obtain ⟨ts, henc, hmap⟩ := exists_tlvs hcode
  rw [foldl_add_put hfit]
  -- the bytes written are a closed list of options
  have hdrop : (c.put (calls.flatMap OptCall.bytes ++ [OPT_END])).buf.drop c.ptr
      = encodeOpts ts
        ++ OPT_END :: c.buf.drop (c.ptr + (calls.flatMap OptCall.bytes).length + 1) := by
    show (poke c.buf c.ptr _).drop c.ptr = _
    rw [drop_poke _ (by omega), henc, List.append_assoc, List.length_append]
    rfl
  generalize (c.put (calls.flatMap OptCall.bytes ++ [OPT_END])).buf = buf at hdrop
  have hmem : (Pbuf.mk buf []).mem = buf := List.append_nil buf
  have hfuel : ts.length < buf.length + 1 := by
    have hle := length_le_encodeOpts ts
    have hlen := congrArg List.length hdrop
    simp only [List.length_drop, List.length_append, List.length_cons] at hlen
    omega
  obtain ⟨es, hwalk⟩ := walkOptions_closed ⟨buf, []⟩ _ s ts (buf.length + 1) c.ptr
    (by rw [hmem]; exact hdrop) hfuel
  refine ⟨calls.map fun call => (call.code, call.data), ?_, ?_⟩
  · rw [hwalk, hmap, henc]
  · rw [List.forall₂_map_right_iff]
    exact List.forall₂_same.mpr fun call _ => call.readsAs_self

/-! ## §4. The replies. -/

/-- What every reply to `p` looks like: of full size, a reply, the request's
header but for the cookie and the address of a grant, and options closed by END
with nothing but zeros behind it. -/
structure WellFormedReply (cfg : Config) (p : Pbuf) (msg : List UInt8) : Prop where
  size : msg.length = cfg.msgSize
  op : msg[ofsOp]? = some 2
  header : ∀ i, ofsOp < i → i < ofsCookie →
    (HasType DHCPNAK msg ∨ i < ofsYiaddr ∨ ofsYiaddr + 4 ≤ i) → msg[i]? = p.payload[i]?
  options : ∃ ts n, msg.drop ofsOptions = encodeOpts ts ++ OPT_END :: List.replicate n 0

/-- The calls of the three builders. -/
def offerCalls (netif : Netif) : List OptCall :=
  [.byte OPT_MSGTYPE DHCPOFFER, .ip OPT_NETMASK netif.netmask, .ip OPT_SERVERID netif.ip]

/-- The calls for an ACK. -/
def ackCalls (netif : Netif) : List OptCall :=
  [.byte OPT_MSGTYPE DHCPACK, .time OPT_RENEW_TIME (30 * 60), .time OPT_REBIND_TIME (50 * 60),
    .time OPT_LEASE_TIME (60 * 60), .ip OPT_NETMASK netif.netmask, .ip OPT_SERVERID netif.ip]

/-- The calls for a NAK. -/
def nakCalls (netif : Netif) : List OptCall :=
  [.byte OPT_MSGTYPE DHCPNAK, .ip OPT_SERVERID netif.ip]

/-- The OFFER's options are what its calls write. -/
theorem offerBytes_eq (netif : Netif) :
    offerBytes netif = (offerCalls netif).flatMap OptCall.bytes ++ [OPT_END] := by
  simp [offerBytes, offerPieces, offerCalls, OptCall.bytes, OptCall.code, OptCall.data]

/-- The ACK's options are what its calls write. -/
theorem ackBytes_eq (netif : Netif) :
    ackBytes netif = (ackCalls netif).flatMap OptCall.bytes ++ [OPT_END] := by
  simp [ackBytes, ackPieces, ackCalls, OptCall.bytes, OptCall.code, OptCall.data, timeBytes]

/-- The NAK's options are what its calls write. -/
theorem nakBytes_eq (netif : Netif) :
    nakBytes netif = (nakCalls netif).flatMap OptCall.bytes ++ [OPT_END] := by
  simp [nakBytes, nakPieces, nakCalls, OptCall.bytes, OptCall.code, OptCall.data]

/-- None of them writes an END in between. -/
theorem code_ne_end {calls : List OptCall} {codes : List UInt8}
    (h : calls.map OptCall.code = codes) (hno : OPT_END ∉ codes) :
    ∀ call ∈ calls, call.code ≠ OPT_END := by
  rintro call hin hend
  rw [← h, List.mem_map] at hno
  exact hno ⟨call, hin, hend⟩

theorem offerCalls_code (netif : Netif) : ∀ call ∈ offerCalls netif, call.code ≠ OPT_END :=
  code_ne_end (show _ = [OPT_MSGTYPE, OPT_NETMASK, OPT_SERVERID] from rfl) (by decide)

theorem ackCalls_code (netif : Netif) : ∀ call ∈ ackCalls netif, call.code ≠ OPT_END :=
  code_ne_end (show _ = [OPT_MSGTYPE, OPT_RENEW_TIME, OPT_REBIND_TIME, OPT_LEASE_TIME,
    OPT_NETMASK, OPT_SERVERID] from rfl) (by decide)

theorem nakCalls_code (netif : Netif) : ∀ call ∈ nakCalls netif, call.code ≠ OPT_END :=
  code_ne_end (show _ = [OPT_MSGTYPE, OPT_SERVERID] from rfl) (by decide)

section Replies

variable {cfg : Config} {p : Pbuf} {b : List UInt8}

/-- The options field is cleared. -/
theorem drop_respBytes (hb : b.length = cfg.msgSize) :
    (respBytes cfg p b).drop ofsOptions = List.replicate cfg.optionsLen 0 := by
  have hofs := ofs_values
  have hsize : cfg.msgSize = ofsOptions + cfg.optionsLen := rfl
  apply List.ext_getElem?
  intro i
  rw [List.getElem?_drop, getElem?_respBytes (Nat.le_of_eq hb.symm), List.getElem?_replicate,
    if_neg (by omega), if_neg (by omega)]
  by_cases hi : i < cfg.optionsLen
  · rw [if_pos (by omega), if_pos hi]
  · -- the buffer ends with the field
    rw [if_neg (by omega), if_neg hi, if_neg (by omega), List.getElem?_eq_none (by omega)]

/-- The request's header is copied. -/
theorem getElem?_respBytes_header (hb : b.length = cfg.msgSize) (hlen : ofsOptions ≤ p.len)
    {i : Nat} (hlo : ofsOp < i) (hhi : i < ofsCookie) :
    (respBytes cfg p b)[i]? = p.payload[i]? := by
  have hofs := ofs_values
  have hsize : cfg.msgSize = ofsOptions + cfg.optionsLen := rfl
  rw [getElem?_respBytes (Nat.le_of_eq hb.symm), if_neg (by omega), if_neg (by omega),
    if_neg (by omega), if_pos (by omega)]

/-- **Options stored into a reply** make it well formed, whatever the call that
got that far has done to `yiaddr`. -/
theorem wellFormed_of_options {resp : List UInt8} {calls : List OptCall}
    (hcode : ∀ call ∈ calls, call.code ≠ OPT_END)
    (hfit : (calls.flatMap OptCall.bytes).length + 1 ≤ cfg.optionsLen)
    (hsize : resp.length = cfg.msgSize) (hop : resp[ofsOp]? = some 2)
    (hclear : resp.drop ofsOptions = List.replicate cfg.optionsLen 0)
    (hheader : ∀ i, ofsOp < i → i < ofsCookie →
      (HasType DHCPNAK (poke resp ofsOptions (calls.flatMap OptCall.bytes ++ [OPT_END]))
        ∨ i < ofsYiaddr ∨ ofsYiaddr + 4 ≤ i) → resp[i]? = p.payload[i]?) :
    WellFormedReply cfg p (poke resp ofsOptions (calls.flatMap OptCall.bytes ++ [OPT_END])) := by
  have hofs := ofs_values
  have hmsg : cfg.msgSize = ofsOptions + cfg.optionsLen := rfl
  have hroom : ofsOptions + (calls.flatMap OptCall.bytes ++ [OPT_END]).length ≤ resp.length := by
    rw [List.length_append, List.length_singleton]
    omega
  refine ⟨?_, ?_, ?_, ?_⟩
  · rw [poke_length hroom, hsize]
  · rw [getElem?_poke_outside hroom (by omega), hop]
  · intro i hlo hhi hwhere
    rw [getElem?_poke_outside hroom (by omega)]
    exact hheader i hlo hhi hwhere
  · obtain ⟨ts, henc, -⟩ := exists_tlvs hcode
    refine ⟨ts, cfg.optionsLen - (calls.flatMap OptCall.bytes ++ [OPT_END]).length, ?_⟩
    rw [drop_poke _ (by omega), ← List.drop_drop, hclear, List.drop_replicate, henc,
      List.append_assoc]
    rfl

/-- A reply is a BOOTREPLY. -/
theorem op_respBytes (hb : b.length = cfg.msgSize) : (respBytes cfg p b)[ofsOp]? = some 2 := by
  have hofs := ofs_values
  rw [getElem?_respBytes (Nat.le_of_eq hb.symm), if_neg (by omega), if_pos rfl]

/-- A grant is well formed. -/
theorem wellFormed_grantMsg (hb : b.length = cfg.msgSize) (hlen : ofsOptions ≤ p.len)
    (addr : Ip4Addr) {calls : List OptCall} {opts : List UInt8}
    (hopts : opts = calls.flatMap OptCall.bytes ++ [OPT_END]) (hfit : opts.length ≤ 68)
    (hcode : ∀ call ∈ calls, call.code ≠ OPT_END)
    (htype : ¬ HasType DHCPNAK (grantMsg cfg p b addr opts)) :
    WellFormedReply cfg p (grantMsg cfg p b addr opts) := by
  have hofs := ofs_values
  have hmin := cfg.minOptionsLen
  have hyi := yiaddr_fits (p := p) (Nat.le_of_eq hb.symm) addr
  have haddr : addr.toList.length = 4 := Vector.length_toList
  have hroom : (calls.flatMap OptCall.bytes).length + 1 ≤ cfg.optionsLen := by
    rw [hopts, List.length_append, List.length_singleton] at hfit
    omega
  unfold grantMsg at htype ⊢
  rw [hopts] at htype ⊢
  apply wellFormed_of_options hcode hroom
  · rw [poke_length hyi, respBytes_length (Nat.le_of_eq hb.symm), hb]
  · rw [getElem?_poke_outside hyi (by omega), op_respBytes hb]
  · rw [drop_poke_behind hyi (by omega), drop_respBytes hb]
  · -- `yiaddr` is the only field of the header that a grant changes
    rintro i hlo hhi (hnak | hout)
    · exact absurd hnak htype
    · rw [getElem?_poke_outside hyi (by omega), getElem?_respBytes_header hb hlen hlo hhi]

/-- A NAK is well formed, too. -/
theorem wellFormed_nakMsg (hb : b.length = cfg.msgSize) (hlen : ofsOptions ≤ p.len)
    (netif : Netif) : WellFormedReply cfg p (nakMsg cfg p netif b) := by
  have hmin := cfg.minOptionsLen
  have hroom : ((nakCalls netif).flatMap OptCall.bytes).length + 1 ≤ cfg.optionsLen := by
    have hlen := nakBytes_length netif
    rw [nakBytes_eq, List.length_append, List.length_singleton] at hlen
    omega
  unfold nakMsg
  rw [nakBytes_eq]
  apply wellFormed_of_options (nakCalls_code netif) hroom
  · rw [respBytes_length (Nat.le_of_eq hb.symm), hb]
  · exact op_respBytes hb
  · exact drop_respBytes hb
  · intro i hlo hhi _
    exact getElem?_respBytes_header hb hlen hlo hhi

end Replies

/-- **Every reply a call sends is well formed**, on each of the three paths. -/
theorem wellFormed_of_sent {cfg : Config} {d : Datagram} {s : Server} {b msg : List UInt8}
    (hrp : d.rp = some b) (hb : b.length = cfg.msgSize) (hlen : ofsOptions ≤ d.p.len)
    (hsent : msg ∈ sentMsgs (dhcpRecv cfg d s).events) : WellFormedReply cfg d.p msg := by
  obtain ⟨m, addr, leases, b', -, -, hb', hmsg⟩ := sent_cases hsent
  obtain rfl : b' = b := Option.some.inj ((replyBuf_eq_some hb').1.symm.trans hrp)
  have hsize := Nat.le_of_eq hb.symm
  rcases hmsg with rfl | rfl | rfl
  · have hoffer := hasType_offerMsg (p := d.p) hsize d.netif addr
    apply wellFormed_grantMsg hb hlen addr (offerBytes_eq _) (by simp [offerBytes_length])
      (offerCalls_code _)
    intro hnak
    exact absurd (hoffer.unique hnak) (by decide)
  · have hack := hasType_ackMsg (p := d.p) hsize d.netif addr
    apply wellFormed_grantMsg hb hlen addr (ackBytes_eq _) (by simp [ackBytes_length])
      (ackCalls_code _)
    intro hnak
    exact absurd (hack.unique hnak) (by decide)
  · exact wellFormed_nakMsg hb hlen d.netif

/-- **The encoder and the decoder agree, and every reply is well formed.** -/
theorem replies_well_formed :
    (∀ (calls : List OptCall) (c : Cursor), (∀ call ∈ calls, call.code ≠ 0 ∧ call.code ≠ OPT_END) →
      c.ptr + (calls.flatMap OptCall.bytes).length + 1 ≤ c.buf.length → ReadsBack calls c)
    ∧ ∀ (cfg : Config) (d : Datagram) (s : Server) (b msg : List UInt8), d.rp = some b →
      b.length = cfg.msgSize → ofsOptions ≤ d.p.len →
      msg ∈ sentMsgs (dhcpRecv cfg d s).events → WellFormedReply cfg d.p msg :=
  ⟨fun _ _ hcode hfit => readsBack_of_fits (fun call h => (hcode call h).2) hfit,
    fun _ _ _ _ _ hrp hb hlen hsent => wellFormed_of_sent hrp hb hlen hsent⟩

/-- A time and an address written into twenty bytes, and the OFFER of a sample
DISCOVER. -/
theorem replies_well_formed_sample :
    ReadsBack [.time OPT_LEASE_TIME 3600, .ip OPT_SERVERID #v[192, 168, 7, 1]] ⟨zeros 20, 2⟩
    ∧ ∃ es msg, RecvStep sampleConfig (sampleServer [])
        (sampleMsg DHCPDISCOVER anyAddr macA [], es) (sampleServer [macA])
      ∧ sentMsgs es = [msg]
      ∧ WellFormedReply sampleConfig (sampleMsg DHCPDISCOVER anyAddr macA []).p msg := by
  constructor
  · refine replies_well_formed.1 _ _ ?_ (by decide)
    simp only [List.forall_mem_cons, OptCall.code]
    exact ⟨by decide, by decide, by simp⟩
  · obtain ⟨es, msg, hstep, hsent, -⟩ := sampleServer_discover allocateAddr_macA
    refine ⟨es, msg, hstep, hsent, ?_⟩
    have hevents := congrArg Outcome.events hstep
    apply replies_well_formed.2 sampleConfig _ (sampleServer []) _ msg rfl (zeros_length _)
      (sampleMsg_len _ _ macA _)
    rw [hevents, hsent]
    exact List.mem_singleton.mpr rfl

end PicoosLwip.Dhcps
